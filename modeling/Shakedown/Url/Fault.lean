/-!
Why a text is not a URL.
-/

namespace Shakedown.Url

inductive Fault where
  | emptyHost
  | badInternationalName
  | badPort
  | badIpv4
  | badIpv6
  | badDomainCharacter
  | relativeWithoutBase
  deriving DecidableEq

def Fault.text : Fault → String
  | emptyHost => "empty host"
  | badInternationalName => "invalid international domain name"
  | badPort => "invalid port number"
  | badIpv4 => "invalid IPv4 address"
  | badIpv6 => "invalid IPv6 address"
  | badDomainCharacter => "invalid domain character"
  | relativeWithoutBase => "relative URL without a base"

end Shakedown.Url

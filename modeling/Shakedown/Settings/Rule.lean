import Shakedown.Failure
import Shakedown.Text.Blank
import Shakedown.Url.Reader

/-!
Rules for single settings. A rule passes a value or objects to it, naming the setting.
-/

namespace Shakedown.Settings

def objectTo (field value : String) (objection : Objection) : Except Failure Unit :=
  .error (.invalidSetting field value objection)

/-- A URL for requests has one of two schemes. -/
def checkUrl (field value : String) : Except Failure Unit :=
  if value = "" then objectTo field value .emptyUrl
  else
    match Url.ofText? value with
    | .error fault => objectTo field value (.malformedUrl fault)
    | .ok url =>
      if url.scheme = "http".toList ∨ url.scheme = "https".toList then .ok ()
      else objectTo field value (.unsupportedScheme (String.ofList url.scheme))

def checkPath (field value : String) : Except Failure Unit :=
  if value = "" then objectTo field value .emptyPath
  else if value.toList.contains '\x00' then objectTo field value .nulInPath
  else .ok ()

/-- A text has to hold something but blanks. -/
def checkNotBlank (field value : String) : Except Failure Unit :=
  if value.toList.all Text.isBlank then objectTo field value .blank else .ok ()

def checkRange (field : String) (value least greatest : Int) : Except Failure Unit :=
  if least ≤ value ∧ value ≤ greatest then .ok ()
  else objectTo field (String.ofList (Decimal.integer value)) (.outside least greatest)

end Shakedown.Settings

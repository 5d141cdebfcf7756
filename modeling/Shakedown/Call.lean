import Shakedown.App
import Shakedown.Entries

/-!
One command for a server: an app, an action, and named parameters.
-/

namespace Shakedown

/-- The app is a text, since a server has to be asked for apps that do not exist as well. -/
structure Call where
  app : String
  action : String
  params : Entries String := Entries.empty
  deriving DecidableEq, Inhabited

namespace Call

def forApp (app : App) (action : String) : Call :=
  ⟨app.name, action, Entries.empty⟩

/-- The last value given to a key is the one that counts. -/
def withParam (c : Call) (key value : String) : Call :=
  { c with params := c.params.put key value }

def isFor (c : Call) (app : App) : Bool :=
  c.app == app.name

end Call

end Shakedown

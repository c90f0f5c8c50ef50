/-!
Failures to set the account store up.
-/

namespace ScopedStore.Account

inductive Error where
  | invalid (detail : String)
  | client (detail : String)
  deriving DecidableEq

namespace Error

def message : Error → String
  | invalid detail => "remote store config invalid: " ++ detail
  | client detail => "remote store client error: " ++ detail

def kind : Error → String
  | invalid _ => "Invalid"
  | client _ => "Client"

end Error

end ScopedStore.Account

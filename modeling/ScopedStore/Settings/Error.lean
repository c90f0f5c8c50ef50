import ScopedStore.Account.Error
import ScopedStore.Device.Error

/-!
Failures to load settings and to put the stores to use, and how the store contract reports them.
-/

namespace ScopedStore.Settings

inductive Error where
  | io (detail : String)
  | parse
  | env (detail : String)
  | invalid (detail : String)
  | device (cause : Device.Error)
  | account (cause : Account.Error)
  | logging (detail : String)
  deriving DecidableEq

namespace Error

def message : Error → String
  | io detail => "config io error: " ++ detail
  | parse => "config parse error"
  | env detail => "config env error: " ++ detail
  | invalid detail => "invalid config: " ++ detail
  | device cause => cause.message
  | account cause => cause.message
  | logging detail => "logging init failed: " ++ detail

def kind : Error → String
  | io _ => "Io"
  | parse => "Parse"
  | env _ => "Env"
  | invalid _ => "Invalid"
  | device _ => "Device"
  | account _ => "Account"
  | logging _ => "Logging"

/-- The kind of the failure that is passed on, if one is. -/
def innerKind? : Error → Option String
  | device cause => some cause.kind
  | account cause => some cause.kind
  | _ => none

/-- Failures of the device store are reported as its own. -/
def toStoreError : Error → StoreError
  | device cause => cause.toStoreError
  | cause => .general cause.message

end Error

end ScopedStore.Settings

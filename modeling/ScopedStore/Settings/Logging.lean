import ScopedStore.Log

/-!
Logging settings.
-/

namespace ScopedStore.Settings

inductive LogFormat where
  | text
  | json
  deriving DecidableEq

def LogFormat.name : LogFormat → String
  | text => "text"
  | json => "json"

/-- `level` counts where the environment does not say otherwise. -/
structure Logging where
  level : Log.Level := .info
  format : LogFormat := .text
  withTarget : Bool := true
  deriving DecidableEq

end ScopedStore.Settings

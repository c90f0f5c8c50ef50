import ScopedStore.Settings.Document
import ScopedStore.Settings.Environment
import ScopedStore.Settings.Files
import ScopedStore.Toml.Reader

/-!
The settings of the program: a document, what the environment sets over it, and the rules of both
stores.
-/

namespace ScopedStore

structure Settings where
  device : Device.Config
  account : Option Account.Config := none
  logging : Settings.Logging := {}
  deriving DecidableEq

namespace Settings

private def take (name : String) (value : Json)
    (known : Option Device.Config × Option Account.Config × Logging) :
    Decoded (Option Device.Config × Option Account.Config × Logging) :=
  let (device, account, logging) := known
  match name with
  | "device" => do
    return (some (← Device.Config.ofDocument Json.isEmptyContainer value), account, logging)
  | "account" => do return (device, some (← Account.Config.ofDocument value), logging)
  | _ => do
    return (device, account, ← Logging.ofDocument Json.isEmptyContainer value)

def sectionNames : List String := ["device", "account", "logging"]

/-- Whether all sections of a document are known. -/
private def knowsSections : Json → Bool
  | .object fields => fields.all fun (name, _) => name.elim false sectionNames.contains
  | _ => false

def ofDocument (document : Json) : Decoded Settings := do
  if !knowsSections document then Json.malformed
  else
    let (device, account, logging) ←
      document.asStructure take sectionNames (none, none, {})
    return { device := ← Json.require device, account := account, logging := logging }

def ofToml (text : String) : Except Error Settings :=
  match Toml.read? text with
  | none => .error .parse
  | some document => (ofDocument document).mapError fun _ => .parse

/-- The largest file that is read, in bytes. -/
def maxFileBytes : Nat := 64 * 1024

def ofFile (files : Files) (path : String) : Except Error Settings :=
  match files.read path with
  | .error report => .error (.io (path ++ ": " ++ report))
  | .ok bytes =>
    if maxFileBytes < bytes.length then .error (.invalid "config file exceeds size limit")
    else
      match Text.ofBytes? bytes with
      | none => .error (.invalid "config file must be utf-8")
      | some text => ofToml text

/-- The device settings under what the environment sets. -/
def overrideDevice (overrides : Overrides) (device : Device.Config) : Device.Config :=
  { device with
    path := overrides.path.getD device.path
    maxSize := overrides.maxSize.getD device.maxSize
    maxValue := overrides.maxValue.getD device.maxValue
    limit := overrides.limit.getD device.limit }

/-- The account settings under what the environment sets. An endpoint alone makes an account; a
token needs one. -/
def overrideAccount (overrides : Overrides) (account : Option Account.Config) :
    Except Error (Option Account.Config) :=
  let account :=
    match overrides.uri, account with
    | none, account => account
    | some uri, some account => some { account with uri := uri }
    | some uri, none => some { uri := uri }
  match overrides.token, account with
  | none, account => .ok account
  | some token, some account => .ok (some { account with token := some token })
  | some _, none =>
    .error (.invalid (Variable.token.name ++ " requires " ++ Variable.uri.name))

def override (overrides : Overrides) (settings : Settings) : Except Error Settings := do
  return { settings with
    device := overrideDevice overrides settings.device
    account := ← overrideAccount overrides settings.account }

def validate (files : Files) (settings : Settings) : Except Error Unit := do
  (settings.device.validate files.isFolder).mapError Error.device
  match settings.account with
  | none => return ()
  | some account => account.validate.mapError Error.account

/-- The settings before the environment counts: those of the file that is given, or that the
environment names, or the defaults for a database path from the environment. -/
def base (files : Files) (path : Option String) (overrides : Overrides) :
    Except Error Settings :=
  match path <|> overrides.config, overrides.path with
  | some file, _ => ofFile files file
  | none, some path => .ok { device := { path := path } }
  | none, none =>
    .error (.invalid ("no config file given and " ++ Variable.path.name ++ " is unset"))

def load (files : Files) (path : Option String) (overrides : Overrides) :
    Except Error Settings := do
  let settings ← override overrides (← base files path overrides)
  settings.validate files
  return settings

/-- Loads the settings of the program. What the environment sets is read before any file. -/
def resolve (files : Files) (path : Option String) (environment : Overrides.Environment) :
    Except Error Settings := do
  load files path (← Overrides.read environment)

end Settings

end ScopedStore

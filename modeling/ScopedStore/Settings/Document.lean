import ScopedStore.Json.Decode
import ScopedStore.Account.Config
import ScopedStore.Device.Config
import ScopedStore.Settings.Logging

/-!
Settings out of documents. The same structures are read from JSON and from TOML, which differ only
in what they write behind a name without content.
-/

namespace ScopedStore

open Json (UnitForm)

def Device.JournalMode.ofDocument (isUnit : UnitForm) : Json → Decoded Device.JournalMode :=
  Json.asName isUnit ([.delete, .wal].map fun mode => (mode.name, mode))

def Device.SyncMode.ofDocument (isUnit : UnitForm) : Json → Decoded Device.SyncMode :=
  Json.asName isUnit ([.full, .normal].map fun mode => (mode.name, mode))

def Log.Level.ofDocument (isUnit : UnitForm) : Json → Decoded Log.Level :=
  Json.asName isUnit
    ([.trace, .debug, .info, .warn, .error].map fun level => (level.name, level))

def Settings.LogFormat.ofDocument (isUnit : UnitForm) : Json → Decoded Settings.LogFormat :=
  Json.asName isUnit ([.text, .json].map fun format => (format.name, format))

namespace Device.Config

private def take (isUnit : UnitForm) (name : String) (value : Json)
    (known : Option String × Config) : Decoded (Option String × Config) :=
  let (path, config) := known
  match name with
  | "path" => do return (some (← value.asString), config)
  | "max_size" => do return (path, { config with maxSize := ← value.asUInt64 })
  | "max_value" => do return (path, { config with maxValue := ← value.asUInt32 })
  | "limit" => do return (path, { config with limit := ← value.asUInt32 })
  | "busy_timeout_ms" => do return (path, { config with busyTimeoutMs := ← value.asUInt64 })
  | "journal_mode" => do
    return (path, { config with journalMode := ← JournalMode.ofDocument isUnit value })
  | _ => do return (path, { config with syncMode := ← SyncMode.ofDocument isUnit value })

def fieldNames : List String :=
  ["path", "max_size", "max_value", "limit", "busy_timeout_ms", "journal_mode", "sync_mode"]

def ofDocument (isUnit : UnitForm) (document : Json) : Decoded Config := do
  let (path, config) ←
    document.asStructure (take isUnit) fieldNames (none, ({ path := "" } : Config))
  return { config with path := ← Json.require path }

end Device.Config

namespace Account.Config

private def take (name : String) (value : Json) (known : Option String × Config) :
    Decoded (Option String × Config) :=
  let (uri, config) := known
  match name with
  | "uri" => do return (some (← value.asString), config)
  | "token" => do return (uri, { config with token := ← value.asOption Json.asString })
  | "timeout_ms" => do return (uri, { config with timeoutMs := ← value.asOption Json.asUInt64 })
  | "legacy_device_scope_notifications" => do
    return (uri, { config with legacyDeviceScope := ← value.asBool })
  | _ => do return (uri, { config with userAgent := ← value.asString })

def fieldNames : List String :=
  ["uri", "token", "timeout_ms", "legacy_device_scope_notifications", "user_agent"]

def ofDocument (document : Json) : Decoded Config := do
  let (uri, config) ← document.asStructure take fieldNames (none, ({ uri := "" } : Config))
  return { config with uri := ← Json.require uri }

end Account.Config

namespace Settings.Logging

private def take (isUnit : UnitForm) (name : String) (value : Json) (config : Logging) :
    Decoded Logging :=
  match name with
  | "level" => do return { config with level := ← Log.Level.ofDocument isUnit value }
  | "format" => do return { config with format := ← LogFormat.ofDocument isUnit value }
  | _ => do return { config with withTarget := ← value.asBool }

def ofDocument (isUnit : UnitForm) : Json → Decoded Logging :=
  Json.asStructure (take isUnit) ["level", "format", "with_target"] {}

end Settings.Logging

end ScopedStore

import ScopedStore.Account.Http
import ScopedStore.Account.Remote
import ScopedStore.Device.Quota
import ScopedStore.Settings.Config

/-!
The stores of the program: the device store and, where the settings name one, the account store.
They share one clock and one listener registry.
-/

namespace ScopedStore

namespace Account

/-- What a configured account store consists of. -/
structure Linked where
  connection : Connection
  noticeScope : Scope
  deriving DecidableEq

namespace Linked

private def linked (config : Config) : Log.Record where
  level := .info
  target := "persistent_store_remote::store"
  message := "account store connected"
  fields := [("uri", .text config.uri), ("local", .flag config.isLocal)]

/-- Prepares the account store of the settings. -/
def ofConfig (config : Config) : Except Error (Linked × List Log.Record) := do
  let connection ← Connection.ofConfig config
  return (⟨connection, Remote.noticeScope config.legacyDeviceScope⟩, [linked config])

/-- The store as it is put to use, where flushing never fails. -/
def backend (link : Linked) : Backend (State Http.Network) :=
  (Remote.backend (Http.client link.connection) link.noticeScope).caching

end Linked

end Account

namespace Stores

/-- The device's state holds the clock and the registry of both stores. -/
structure State where
  device : Device.State
  network : Account.Http.Network := {}

variable {σ : Type}

/-- A backend over a part of a state. -/
private def within (inner : Backend σ) (get : State → σ) (set : State → σ → State) :
    Backend State where
  call c state :=
    let (answer, part) := inner.call c (get state)
    (answer, set state part)
  enrol request state :=
    let (enrolled, part) := inner.enrol request (get state)
    (enrolled, set state part)
  members state := inner.members (get state)

def deviceBackend (config : Device.Config) : Backend State :=
  within (Device.storeBackend config) State.device fun state device =>
    { state with device := device }

/-- The account store's part of the state. -/
def State.account (state : State) : Account.State Account.Http.Network where
  clock := state.device.clock
  hub := state.device.hub
  client := state.network

def accountBackend (link : Account.Linked) : Backend State :=
  within link.backend State.account fun state account =>
    { device := { state.device with hub := account.hub }, network := account.client }

end Stores

namespace Settings

private def opened (settings : Settings) : Log.Record where
  level := .info
  target := "persistent_store_config::config"
  message := "persistent stores opened"
  fields :=
    [("path", .text settings.device.path), ("account", .flag settings.account.isSome)]

private def linkAccount (settings : Settings) :
    Except Error (Option Account.Linked × List Log.Record) :=
  match settings.account with
  | none => .ok (none, [])
  | some account =>
    match Account.Linked.ofConfig account with
    | .ok (link, log) => .ok (some link, log)
    | .error cause => .error (.account cause)

/-- Puts the stores to use: the device store first, then the account store if there is one. -/
def «open» (files : Files) (settings : Settings) (state : Device.State) :
    Except Error (Option Account.Linked) × List Log.Record × Device.State :=
  match settings.validate files with
  | .error cause => (.error cause, [], state)
  | .ok () =>
    match Device.launch settings.device state with
    | (.error cause, log, state) => (.error (.device cause), log, state)
    | (.ok (), log, state) =>
      match settings.linkAccount with
      | .error cause => (.error cause, log, state)
      | .ok (link, linkLog) => (.ok link, log ++ linkLog ++ [opened settings], state)

end Settings

end ScopedStore

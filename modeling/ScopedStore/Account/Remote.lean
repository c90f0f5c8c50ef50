import ScopedStore.Time.Clock
import ScopedStore.Time.Expiry
import ScopedStore.Store.Layer
import ScopedStore.Account.Client

/-!
The account store: values that live with the account service. It serves the account scope only and
keeps nothing itself.
-/

namespace ScopedStore.Account

open Wire

structure State (κ : Type) where
  clock : Clock
  hub : Hub := {}
  client : κ

namespace Remote

private def target : String := "persistent_store_remote::store"

private def callFailed (operation : String) (status : RpcStatus) : Log.Record where
  level := .error
  target := target
  message := "secure storage call failed"
  fields :=
    [("operation", .text operation), ("code", .text status.code.name),
      ("message", .text status.text), ("details", .text status.detailsText)]

private def noValue : Log.Record where
  level := .error
  target := target
  message := "secure storage response carried no value"
  fields := [("operation", .text "get_value")]

def key (ns key : String) : Key := { appId := ns, key := key, scope := .account }

/-- A value as it is sent: with a lifetime only where it has an end. -/
def sent (ns name value : String) (ttl : UInt32) : Value :=
  { key := some (key ns name)
    value := value
    ttl := if ttl = 0 then none else some (.ofSeconds (UInt64.ofNat ttl.toNat)) }

/-- A value as it is handed out. A lifetime counts in whole seconds and wins over a point in
time; a value whose time is over is not there. -/
def received (value : Value) (now : Int) : Except StoreError StoredValue :=
  match value.ttl, value.expireTime with
  | some lifetime, _ =>
    .ok ⟨value.value, UInt32.ofNat (min lifetime.seconds.toNat Expiry.longest)⟩
  | none, none => .ok (.persistent value.value)
  | none, some instant =>
    match Expiry.remaining (some instant.unixSeconds) now with
    | some ttl => .ok ⟨value.value, ttl⟩
    | none => .error .unknownKey

variable {κ : Type}

/-- Makes a request; a failure is logged and reported as a general one. -/
def request (client : Client κ) (operation : String) (rpc : Rpc) (state : State κ) :
    Answer rpc.Reply × State κ :=
  let (outcome, inner) := client.perform rpc state.client
  let state := { state with client := inner }
  match outcome.result with
  | .ok reply => ({ result := .ok reply, log := outcome.log }, state)
  | .error status =>
    ({ result := .error status.toStoreError
       log := outcome.log ++ [callFailed operation status] }, state)

def setValue (client : Client κ) (noticeScope : Scope) (ns key value : String) (ttl : UInt32)
    (state : State κ) : Answer Unit × State κ :=
  let (answer, state) :=
    request client "set_value" (.updateValue ⟨sent ns key value ttl⟩) state
  match answer.result with
  | .ok () => ({ answer with notices := [.valueChanged noticeScope ns key value] }, state)
  | .error _ => (answer, state)

def getValue (client : Client κ) (ns name : String) (state : State κ) :
    Answer StoredValue × State κ :=
  let (answer, state) := request client "get_value" (.getValue ⟨key ns name⟩) state
  match answer.result with
  | .error cause => (answer.withResult (.error cause), state)
  | .ok response =>
    match response.value with
    | none =>
      ((answer.withResult (.error (.general "get_value response carried no value"))).logged
        noValue, state)
    | some value => (answer.withResult (received value state.clock.unixSeconds), state)

/-- The failure of a call with the device scope. -/
def foreignScope (c : Call) : StoreError :=
  .general (c.operation ++ " is served for the account scope only")

/-- `noticeScope` is the scope that listeners are told. -/
def backend (client : Client κ) (noticeScope : Scope) : Backend (State κ) where
  call
    | .setValue .account ns key value ttl, state =>
      setValue client noticeScope ns key value ttl state
    | .getValue .account ns name, state => getValue client ns name state
    | .deleteKey .account ns name, state =>
      request client "delete_key" (.deleteValue ⟨key ns name⟩) state
    | .deleteNamespace .account ns, state =>
      request client "delete_namespace" (.deleteAllValues ⟨ns, .account⟩) state
    | .setValue .device ns key value ttl, state =>
      (.error (foreignScope (.setValue .device ns key value ttl)), state)
    | .getValue .device ns key, state => (.error (foreignScope (.getValue .device ns key)), state)
    | .deleteKey .device ns key, state =>
      (.error (foreignScope (.deleteKey .device ns key)), state)
    | .deleteNamespace .device ns, state =>
      (.error (foreignScope (.deleteNamespace .device ns)), state)
    | c, state => ({ result := Backend.leftOut c }, state)
  enrol request state :=
    let (enrolled, hub) := state.hub.enrol request
    (enrolled, { state with hub := hub })
  members state := state.hub.members

/-- The scope that listeners are told; the device scope is told for the sake of listeners that
know no other. -/
def noticeScope (legacyDeviceScope : Bool) : Scope :=
  if legacyDeviceScope then .device else .account

end Remote

end ScopedStore.Account

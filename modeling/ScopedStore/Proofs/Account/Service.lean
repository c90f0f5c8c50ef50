import ScopedStore.Proofs.Account.Replies
import ScopedStore.Proofs.Wire.RoundTrip

/-! The account store over a service that keeps what it is sent, with requests and replies as JSON
text. Each read tells the last write of its key. -/
namespace ScopedStore.Account

open Wire

/-- The request to a method, as its body tells it. -/
def Rpc.ofBody? (method : String) (body : Text.Bytes) : Option Rpc :=
  match method with
  | "GetValue" => (Json.decodeBytes GetValueRequest.ofJson body).toOption.map .getValue
  | "UpdateValue" => (Json.decodeBytes UpdateValueRequest.ofJson body).toOption.map .updateValue
  | "DeleteValue" => (Json.decodeBytes DeleteValueRequest.ofJson body).toOption.map .deleteValue
  | "DeleteAllValues" =>
    (Json.decodeBytes DeleteAllValuesRequest.ofJson body).toOption.map .deleteAllValues
  | _ => none

def Rpc.body (rpc : Rpc) : Text.Bytes := Text.toBytes rpc.toJson.compact

theorem Rpc.ofBody?_body (rpc : Rpc) : ofBody? rpc.method rpc.body = some rpc := by
  cases rpc with
  | getValue request =>
    exact congrArg (·.toOption.map Rpc.getValue) (Kind.decodeBytes_encode .getValueRequest request)
  | updateValue request =>
    exact congrArg (·.toOption.map Rpc.updateValue)
      (Kind.decodeBytes_encode .updateValueRequest request)
  | deleteValue request =>
    exact congrArg (·.toOption.map Rpc.deleteValue)
      (Kind.decodeBytes_encode .deleteValueRequest request)
  | deleteAllValues request =>
    exact congrArg (·.toOption.map Rpc.deleteAllValues)
      (Kind.decodeBytes_encode .deleteAllValuesRequest request)

/-- How a service words its replies: under which status of success, an answer in any spelling that
reads as what is meant, and what it acknowledges other requests with. -/
structure Wording where
  status : Nat := 200
  isSuccess_status : Http.isSuccess status = true := by decide
  answer : GetValueResponse → Text.Bytes
  answer_read : ∀ response,
    Json.decodeBytes GetValueResponse.ofJson (answer response) = .ok response
  done : Text.Bytes
  done_read : done = [] ∨ Json.readBytes done = ⟨.object [], true⟩

namespace Wording

/-- Answers in the form in which messages are written here. -/
def plain : Wording where
  answer response := Text.toBytes response.toJson.compact
  answer_read := Kind.decodeBytes_encode .getValueResponse
  done := []
  done_read := .inl rfl

variable (wording : Wording)

theorem status_range : 200 ≤ wording.status ∧ wording.status ≤ 299 :=
  Http.isSuccess_iff.mp wording.isSuccess_status

theorem received_answer (request : GetValueRequest) (response : GetValueResponse) :
    Http.received (.getValue request) ⟨wording.status, wording.answer response⟩ =
      .ok response := by
  obtain ⟨value⟩ := response
  exact Http.received_getValue_iff.mpr ⟨wording.status_range, .inl (wording.answer_read ⟨value⟩)⟩

theorem emptyMessage_done :
    Json.decodeBytes Http.emptyMessage (Http.filled wording.done) = .ok () := by
  apply Http.emptyMessage_filled_iff.mpr
  rcases wording.done_read with h | h
  · exact .inl h
  · right
    rw [Json.decodeBytes, h]
    rfl

end Wording

/-- A service that keeps the last message it was sent for each key. -/
structure Service where
  kept : Key → Option Value := fun _ => none

namespace Service

def put (key : Key) (value : Value) (service : Service) : Service where
  kept other := if other = key then some value else service.kept other

def forget (gone : Key → Bool) (service : Service) : Service where
  kept key := if gone key then none else service.kept key

def handle (wording : Wording) : Rpc → Service → Http.Reply × Service
  | .getValue request, service =>
    (⟨wording.status, wording.answer ⟨service.kept request.key⟩⟩, service)
  | .updateValue request, service =>
    match request.value.key with
    | some key => (⟨wording.status, wording.done⟩, service.put key request.value)
    | none => (⟨400, []⟩, service)
  | .deleteValue request, service =>
    (⟨wording.status, wording.done⟩, service.forget (· = request.key))
  | .deleteAllValues request, service =>
    (⟨wording.status, wording.done⟩,
      service.forget fun key => key.appId = request.appId && key.scope = request.scope)

/-- A request that it cannot read is refused. -/
def serve (wording : Wording) (method : String) (body : Text.Bytes) (service : Service) :
    Http.Reply × Service :=
  match Rpc.ofBody? method body with
  | some rpc => service.handle wording rpc
  | none => (⟨400, []⟩, service)

/-- The client whose requests this service gets, and that reads its replies. -/
def client (wording : Wording) : Client Service where
  perform rpc service :=
    let (reply, service) := service.serve wording rpc.method rpc.body
    (Http.outcome rpc (.ok reply), service)

variable (wording : Wording) (service : Service)

theorem client_perform (rpc : Rpc) :
    (client wording).perform rpc service =
      (Http.outcome rpc (.ok (service.handle wording rpc).1), (service.handle wording rpc).2) := by
  unfold client serve
  dsimp only
  rw [Rpc.ofBody?_body]

theorem perform_getValue (key : Key) :
    let made := (client wording).perform (.getValue ⟨key⟩) service
    made.1.result = .ok ⟨service.kept key⟩ ∧ made.2 = service := by
  intro made
  unfold made
  rw [client_perform]
  exact ⟨wording.received_answer ⟨key⟩ _, rfl⟩

theorem perform_updateValue {key : Key} {value : Value} (h : value.key = some key) :
    let made := (client wording).perform (.updateValue ⟨value⟩) service
    made.1.result = .ok () ∧ made.2 = service.put key value := by
  intro made
  have hhandle : service.handle wording (.updateValue ⟨value⟩) =
      (⟨wording.status, wording.done⟩, service.put key value) := by
    unfold handle
    dsimp only
    rw [h]
  unfold made
  rw [client_perform, hhandle]
  exact ⟨Http.received_eq_ok_iff.mpr ⟨wording.status_range, wording.emptyMessage_done⟩, rfl⟩

theorem perform_deleteValue (key : Key) :
    let made := (client wording).perform (.deleteValue ⟨key⟩) service
    made.1.result = .ok () ∧ made.2 = service.forget (· = key) := by
  intro made
  unfold made
  rw [client_perform]
  exact ⟨Http.received_eq_ok_iff.mpr ⟨wording.status_range, wording.emptyMessage_done⟩, rfl⟩

theorem perform_deleteAllValues (request : DeleteAllValuesRequest) :
    let made := (client wording).perform (.deleteAllValues request) service
    made.1.result = .ok () ∧ made.2 = service.forget fun key =>
      key.appId = request.appId && key.scope = request.scope := by
  intro made
  unfold made
  rw [client_perform]
  exact ⟨Http.received_eq_ok_iff.mpr ⟨wording.status_range, wording.emptyMessage_done⟩, rfl⟩

end Service

namespace Remote

/-- Whether a call writes or removes the value of a key. -/
def changes (ns key : String) : Call → Bool
  | .setValue .account other name _ _ => other = ns && name = key
  | .deleteKey .account other name => other = ns && name = key
  | .deleteNamespace .account other => other = ns
  | _ => false

def written : Call → Option StoredValue
  | .setValue _ _ _ value ttl => some ⟨value, ttl⟩
  | _ => none

/-- What the last change of a key left there: a value with its lifetime if it was a write. -/
def standing (calls : List Call) (ns key : String) : Option StoredValue :=
  (calls.filter (changes ns key)).getLast?.bind written

/-- Makes calls one after another, each at its own time. -/
def replay {κ : Type} (outer : Backend (State κ)) : List (Clock × Call) → State κ → State κ
  | [], state => state
  | (clock, c) :: rest, state => replay outer rest (outer.call c { state with clock := clock }).2

theorem standing_append_singleton (calls : List Call) (c : Call) (ns key : String) :
    standing (calls ++ [c]) ns key =
      if changes ns key c then written c else standing calls ns key := by
  unfold standing
  rw [List.filter_append]
  by_cases hc : changes ns key c = true
  · rw [if_pos hc, List.filter_cons_of_pos hc, List.filter_nil, List.getLast?_concat]
    rfl
  · rw [if_neg hc, List.filter_cons_of_neg hc, List.filter_nil, List.append_nil]

theorem key_inj {ns key ns' key' : String} :
    Remote.key ns key = Remote.key ns' key' ↔ ns = ns' ∧ key = key' := by
  simp [Remote.key]

/-- A value that comes back as it was sent is handed out as it was written. -/
theorem received_sent (ns key value : String) (ttl : UInt32) (now : Int) :
    received (sent ns key value ttl) now = .ok ⟨value, ttl⟩ := by
  by_cases h : ttl = 0
  · simp [received, sent, h, StoredValue.persistent]
  · have hmin : min ttl.toNat Expiry.longest = ttl.toNat :=
      Nat.min_eq_left (Nat.le_of_lt_succ ttl.toNat_lt)
    simp [received, sent, h, Duration.ofSeconds, hmin]

end Remote

namespace Service

open Remote

variable (wording : Wording) (service : Service)

/-- What a service keeps for a key once a call is made: what it kept, unless the call changes it. -/
theorem after_kept (c : Call) (ns key : String) :
    ((client wording).after (message? c) service).kept (Remote.key ns key) =
      if changes ns key c then (written c).map fun entry => sent ns key entry.value entry.ttl
      else service.kept (Remote.key ns key) := by
  cases c with
  | setValue scope other name value ttl =>
    cases scope with
    | device => rfl
    | account =>
      have hkey : (sent other name value ttl).key = some (Remote.key other name) := rfl
      have hput := (perform_updateValue wording service hkey).2
      change ((client wording).perform (.updateValue ⟨sent other name value ttl⟩)
        service).2.kept _ = _
      rw [hput]
      by_cases he : other = ns ∧ name = key
      · obtain ⟨rfl, rfl⟩ := he
        simp [put, changes, written]
      · have hne : ¬ Remote.key ns key = Remote.key other name := fun hk =>
          he ((key_inj.mp hk).imp Eq.symm Eq.symm)
        simp [put, changes, hne, he]
  | deleteKey scope other name =>
    cases scope with
    | device => rfl
    | account =>
      have hforget := (perform_deleteValue wording service (Remote.key other name)).2
      change ((client wording).perform (.deleteValue ⟨Remote.key other name⟩) service).2.kept _ = _
      rw [hforget]
      by_cases he : other = ns ∧ name = key
      · obtain ⟨rfl, rfl⟩ := he
        simp [forget, changes, written]
      · have hne : ¬ Remote.key ns key = Remote.key other name := fun hk =>
          he ((key_inj.mp hk).imp Eq.symm Eq.symm)
        simp [forget, changes, hne, he]
  | deleteNamespace scope other =>
    cases scope with
    | device => rfl
    | account =>
      have hforget := (perform_deleteAllValues wording service ⟨other, .account⟩).2
      change ((client wording).perform (.deleteAllValues ⟨other, .account⟩) service).2.kept _ = _
      rw [hforget]
      by_cases he : other = ns
      · subst he
        simp [forget, changes, written, Remote.key]
      · have hne : ¬ ns = other := fun hk => he hk.symm
        simp [forget, changes, hne, he, Remote.key]
  | getValue scope other name =>
    cases scope with
    | device => rfl
    | account =>
      have hsame := (perform_getValue wording service (Remote.key other name)).2
      change ((client wording).perform (.getValue ⟨Remote.key other name⟩) service).2.kept _ = _
      rw [hsame]
      rfl
  | _ => rfl

/-- A service keeps just what the calls made so far leave standing, for every key. -/
def Mirrors (calls : List Call) (service : Service) : Prop :=
  ∀ ns key, service.kept (Remote.key ns key) =
    (standing calls ns key).map fun entry => sent ns key entry.value entry.ttl

variable {service} {calls : List Call}

theorem Mirrors.call (h : Mirrors calls service) (c : Call) :
    Mirrors (calls ++ [c]) ((client wording).after (message? c) service) := by
  intro ns key
  rw [after_kept, standing_append_singleton, h ns key]
  split <;> rfl

section Stacks
variable (noticeScope : Scope) (layers : List Layer) {state : State Service}

theorem Mirrors.stack_call (h : Mirrors calls state.client) (c : Call) :
    Mirrors (calls ++ [c])
      ((Layer.stack layers (backend (client wording) noticeScope)).call c state).2.client := by
  obtain ⟨_, _, hstack⟩ := Remote.stack_call (client wording) noticeScope state layers c
  obtain ⟨_, _, hafter⟩ := Remote.call_outcome (client wording) noticeScope state c
  rw [hstack, hafter]
  exact h.call wording c

theorem Mirrors.replay (h : Mirrors calls state.client) (run : List (Clock × Call)) :
    Mirrors (calls ++ run.map (·.2)) (Remote.replay
      (Layer.stack layers (backend (client wording) noticeScope)) run state).client := by
  induction run generalizing calls state with
  | nil => rwa [List.map_nil, List.append_nil]
  | cons made rest ih =>
    obtain ⟨clock, c⟩ := made
    have hat : Mirrors calls { state with clock := clock }.client := h
    have hlater := ih (hat.stack_call wording noticeScope layers c)
    rwa [List.append_assoc] at hlater

/-- A read tells what stands for its key, and without that it fails. -/
theorem Mirrors.getValue_result (h : Mirrors calls state.client) (ns key : String) :
    ((Layer.stack layers (backend (client wording) noticeScope)).call
        (.getValue .account ns key) state).1.result =
      match standing calls ns key with
      | some entry => .ok entry
      | none => .error (.general "get_value response carried no value") := by
  have hkept := (perform_getValue wording state.client (Remote.key ns key)).1
  rw [h ns key] at hkept
  rw [(Remote.stack_call (client wording) noticeScope state layers _).1]
  change (getValue (client wording) ns key state).1.result = _
  rw [(getValue_outcome (client wording) state ns key).1, hkept]
  cases standing calls ns key with
  | none => rfl
  | some entry => exact received_sent ns key entry.value entry.ttl state.clock.unixSeconds

theorem change_result {c : Call} {ns key : String} (hc : changes ns key c = true) :
    ending ((Layer.stack layers (backend (client wording) noticeScope)).call c state).1.result =
      "Ok" := by
  rw [(Remote.stack_call (client wording) noticeScope state layers c).1]
  cases c with
  | setValue scope other name value ttl =>
    cases scope with
    | device => cases hc
    | account =>
      have hkey : (sent other name value ttl).key = some (Remote.key other name) := rfl
      change ending (setValue (client wording) noticeScope other name value ttl state).1.result = _
      rw [(setValue_outcome (client wording) noticeScope state other name value ttl).1,
        (perform_updateValue wording state.client hkey).1]
      rfl
  | deleteKey scope other name =>
    cases scope with
    | device => cases hc
    | account =>
      change ending (request (client wording) _ (.deleteValue ⟨Remote.key other name⟩)
        state).1.result = _
      rw [(request_outcome (client wording) state _ _).1,
        (perform_deleteValue wording state.client (Remote.key other name)).1]
      rfl
  | deleteNamespace scope other =>
    cases scope with
    | device => cases hc
    | account =>
      change ending (request (client wording) _ (.deleteAllValues ⟨other, .account⟩)
        state).1.result = _
      rw [(request_outcome (client wording) state _ _).1,
        (perform_deleteAllValues wording state.client ⟨other, .account⟩).1]
      rfl
  | _ => cases hc

end Stacks

/-- Over a service that keeps what it is sent, however it words its replies and whichever layers are
around the store, every write and every removal is accepted, and a read of a key returns the value
and the lifetime of the last write of that key unless it was removed since. A call about one key
changes what is read of no other. -/
theorem reads_tell_last_write (wording : Wording) (noticeScope : Scope) (layers : List Layer)
    (hub : Hub) (start now : Clock) (run : List (Clock × Call)) (ns key : String) :
    let outer := Layer.stack layers (Remote.backend (client wording) noticeScope)
    let state : State Service :=
      { Remote.replay outer run { clock := start, hub := hub, client := {} } with clock := now }
    let got (state : State Service) := (outer.call (.getValue .account ns key) state).1.result
    (got state =
      match standing (run.map (·.2)) ns key with
      | some entry => .ok entry
      | none => .error (.general "get_value response carried no value")) ∧
    (∀ c, changes ns key c = true → ending (outer.call c state).1.result = "Ok") ∧
    ∀ c, changes ns key c = false → got (outer.call c state).2 = got state := by
  intro outer state got
  have hnow : Mirrors (run.map (·.2)) state.client := by
    have hinitial : Mirrors [] (State.mk start hub ({} : Service)).client := fun _ _ => rfl
    exact hinitial.replay wording noticeScope layers run
  have hgot := hnow.getValue_result wording noticeScope layers ns key
  refine ⟨hgot, fun c hc => change_result wording noticeScope layers hc, fun c hc => ?_⟩
  have hother := (hnow.stack_call wording noticeScope layers c).getValue_result wording noticeScope
    layers ns key
  rw [standing_append_singleton, hc] at hother
  exact hother.trans hgot.symm

/-- A value written over another, beside a key removed alone and a namespace removed whole, and read
on either side of a further removal elsewhere. -/
theorem reads_tell_last_write_overwritten :
    let outer := Layer.stack [.cache] (Remote.backend (client .plain) .account)
    let run : List (Clock × Call) :=
      [(.atSecond 10, .setValue .account "ns" "key" "old" 0),
        (.atSecond 11, .setValue .account "ns" "k\x22ey" "gone" 7),
        (.atSecond 12, .setValue .account "ns" "key" "te😀xt" 5),
        (.atSecond 13, .deleteKey .account "ns" "k\x22ey"),
        (.atSecond 14, .deleteNamespace .account "n")]
    let state : State Service :=
      { Remote.replay outer run { clock := .atSecond 9, client := {} } with clock := .atSecond 99 }
    let got (state : State Service) := (outer.call (.getValue .account "ns" "key") state).1.result
    let c : Call := .deleteNamespace .account "other"
    changes "ns" "key" c = false ∧ got state = .ok ⟨"te😀xt", 5⟩ ∧
      got (outer.call c state).2 = .ok ⟨"te😀xt", 5⟩ := by
  intro outer run state got c
  have hc : changes "ns" "key" c = false := by decide
  obtain ⟨hgot, _, hother⟩ := reads_tell_last_write .plain .account [.cache] {} (.atSecond 9)
    (.atSecond 99) run "ns" "key"
  have hvalue : got state = .ok ⟨"te😀xt", 5⟩ := hgot.trans rfl
  exact ⟨hc, hvalue, (hother c hc).trans hvalue⟩

end Service

end ScopedStore.Account

import ScopedStore.Account.Remote
import ScopedStore.Proofs.Store.Stacks

/-! The account store over any client. A call sends at most one message, which the call alone
determines. Whatever the client makes of it, the store is never found unavailable, so that no layer
has anything to repeat. -/
namespace ScopedStore.Account

open Wire

variable {κ : Type}

/-- What is left of a client after a message, or after none. -/
def Client.after (client : Client κ) (message : Option Rpc) (inner : κ) : κ :=
  message.elim inner fun rpc => (client.perform rpc inner).2

namespace Remote

/-- The message that a call sends, if it sends one. -/
def message? : Call → Option Rpc
  | .setValue .account ns key value ttl =>
    some (.updateValue ⟨{
      key := some { appId := ns, key := key, scope := .account }
      value := value
      ttl := if ttl = 0 then none else some (.ofSeconds (.ofNat ttl.toNat))
      expireTime := none }⟩)
  | .getValue .account ns key =>
    some (.getValue ⟨{ appId := ns, key := key, scope := .account }⟩)
  | .deleteKey .account ns key =>
    some (.deleteValue ⟨{ appId := ns, key := key, scope := .account }⟩)
  | .deleteNamespace .account ns => some (.deleteAllValues { appId := ns, scope := .account })
  | _ => none

/-- How a call ended: well, or with an error of some kind. -/
def ending {α : Type} : Except StoreError α → String
  | .ok _ => "Ok"
  | .error cause => cause.kind

/-- How a call may end. -/
def endings : Call → List String
  | .openStore | .flushCache => ["Ok"]
  | .setLimit .. | .getLimit .. | .getKeys .. | .getNamespaces .. | .getSizes .. =>
    ["NotSupported"]
  | .setValue .device .. | .getValue .device .. | .deleteKey .device .. |
    .deleteNamespace .device .. => ["General"]
  | .setValue .account .. | .deleteKey .account .. | .deleteNamespace .account .. =>
    ["Ok", "General"]
  | .getValue .account .. => ["Ok", "General", "UnknownKey"]

/-- What listeners are told of a call: a write that was accepted, under the given scope. -/
def announced (noticeScope : Scope) : (c : Call) → Except StoreError c.Reply → List Notice
  | .setValue _ ns key value _, .ok _ => [.valueChanged noticeScope ns key value]
  | _, _ => []

theorem ending_mapError {α : Type} (result : Except RpcStatus α) :
    ending (result.mapError RpcStatus.toStoreError) ∈ ["Ok", "General"] := by
  cases result with
  | ok => exact List.mem_cons_self
  | error status => exact List.mem_cons_of_mem _ List.mem_cons_self

theorem ending_received (value : Value) (now : Int) :
    ending (received value now) ∈ ["Ok", "General", "UnknownKey"] := by
  unfold received
  split
  · exact List.mem_cons_self
  · exact List.mem_cons_self
  · split
    · exact List.mem_cons_self
    · exact List.mem_cons_of_mem _ (List.mem_cons_of_mem _ List.mem_cons_self)

/-- What a read hands out of the reply to it. -/
def answered (now : Int) (response : GetValueResponse) : Except StoreError StoredValue :=
  match response.value with
  | none => .error (.general "get_value response carried no value")
  | some value => received value now

section Calls
variable (client : Client κ) (noticeScope : Scope) (state : State κ)

/-- A request sends nothing to listeners and changes nothing but the client. -/
theorem request_outcome (operation : String) (rpc : Rpc) :
    (request client operation rpc state).1.result =
        (client.perform rpc state.client).1.result.mapError RpcStatus.toStoreError ∧
      (request client operation rpc state).1.notices = [] ∧
      (request client operation rpc state).2 =
        { state with client := (client.perform rpc state.client).2 } := by
  unfold request
  dsimp only
  split
  next reply h => exact ⟨by rw [h]; rfl, rfl, rfl⟩
  next status h => exact ⟨by rw [h]; rfl, rfl, rfl⟩

theorem setValue_outcome (ns key value : String) (ttl : UInt32) :
    let made := setValue client noticeScope ns key value ttl state
    made.1.result = (client.perform (.updateValue ⟨sent ns key value ttl⟩)
        state.client).1.result.mapError RpcStatus.toStoreError ∧
      made.1.notices = announced noticeScope (.setValue .account ns key value ttl) made.1.result ∧
      made.2 = { state with
        client := (client.perform (.updateValue ⟨sent ns key value ttl⟩) state.client).2 } := by
  intro made
  have hmade := request_outcome client state "set_value" (.updateValue ⟨sent ns key value ttl⟩)
  unfold made setValue
  generalize request client "set_value" _ state = requested at hmade ⊢
  obtain ⟨⟨result, notices, log⟩, after⟩ := requested
  obtain ⟨rfl, rfl, rfl⟩ := hmade
  cases (client.perform (.updateValue ⟨sent ns key value ttl⟩) state.client).1.result with
  | ok | error => exact ⟨rfl, rfl, rfl⟩

theorem getValue_outcome (ns name : String) :
    let made := getValue client ns name state
    made.1.result = ((client.perform (.getValue ⟨key ns name⟩) state.client).1.result.mapError
        RpcStatus.toStoreError).bind (answered state.clock.unixSeconds) ∧
      made.1.notices = [] ∧
      made.2 = { state with
        client := (client.perform (.getValue ⟨key ns name⟩) state.client).2 } := by
  intro made
  have hmade := request_outcome client state "get_value" (.getValue ⟨key ns name⟩)
  unfold made getValue
  generalize request client "get_value" _ state = requested at hmade ⊢
  obtain ⟨⟨result, notices, log⟩, after⟩ := requested
  obtain ⟨rfl, rfl, rfl⟩ := hmade
  cases (client.perform (.getValue ⟨key ns name⟩) state.client).1.result with
  | error status => exact ⟨rfl, rfl, rfl⟩
  | ok response =>
    obtain ⟨value⟩ := response
    cases value with
    | none | some => exact ⟨rfl, rfl, rfl⟩

theorem getValue_ending (ns name : String) :
    ending (getValue client ns name state).1.result ∈ ["Ok", "General", "UnknownKey"] := by
  rw [(getValue_outcome client state ns name).1]
  cases (client.perform (.getValue ⟨key ns name⟩) state.client).1.result with
  | error status => exact List.mem_cons_of_mem _ List.mem_cons_self
  | ok response =>
    obtain ⟨value⟩ := response
    cases value with
    | none => exact List.mem_cons_of_mem _ List.mem_cons_self
    | some value => exact ending_received value state.clock.unixSeconds

/-- A call ends in one of its ways, tells listeners what it has to, and leaves the client as its
message does and the rest of the store as it is. -/
theorem call_outcome (c : Call) :
    let made := (backend client noticeScope).call c state
    ending made.1.result ∈ endings c ∧ made.1.notices = announced noticeScope c made.1.result ∧
      made.2 = { state with client := client.after (message? c) state.client } := by
  cases c with
  | setValue scope ns key value ttl =>
    cases scope with
    | device => exact ⟨List.mem_cons_self, rfl, rfl⟩
    | account =>
      obtain ⟨hresult, hrest⟩ := setValue_outcome client noticeScope state ns key value ttl
      exact ⟨hresult ▸ ending_mapError _, hrest⟩
  | getValue scope ns name =>
    cases scope with
    | device => exact ⟨List.mem_cons_self, rfl, rfl⟩
    | account =>
      exact ⟨getValue_ending client state ns name, (getValue_outcome client state ns name).2⟩
  | deleteKey scope ns name =>
    cases scope with
    | device => exact ⟨List.mem_cons_self, rfl, rfl⟩
    | account =>
      obtain ⟨hresult, hrest⟩ :=
        request_outcome client state "delete_key" (.deleteValue ⟨key ns name⟩)
      exact ⟨hresult ▸ ending_mapError _, hrest⟩
  | deleteNamespace scope ns =>
    cases scope with
    | device => exact ⟨List.mem_cons_self, rfl, rfl⟩
    | account =>
      obtain ⟨hresult, hrest⟩ :=
        request_outcome client state "delete_namespace" (.deleteAllValues ⟨ns, .account⟩)
      exact ⟨hresult ▸ ending_mapError _, hrest⟩
  | _ => exact ⟨List.mem_cons_self, rfl, rfl⟩

theorem unavailable_not_mem_endings (c : Call) : "Unavailable" ∉ endings c := by
  cases c with
  | setValue scope | getValue scope | deleteKey scope | deleteNamespace scope =>
    cases scope <;> simp [endings]
  | _ => simp [endings]

theorem call_available (c : Call) (reason : String) :
    ((backend client noticeScope).call c state).1.result ≠ .error (.unavailable reason) := by
  intro h
  have hending := (call_outcome client noticeScope state c).1
  rw [h] at hending
  exact unavailable_not_mem_endings c hending

/-- A stack of layers answers as the store itself does. -/
theorem stack_call (layers : List Layer) (c : Call) :
    let made := (Layer.stack layers (backend client noticeScope)).call c state
    let plain := (backend client noticeScope).call c state
    made.1.result = plain.1.result ∧ made.1.notices = plain.1.notices ∧ made.2 = plain.2 := by
  intro made plain
  by_cases hflush : c = .flushCache
  · subst hflush
    obtain ⟨hresult, hstate⟩ := Layer.flush_stack layers (backend client noticeScope) state
    refine ⟨hresult.trans ?_, Layer.flush_stack_notices layers _ state, hstate⟩
    unfold Layer.flushed
    split
    · rfl
    · split <;> rfl
  · unfold made
    rw [(Layer.stack_like layers (backend client noticeScope)).call c hflush]
    by_cases hr : .reconnect ∈ layers
    · rw [Layer.stack_normal_of_mem hr]
      have hcall := Reconnect.call_of_available (call_available client noticeScope state c)
      cases c with
      | openStore => exact ⟨rfl, rfl, rfl⟩
      | flushCache => exact absurd rfl hflush
      | _ =>
        rw [Backend.reconnecting_call rfl, hcall]
        exact ⟨rfl, rfl, rfl⟩
    · rw [Layer.normal, if_neg hr]
      exact ⟨rfl, rfl, rfl⟩

/-- A read through any layers hands out of its reply what the store does. -/
theorem stack_read (layers : List Layer) (ns name : String) :
    ((Layer.stack layers (backend client noticeScope)).call (.getValue .account ns name)
        state).1.result =
      ((client.perform (.getValue ⟨key ns name⟩) state.client).1.result.mapError
        RpcStatus.toStoreError).bind (answered state.clock.unixSeconds) :=
  (stack_call client noticeScope state layers (.getValue .account ns name)).1.trans
    (getValue_outcome client state ns name).1

end Calls

end Remote

end ScopedStore.Account

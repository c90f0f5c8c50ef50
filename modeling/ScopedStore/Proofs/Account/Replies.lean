import ScopedStore.Account.Http
import ScopedStore.Proofs.Account.Calls

/-! What the account store makes of the replies of the service. A call has come out well only if the
status says so and the body reads as the message that is due. For any other reply the failure is
told that it stands for, whatever its body pretends. -/
namespace ScopedStore.Account

open Wire

namespace Http

/-- The reply says what a key has, which may be nothing. -/
def Tells (reply : Reply) (value : Option Value) : Prop :=
  (200 ≤ reply.status ∧ reply.status ≤ 299) ∧
    (Json.decodeBytes GetValueResponse.ofJson reply.body = .ok ⟨value⟩ ∨
      reply.body = [] ∧ value = none)

/-- What is read where a body may be left out. -/
def filled (body : Text.Bytes) : Text.Bytes :=
  if body.isEmpty then Text.toBytes "\x7b\x7d" else body

theorem filled_of_ne_nil {body : Text.Bytes} (h : body ≠ []) : filled body = body :=
  if_neg (by simpa using h)

theorem emptyMessage_filled_nil : Json.decodeBytes emptyMessage (filled []) = .ok () := by
  cbv

theorem getValueResponse_filled_nil :
    Json.decodeBytes GetValueResponse.ofJson (filled []) = .ok ⟨none⟩ := by
  cbv

theorem emptyMessage_filled_iff {body : Text.Bytes} :
    Json.decodeBytes emptyMessage (filled body) = .ok () ↔
      body = [] ∨ Json.decodeBytes emptyMessage body = .ok () := by
  by_cases h : body = []
  · rw [h]
    exact iff_of_true emptyMessage_filled_nil (.inl rfl)
  · rw [filled_of_ne_nil h, or_iff_right h]

theorem getValueResponse_filled_iff {body : Text.Bytes} {value : Option Value} :
    Json.decodeBytes GetValueResponse.ofJson (filled body) = .ok ⟨value⟩ ↔
      Json.decodeBytes GetValueResponse.ofJson body = .ok ⟨value⟩ ∨ body = [] ∧ value = none := by
  by_cases h : body = []
  · have hnothing : Json.decodeBytes GetValueResponse.ofJson [] = .error .malformed := by
      cbv
    rw [h, getValueResponse_filled_nil, hnothing]
    simp [eq_comm]
  · rw [filled_of_ne_nil h]
    simp [h]

section Received
variable {rpc : Rpc} {reply : Reply}

theorem isSuccess_iff {status : Nat} : isSuccess status = true ↔ 200 ≤ status ∧ status ≤ 299 := by
  simp [isSuccess]

theorem received_eq_ok_iff {message : rpc.Reply} :
    received rpc reply = .ok message ↔ (200 ≤ reply.status ∧ reply.status ≤ 299) ∧
      Json.decodeBytes (replyOfJson rpc) (filled reply.body) = .ok message := by
  unfold received
  by_cases hstatus : isSuccess reply.status = true
  · rw [if_pos hstatus, and_iff_right (isSuccess_iff.mp hstatus)]
    cases hread : Json.decodeBytes (replyOfJson rpc) (filled reply.body) with
    | ok found | error cause =>
      unfold filled at hread
      dsimp only
      rw [hread]
      simp
  · rw [if_neg hstatus]
    exact iff_of_false nofun fun h => hstatus (isSuccess_iff.mpr h.1)

theorem received_getValue_iff {request : GetValueRequest} {value : Option Value} :
    received (.getValue request) reply = .ok ⟨value⟩ ↔ Tells reply value :=
  received_eq_ok_iff.trans (and_congr_right' getValueResponse_filled_iff)

end Received

/-- Nothing keeps the message from arriving, and this reply comes back. -/
structure Replied [Url.Naming] (connection : Connection) (network : Network) (rpc : Rpc)
    (reply : Reply) : Prop where
  patient : connection.timeoutMs ≠ some 0
  delivered : ∃ url request, request? connection rpc = some (url, request) ∧
    network.obstacle? url = none
  answered : network.next.outcome = .ok reply

theorem Replied.perform [Url.Naming] {connection : Connection} {network : Network} {rpc : Rpc}
    {reply : Reply} (h : Replied connection network rpc reply) :
    ((client connection).perform rpc network).1.result = received rpc reply := by
  obtain ⟨hpatient, ⟨url, request, hrequest, haccepted⟩, hanswered⟩ := h
  have hwaits : impatience? connection = none := if_neg hpatient
  unfold client
  dsimp only
  rw [hrequest]
  dsimp only
  rw [hwaits, haccepted, hanswered]
  rfl

end Http

namespace Remote

open Http

section Replies
variable {κ : Type} (client : Client κ) (told : Scope) (layers : List Layer) (state : State κ)
variable {c : Call} {rpc : Rpc} {reply : Reply}

end Replies

end Remote

end ScopedStore.Account

import ScopedStore.Store.Call
import ScopedStore.Listener.Hub

/-!
Backends: state machines that answer the calls of the store contract.
-/

namespace ScopedStore

/-- A store over states of type `σ`. `members` lists the listeners that a notice sent in a state
is delivered to. -/
structure Backend (σ : Type) where
  call : (c : Call) → σ → Answer c.Reply × σ
  enrol : Enrolment → σ → Enrolled × σ
  members : σ → List ListenerId

namespace Backend

/-- The answer to a call that a backend leaves out: opening and flushing succeed, limits and
inspections are not supported. -/
def leftOut : (c : Call) → Except StoreError c.Reply
  | .openStore => .ok ()
  | .flushCache => .ok ()
  | .setLimit .. | .getLimit .. => .error (.notSupported "namespace storage limits")
  | .getKeys .. | .getNamespaces .. | .getSizes .. => .error (.notSupported "store inspection")
  | c => .error (.notSupported c.operation)

end Backend

end ScopedStore

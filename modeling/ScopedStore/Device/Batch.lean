import ScopedStore.Device.Handle

/-!
Batches: several statements run in one transaction, each with its own outcome.
-/

namespace ScopedStore.Device

/-- A batch stops at the first failing statement unless told to keep going; with a reason to abort
it fails in the end, whatever its statements did. -/
structure Batch where
  statements : List Statement
  keepGoing : Bool := false
  abort : Option String := none

namespace Batch

abbrev Outcome := Except Error Statement.Found

/-- Runs a statement whose failure does not end the transaction; it changes nothing then. -/
def attempt {ε : Type} (statement : Statement) : Tx ε Outcome :=
  fun standing image =>
    match statement.run standing image with
    | .ok (found, image) => .ok (.ok found, image)
    | .error cause => .ok (.error cause, image)

/-- Runs the statements in order; a failure carries the outcomes up to it. -/
def outcomes (keepGoing : Bool) :
    List Statement → List Outcome → Tx (Error × List Outcome) (List Outcome)
  | [], done => pure done
  | statement :: rest, done => do
    let outcome ← attempt statement
    let done := done ++ [outcome]
    match outcome with
    | .error cause => if keepGoing then outcomes keepGoing rest done else throw (cause, done)
    | .ok _ => outcomes keepGoing rest done

def body (batch : Batch) : Tx (Error × List Outcome) (List Outcome) := do
  let done ← outcomes batch.keepGoing batch.statements []
  match batch.abort with
  | some reason => throw (.invalid reason, done)
  | none => pure done

/-- Runs a batch in one transaction. The outcomes are told even where the transaction is undone.
Without a statement nobody looks for the tables. -/
def run (writing : Bool) (scope : Scope) (batch : Batch) (site : Site) :
    (Except Error Unit × List Outcome) × Site :=
  let (result, after) := Handle.transact writing (fun cause => (cause, [])) scope batch.body site
  let after := if batch.statements.isEmpty then { after with sawTables := site.sawTables } else after
  match result with
  | .ok done => ((.ok (), done), after)
  | .error (cause, done) => ((.error cause, done), after)

end Batch

end ScopedStore.Device

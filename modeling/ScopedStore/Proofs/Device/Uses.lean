import ScopedStore.Device.Batch
import ScopedStore.Proofs.Device.Answers

/-! What is asked of a handle: openings, closings and transactions, each of these a plan that
chooses its statements by the outcomes so far. On the file at the path a plan is determined by the
rows of the file. -/
namespace ScopedStore.Device

/-- The rows of a file; one without tables has none. -/
def Image.rows : Image → Tables
  | database content => content.tables.getD {}
  | foreign => {}

/-- What runs in a transaction: one statement after another, each chosen by the outcomes so far. A
statement that fails does not end the transaction. -/
inductive Plan (ε α : Type) where
  | finish (result : Except ε α)
  | ask (statement : Statement) (next : Batch.Outcome → Plan ε α)

namespace Plan

variable {ε α : Type}

def body : Plan ε α → Tx ε α
  | finish (.ok a) => pure a
  | finish (.error cause) => throw cause
  | ask statement next => do
    let outcome ← Batch.attempt statement
    (next outcome).body

/-- What the plan makes of the rows of a database of the current version. -/
def on (plan : Plan ε α) (t : Tables) : Except ε (α × Tables) :=
  (plan.body ⟨false, true⟩ (.ready (some 1) t)).map fun found => (found.1, found.2.rows)

end Plan

/-- On the file at the path, what a transaction does is determined by the tables: neither the
recorded version nor what the connection knows of the tables makes a difference. -/
def Tx.Tabular {ε α : Type} (tx : Tx ε α) : Prop :=
  ∀ t, ∃ outcome : Except ε (α × Tables), ∀ saw version,
    tx ⟨false, saw⟩ (.ready version t) =
      outcome.map fun found => (found.1, .ready version found.2)

namespace Tx.Tabular

variable {ε α β : Type}

theorem pure (a : α) : Tabular (Pure.pure a : Tx ε α) :=
  fun t => ⟨.ok (a, t), fun _ _ => rfl⟩

theorem throw (cause : ε) : Tabular (MonadExcept.throw cause : Tx ε α) :=
  fun _ => ⟨.error cause, fun _ _ => rfl⟩

theorem bind {tx : Tx ε α} {next : α → Tx ε β} (ht : Tabular tx)
    (hn : ∀ a, Tabular (next a)) : Tabular (tx >>= next) := by
  intro t
  obtain ⟨first, hfirst⟩ := ht t
  cases first with
  | error cause =>
    refine ⟨.error cause, fun saw version => ?_⟩
    change (tx ⟨false, saw⟩ (.ready version t) >>= _) = _
    rw [hfirst]
    rfl
  | ok found =>
    obtain ⟨second, hsecond⟩ := hn found.1 found.2
    refine ⟨second, fun saw version => ?_⟩
    rw [Tx.bind_of_ok (hfirst saw version)]
    exact hsecond saw version

theorem query (first : String) (read : Tables → Except Error α) :
    Tabular (Tx.query first read) := by
  intro t
  refine ⟨(read t).map fun a => (a, t), fun saw version => ?_⟩
  unfold Tx.query
  rw [Tx.bind_of_ok (Tx.tables_ready first)]
  cases read t <;> rfl

theorem update (first : String) (change : Tables → Except Error (α × Tables))
    (rewrites : Bool) : Tabular (Tx.update first change rewrites) := by
  intro t
  refine ⟨change t, fun saw version => ?_⟩
  unfold Tx.update
  rw [Tx.bind_of_ok (Tx.tables_ready first)]
  cases change t with
  | error cause => rfl
  | ok found =>
    dsimp only
    rw [Tx.bind_of_ok Tx.store_ready]
    rfl

theorem statement (statement : Statement) : Tabular statement.run := by
  cases statement with
  | «namespace» | entry | namespaceUsage | globalUsage | keys | namespaces | namespaceSizes =>
    exact (query _ _).bind fun _ => .pure _
  | createNamespace | setNamespaceLimit | deleteNamespace | putEntry | deleteEntry
  | deleteExpiredEntry | purgeExpired =>
    exact (update _ _ _).bind fun _ => .pure _

theorem attempt (statement : Statement) :
    Tabular (Batch.attempt statement : Tx ε Batch.Outcome) := by
  intro t
  obtain ⟨outcome, houtcome⟩ := Tabular.statement statement t
  cases outcome with
  | error cause =>
    refine ⟨.ok (.error cause, t), fun saw version => ?_⟩
    unfold Batch.attempt
    rw [houtcome]
    rfl
  | ok found =>
    refine ⟨.ok (.ok found.1, found.2), fun saw version => ?_⟩
    unfold Batch.attempt
    rw [houtcome]
    rfl

theorem plan (plan : Plan ε α) : Tabular plan.body := by
  induction plan with
  | finish result =>
    cases result with
    | ok a => exact .pure a
    | error cause => exact .throw cause
  | ask statement next ih => exact (attempt statement).bind ih

end Tx.Tabular

/-- A plan does to the rows of any file at the path what it does to those of a database of the
current version. -/
theorem Plan.body_eq {ε α : Type} (plan : Plan ε α) (saw : Bool) (version : Option Int)
    (t : Tables) :
    plan.body ⟨false, saw⟩ (.ready version t) =
      (plan.on t).map fun found => (found.1, .ready version found.2) := by
  obtain ⟨outcome, houtcome⟩ := Tx.Tabular.plan plan t
  unfold on
  rw [houtcome, houtcome]
  cases outcome <;> rfl

/-- One use of a handle. -/
inductive Use where
  | «open»
  | close
  | isOpen
  | transact {ε α : Type} (writing : Bool) (refuse : Error → ε) (scope : Scope) (plan : Plan ε α)

namespace Use

def Outcome : Use → Type
  | «open» => Except Error Unit
  | close => Unit
  | isOpen => Bool
  | @transact ε α .. => Except ε α

def run (config : Config) : (use : Use) → Site → use.Outcome × Site
  | «open», site =>
    let (result, _, site) := Handle.open config site
    (result, site)
  | close, site => ((), (Handle.close config site).2)
  | isOpen, site => (site.isOpen, site)
  | transact writing refuse scope plan, site =>
    Handle.transact writing refuse scope plan.body site

/-- The outcomes of one use after another, and the site in the end. -/
def runAll (config : Config) : List Use → Site → List (Σ use : Use, use.Outcome) × Site
  | [], site => ([], site)
  | use :: rest, site =>
    let (outcome, site) := use.run config site
    let (later, last) := runAll config rest site
    (⟨use, outcome⟩ :: later, last)

end Use

end ScopedStore.Device

import ScopedStore.Store.Backend

/-!
Sessions: a backend with the listeners that its notices reach. A listener may act on a change it
is told of, through the outermost store or the registry, and what it does may send notices again.
-/

namespace ScopedStore

/-- What a listener does with a change that it is told of. -/
inductive Reaction where
  | ignore
  | readBack
  | write (trigger key value : String)
  | register (target : ListenerId)
  | unregister (target : ListenerId)
  deriving DecidableEq

structure Listener where
  reaction : Reaction := .ignore
  hearsExceeded : Bool := true
  deriving DecidableEq

/-- The outcome of a reaction. -/
inductive Act where
  | read (result : Except StoreError StoredValue)
  | wrote (result : Except StoreError Unit)
  | enrolled (result : Except ListenerError Unit)

inductive Event where
  | notified (listener : ListenerId) (notice : Notice)
  | acted (listener : ListenerId) (act : Act)

/-- The listeners known by name, whether registered or not, the store's state, and what was
observed so far. -/
structure Session (σ : Type) where
  store : σ
  listeners : List (ListenerId × Listener) := []
  events : List Event := []
  log : List Log.Record := []

namespace Session

variable {σ : Type}

/-- The listener of a name; a name never mentioned stands for one that only listens. -/
def listener (session : Session σ) (id : ListenerId) : Listener :=
  (session.listeners.lookup id).getD {}

/-- Makes a listener at the first mention of its name. -/
def define (session : Session σ) (id : ListenerId) (listener : Listener) : Session σ :=
  if (session.listeners.lookup id).isSome then session
  else { session with listeners := session.listeners ++ [(id, listener)] }

def record (session : Session σ) (event : Event) : Session σ :=
  { session with events := session.events ++ [event] }

/-- A listener hears of every change, and of exceeded budgets if it cares. -/
def hears (session : Session σ) (id : ListenerId) : Notice → Bool
  | .valueChanged .. => true
  | .storageExceeded .. => (session.listener id).hearsExceeded

/-- Notes that a listener was told of a notice, unless it does not hear of such. -/
def hear (id : ListenerId) (notice : Notice) (session : Session σ) : Session σ :=
  if session.hears id notice then session.record (.notified id notice) else session

def enrol (outer : Backend σ) (request : Enrolment) (session : Session σ) :
    Except ListenerError Unit × Session σ :=
  let (enrolled, store) := outer.enrol request session.store
  (enrolled.result, { session with store := store, log := session.log ++ enrolled.log })

/-- Makes a call without delivering its notices. -/
def perform (outer : Backend σ) (c : Call) (session : Session σ) :
    Answer c.Reply × Session σ :=
  let (answer, store) := outer.call c session.store
  (answer, { session with store := store, log := session.log ++ answer.log })

/-- Delivers a notice to the listeners registered when its dispatch begins. -/
def dispatch (outer : Backend σ) (tell : ListenerId → Notice → Session σ → Session σ)
    (notice : Notice) (session : Session σ) : Session σ :=
  (outer.members session.store).foldl (fun session id => tell id notice session) session

/-- Calls the outermost store and delivers the notices of the call. -/
def callWith (outer : Backend σ) (tell : ListenerId → Notice → Session σ → Session σ) (c : Call)
    (session : Session σ) : Except StoreError c.Reply × Session σ :=
  let (answer, session) := session.perform outer c
  (answer.result,
    answer.notices.foldl (fun session notice => session.dispatch outer tell notice) session)

/-- Lets a listener react to a change, its own calls nested one level deeper. -/
def react (outer : Backend σ) (tell : ListenerId → Notice → Session σ → Session σ)
    (id : ListenerId) (scope : Scope) (ns key : String) (session : Session σ) : Session σ :=
  match (session.listener id).reaction with
  | .ignore => session
  | .readBack =>
    let (result, session) := session.callWith outer tell (.getValue scope ns key)
    session.record (.acted id (.read result))
  | .write trigger target value =>
    if key = trigger then
      let (result, session) := session.callWith outer tell (.setValue scope ns target value 0)
      session.record (.acted id (.wrote result))
    else session
  | .register target =>
    let (result, session) := (session.define target {}).enrol outer (.register target)
    session.record (.acted id (.enrolled result))
  | .unregister target =>
    let (result, session) := (session.define target {}).enrol outer (.unregister target)
    session.record (.acted id (.enrolled result))

/-- Tells a listener of a notice. Reactions nest at most `depth` deep. -/
def tell (outer : Backend σ) : Nat → ListenerId → Notice → Session σ → Session σ
  | 0, id, notice, session => session.hear id notice
  | depth + 1, id, notice, session =>
    match notice with
    | .valueChanged scope ns key _ =>
      (session.hear id notice).react outer (tell outer depth) id scope ns key
    | .storageExceeded .. => session.hear id notice

/-- Reactions nest no deeper than this; a listener that answers its own changes without end is told
of the last one and does nothing more. -/
def nestingLimit : Nat := 4096

/-- Calls the outermost store and delivers its notices, reactions included. -/
def call (outer : Backend σ) (c : Call) (session : Session σ) :
    Except StoreError c.Reply × Session σ :=
  session.callWith outer (tell outer nestingLimit) c

/-- Sends a notice as a backend would. -/
def broadcast (outer : Backend σ) (notice : Notice) (session : Session σ) : Session σ :=
  session.dispatch outer (tell outer nestingLimit) notice

end Session

end ScopedStore

import ScopedStore.Listener.Session

/-! What happens while listeners act on what they are told. A callback may enrol listeners, call the
store and send notices of its own, and each of these may lead to further callbacks. A run is told by
the tree of all that happened in it. -/
namespace ScopedStore

/-- What happened, one thing after another, each with the state in which it began. Inside a call
stand the broadcasts that it led to, inside a broadcast its callbacks, and inside a callback what
the listener did. -/
inductive Trail (σ : Type) where
  | stop (s : σ)
  | enrolled (s : σ) (request : Enrolment) (result : Except ListenerError Unit) (rest : Trail σ)
  | called (s : σ) (c : Call) (result : Except StoreError c.Reply) (sent rest : Trail σ)
  | broadcast (s : σ) (notice : Notice) (callbacks rest : Trail σ)
  | told (s : σ) (listener : ListenerId) (notice : Notice) (inside rest : Trail σ)

namespace Trail

variable {σ : Type}

/-- Where a trail begins. -/
def state : Trail σ → σ
  | stop s | enrolled s .. | called s .. | broadcast s .. | told s .. => s

/-- Who is told of what in a broadcast, leaving out what they do. -/
def recipients : Trail σ → List (ListenerId × Notice)
  | told _ listener notice _ rest => (listener, notice) :: rest.recipients
  | stop _ | enrolled .. | called .. | broadcast .. => []

/-- Who is told of what, at any depth, in the order in which it happens. -/
def tellings : Trail σ → List (ListenerId × Notice)
  | stop _ => []
  | enrolled _ _ _ rest => rest.tellings
  | called _ _ _ inside rest | broadcast _ _ inside rest => inside.tellings ++ rest.tellings
  | told _ listener notice inside rest =>
    (listener, notice) :: (inside.tellings ++ rest.tellings)

/-- A part of a trail, at any depth. -/
inductive Within (part : Trail σ) : Trail σ → Prop where
  | whole : Within part part
  | afterEnrolled {s request result rest} (h : Within part rest) :
    Within part (enrolled s request result rest)
  | inCall {s c result sent rest} (h : Within part sent) : Within part (called s c result sent rest)
  | afterCall {s c result sent rest} (h : Within part rest) :
    Within part (called s c result sent rest)
  | inBroadcast {s notice callbacks rest} (h : Within part callbacks) :
    Within part (broadcast s notice callbacks rest)
  | afterBroadcast {s notice callbacks rest} (h : Within part rest) :
    Within part (broadcast s notice callbacks rest)
  | inCallback {s listener notice inside rest} (h : Within part inside) :
    Within part (told s listener notice inside rest)
  | afterCallback {s listener notice inside rest} (h : Within part rest) :
    Within part (told s listener notice inside rest)

end Trail

/-- What is going on: somebody acts on the store, a call sends its notices, or a broadcast tells its
notice to the listeners that are left. -/
inductive Phase where
  | acting
  | sending (notices : List Notice)
  | telling (notice : Notice) (listeners : List ListenerId)

/-- The runs from one state to another. Whoever acts chooses freely what to do next, and between two
acts the state may drift. -/
inductive Runs {σ : Type} (outer : Backend σ) (drift : σ → σ → Prop) :
    Phase → σ → Trail σ → σ → Prop where
  | stop (s : σ) : Runs outer drift .acting s (.stop s) s
  | drifted {s s' last : σ} {rest : Trail σ} (h : drift s s')
      (later : Runs outer drift .acting s' rest last) : Runs outer drift .acting s rest last
  | enrolled {s last : σ} {rest : Trail σ} (request : Enrolment)
      (later : Runs outer drift .acting (outer.enrol request s).2 rest last) :
    Runs outer drift .acting s (.enrolled s request (outer.enrol request s).1.result rest) last
  | called {s middle last : σ} {sent rest : Trail σ} (c : Call)
      (inside : Runs outer drift (.sending (outer.call c s).1.notices) (outer.call c s).2 sent
        middle)
      (later : Runs outer drift .acting middle rest last) :
    Runs outer drift .acting s (.called s c (outer.call c s).1.result sent rest) last
  | announced {s middle last : σ} {callbacks rest : Trail σ} (notice : Notice)
      (inside : Runs outer drift (.telling notice (outer.members s)) s callbacks middle)
      (later : Runs outer drift .acting middle rest last) :
    Runs outer drift .acting s (.broadcast s notice callbacks rest) last
  | silent (s : σ) : Runs outer drift (.sending []) s (.stop s) s
  | sent {s middle last : σ} {callbacks rest : Trail σ} {notice : Notice} {notices : List Notice}
      (inside : Runs outer drift (.telling notice (outer.members s)) s callbacks middle)
      (later : Runs outer drift (.sending notices) middle rest last) :
    Runs outer drift (.sending (notice :: notices)) s (.broadcast s notice callbacks rest) last
  | heard (notice : Notice) (s : σ) : Runs outer drift (.telling notice []) s (.stop s) s
  | told {s middle last : σ} {inside rest : Trail σ} {id : ListenerId} {notice : Notice}
      {listeners : List ListenerId} (inner : Runs outer drift .acting s inside middle)
      (later : Runs outer drift (.telling notice listeners) middle rest last) :
    Runs outer drift (.telling notice (id :: listeners)) s (.told s id notice inside rest) last

section Runs
variable {σ : Type} {outer : Backend σ} {drift : σ → σ → Prop} {phase : Phase}
  {s s₁ s' middle last : σ} {trail sent rest : Trail σ}

/-- A broadcast tells those who are left, each once and in their order. -/
theorem Runs.recipients_eq {notice : Notice} {listeners : List ListenerId}
    (run : Runs outer drift (.telling notice listeners) s trail last) :
    trail.recipients = listeners.map fun id => (id, notice) := by
  generalize hphase : Phase.telling notice listeners = phase at run
  induction run generalizing listeners with
  | heard =>
    cases hphase
    rfl
  | told inner later ihinner ihlater =>
    cases hphase
    exact congrArg _ (ihlater rfl)
  | stop | drifted | enrolled | called | announced | silent | sent => cases hphase

/-- A call, at whatever depth, is answered by the backend, and then its notices are sent. -/
theorem Runs.called_within {c : Call} {result : Except StoreError c.Reply}
    (run : Runs outer drift phase s trail last)
    (hwithin : (Trail.called s₁ c result sent rest).Within trail) :
    result = (outer.call c s₁).1.result ∧
      ∃ middle, Runs outer drift (.sending (outer.call c s₁).1.notices) (outer.call c s₁).2 sent
        middle := by
  induction run with
  | stop | silent | heard => cases hwithin
  | drifted h later ih => exact ih hwithin
  | enrolled request later ih =>
    cases hwithin with
    | afterEnrolled h => exact ih h
  | called c inside later ihinside ihlater =>
    cases hwithin with
    | whole => exact ⟨rfl, _, inside⟩
    | inCall h => exact ihinside h
    | afterCall h => exact ihlater h
  | announced notice inside later ihinside ihlater | sent inside later ihinside ihlater =>
    cases hwithin with
    | inBroadcast h => exact ihinside h
    | afterBroadcast h => exact ihlater h
  | told inner later ihinner ihlater =>
    cases hwithin with
    | inCallback h => exact ihinner h
    | afterCallback h => exact ihlater h

/-- One notice is sent as one broadcast, begun at once. -/
theorem Runs.sent_single {notice : Notice}
    (run : Runs outer drift (.sending [notice]) s trail last) :
    ∃ callbacks, trail = .broadcast s notice callbacks (.stop last) := by
  cases run with
  | sent inside later =>
    cases later with
    | silent => exact ⟨_, rfl⟩

/-- Only the notices of a call are sent by it. -/
theorem Runs.mem_of_sent {notices : List Notice} {notice : Notice} {callbacks more : Trail σ}
    (run : Runs outer drift (.sending notices) s (.broadcast s₁ notice callbacks more) last) :
    notice ∈ notices := by
  cases run with
  | sent inside later => exact List.mem_cons_self

end Runs

end ScopedStore

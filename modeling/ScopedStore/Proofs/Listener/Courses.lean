import ScopedStore.Proofs.Listener.Recording
import ScopedStore.Proofs.Listener.Trails

/-! What a session goes through while listeners act on what they are told. Whoever acts follows a
course, and what happens is a run of the store in which everybody who is told of a notice is noted
down at that moment. -/
namespace ScopedStore

/-- What somebody does, one act after another, each chosen by the results so far. -/
inductive Course where
  | done
  | enrol (request : Enrolment) (next : Except ListenerError Unit → Course)
  | call (c : Call) (next : Except StoreError c.Reply → Course)
  | broadcast (notice : Notice) (next : Course)

/-- A course goes along a trail that shows its acts with their results, whatever the acts led to. -/
inductive Course.Along {σ : Type} : Course → Trail σ → Prop where
  | done (s : σ) : Along .done (.stop s)
  | enrol {s : σ} {request : Enrolment} {result : Except ListenerError Unit}
      {next : Except ListenerError Unit → Course} {rest : Trail σ}
      (later : Along (next result) rest) :
    Along (.enrol request next) (.enrolled s request result rest)
  | call {s : σ} {c : Call} {result : Except StoreError c.Reply}
      {next : Except StoreError c.Reply → Course} {sent rest : Trail σ}
      (later : Along (next result) rest) : Along (.call c next) (.called s c result sent rest)
  | broadcast {s : σ} {notice : Notice} {next : Course} {callbacks rest : Trail σ}
      (later : Along next rest) :
    Along (.broadcast notice next) (.broadcast s notice callbacks rest)

/-- The listener and the notice of an event that tells of one. -/
def Event.telling? : Event → Option (ListenerId × Notice)
  | .notified id notice => some (id, notice)
  | .acted .. => none

namespace Session

variable {σ : Type} {outer : Backend σ} {drift : σ → σ → Prop} {phase : Phase}
  {tell : ListenerId → Notice → Session σ → Session σ} {session middle after : Session σ}
  {trail inside callbacks rest : Trail σ}

/-- Does what the course says. -/
def follow (outer : Backend σ) (tell : ListenerId → Notice → Session σ → Session σ) :
    Course → Session σ → Session σ
  | .done, session => session
  | .enrol request next, session =>
    let (result, session) := session.enrol outer request
    session.follow outer tell (next result)
  | .call c next, session =>
    let (result, session) := session.callWith outer tell c
    session.follow outer tell (next result)
  | .broadcast notice next, session => (session.dispatch outer tell notice).follow outer tell next

/-- Tells a listener who then follows a course of its own, chosen by all that was observed so far.
Courses nest at most `depth` deep. -/
def tellBy (outer : Backend σ) (courses : ListenerId → Notice → Session σ → Course) :
    Nat → ListenerId → Notice → Session σ → Session σ
  | 0, id, notice, session => session.hear id notice
  | depth + 1, id, notice, session =>
    let heard := session.hear id notice
    heard.follow outer (tellBy outer courses depth) (courses id notice heard)

/-- From one session to another these listeners are told of a notice, one after another, and nobody
else. -/
inductive Tells (tell : ListenerId → Notice → Session σ → Session σ) (notice : Notice) :
    List ListenerId → Session σ → Session σ → Prop where
  | nobody (session : Session σ) : Tells tell notice [] session session
  | next {id : ListenerId} {listeners : List ListenerId} {session after : Session σ}
      (later : Tells tell notice listeners (tell id notice session) after) :
    Tells tell notice (id :: listeners) session after

theorem dispatch_tells (outer : Backend σ) (tell : ListenerId → Notice → Session σ → Session σ)
    (notice : Notice) (session : Session σ) :
    Tells tell notice (outer.members session.store) session
      (session.dispatch outer tell notice) := by
  unfold dispatch
  generalize outer.members session.store = listeners
  induction listeners generalizing session with
  | nil => exact .nobody session
  | cons id rest ih => exact .next (ih (tell id notice session))

/-- Who was told of what so far, in order. -/
def told (session : Session σ) : List (ListenerId × Notice) :=
  session.events.filterMap Event.telling?

/-- Those of the tellings that listeners hear of. -/
def audible (session : Session σ) (tellings : List (ListenerId × Notice)) :
    List (ListenerId × Notice) :=
  tellings.filter fun telling => session.hears telling.1 telling.2

/-- What the session knows of its listeners stays, and of these tellings it notes what is heard. -/
structure Notes (session : Session σ) (tellings : List (ListenerId × Notice))
    (after : Session σ) : Prop where
  listener : after.listener = session.listener
  told : after.told = session.told ++ session.audible tellings

theorem audible_of_listener (h : after.listener = session.listener) :
    after.audible = session.audible := by
  have hears : after.hears = session.hears := by
    funext id notice
    unfold hears
    rw [h]
  unfold audible
  rw [hears]

namespace Notes

variable {first second : List (ListenerId × Notice)}

theorem nothing (hlistener : after.listener = session.listener)
    (htold : after.told = session.told) : session.Notes [] after :=
  ⟨hlistener, by rw [htold, audible, List.filter_nil, List.append_nil]⟩

theorem trans (hfirst : session.Notes first middle) (hsecond : middle.Notes second after) :
    session.Notes (first ++ second) after := by
  refine ⟨hsecond.listener.trans hfirst.listener, ?_⟩
  rw [hsecond.told, hfirst.told, audible_of_listener hfirst.listener, List.append_assoc]
  unfold audible
  rw [List.filter_append]

end Notes

theorem store_hear (id : ListenerId) (notice : Notice) (session : Session σ) :
    (session.hear id notice).store = session.store := by
  unfold hear
  split <;> rfl

theorem notes_hear (id : ListenerId) (notice : Notice) (session : Session σ) :
    session.Notes [(id, notice)] (session.hear id notice) := by
  unfold hear
  split
  next h => exact ⟨rfl, by simp [told, record, audible, h, Event.telling?]⟩
  next h => exact ⟨rfl, by simp [audible, h]⟩

theorem notes_acted (id : ListenerId) (act : Act) (session : Session σ) :
    session.Notes [] (session.record (.acted id act)) :=
  .nothing rfl (by simp [told, record, Event.telling?])

theorem notes_enrol (request : Enrolment) (session : Session σ) :
    session.Notes [] (session.enrol outer request).2 :=
  .nothing rfl rfl

theorem notes_perform (c : Call) (session : Session σ) :
    session.Notes [] (session.perform outer c).2 :=
  .nothing rfl rfl

theorem store_define (session : Session σ) (id : ListenerId) :
    (session.define id {}).store = session.store := by
  unfold define
  split <;> rfl

theorem notes_define (id : ListenerId) (session : Session σ) :
    session.Notes [] (session.define id {}) := by
  unfold define
  split
  · exact .nothing rfl rfl
  · refine .nothing ?_ rfl
    funext other
    unfold listener
    dsimp only
    rw [List.lookup_append, List.lookup_cons]
    cases session.listeners.lookup other with
    | some known => rfl
    | none => split <;> rfl

/-- What a session goes through in a phase, as a trail tells it. -/
structure Goes (outer : Backend σ) (drift : σ → σ → Prop) (phase : Phase) (session : Session σ)
    (trail : Trail σ) (after : Session σ) : Prop where
  run : Runs outer drift phase session.store trail after.store
  notes : session.Notes trail.tellings after

/-- Once a listener has heard of a notice, whatever it does is done through the store and its
registry, and those who are told meanwhile are noted down. -/
def Acts (outer : Backend σ) (drift : σ → σ → Prop)
    (tell : ListenerId → Notice → Session σ → Session σ) : Prop :=
  ∀ id notice session, ∃ inside,
    Goes outer drift .acting (session.hear id notice) inside (tell id notice session)

namespace Goes

theorem stop (session : Session σ) :
    Goes outer drift .acting session (.stop session.store) session :=
  ⟨.stop _, .nothing rfl rfl⟩

/-- What follows something that changes neither the store nor what is noted. -/
theorem after_silent (hstore : middle.store = session.store) (hnotes : session.Notes [] middle)
    (later : Goes outer drift phase middle trail after) :
    Goes outer drift phase session trail after :=
  ⟨hstore ▸ later.run, hnotes.trans later.notes⟩

theorem acted (id : ListenerId) (act : Act) (h : Goes outer drift phase session trail after) :
    Goes outer drift phase session trail (after.record (.acted id act)) := by
  refine ⟨h.run, ?_⟩
  have hnotes := h.notes.trans (notes_acted id act after)
  rw [List.append_nil] at hnotes
  exact hnotes

theorem enrolled {request : Enrolment}
    (later : Goes outer drift .acting (session.enrol outer request).2 rest after) :
    Goes outer drift .acting session
      (.enrolled session.store request (session.enrol outer request).1 rest) after :=
  ⟨.enrolled request later.run, (notes_enrol request session).trans later.notes⟩

theorem called {c : Call}
    (sent : Goes outer drift (.sending (outer.call c session.store).1.notices)
      (session.perform outer c).2 inside middle)
    (later : Goes outer drift .acting middle rest after) :
    Goes outer drift .acting session
      (.called session.store c (outer.call c session.store).1.result inside rest) after :=
  ⟨.called c sent.run later.run, (notes_perform c session).trans (sent.notes.trans later.notes)⟩

theorem announced {notice : Notice}
    (telling : Goes outer drift (.telling notice (outer.members session.store)) session callbacks
      middle)
    (later : Goes outer drift .acting middle rest after) :
    Goes outer drift .acting session (.broadcast session.store notice callbacks rest) after :=
  ⟨.announced notice telling.run later.run, telling.notes.trans later.notes⟩

theorem sent {notice : Notice} {notices : List Notice}
    (telling : Goes outer drift (.telling notice (outer.members session.store)) session callbacks
      middle)
    (later : Goes outer drift (.sending notices) middle rest after) :
    Goes outer drift (.sending (notice :: notices)) session
      (.broadcast session.store notice callbacks rest) after :=
  ⟨.sent telling.run later.run, telling.notes.trans later.notes⟩

theorem told {id : ListenerId} {notice : Notice} {listeners : List ListenerId}
    (inner : Goes outer drift .acting (session.hear id notice) inside middle)
    (later : Goes outer drift (.telling notice listeners) middle rest after) :
    Goes outer drift (.telling notice (id :: listeners)) session
      (.told session.store id notice inside rest) after := by
  have hheard := (notes_hear id notice session).trans (inner.notes.trans later.notes)
  refine ⟨.told ?_ later.run, hheard⟩
  rw [← store_hear id notice session]
  exact inner.run

end Goes

namespace Acts

theorem telling (h : Acts outer drift tell) (notice : Notice) (listeners : List ListenerId)
    (session : Session σ) :
    ∃ callbacks, Goes outer drift (.telling notice listeners) session callbacks
      (listeners.foldl (fun session id => tell id notice session) session) := by
  induction listeners generalizing session with
  | nil => exact ⟨_, .heard notice _, .nothing rfl rfl⟩
  | cons id rest ih =>
    obtain ⟨inside, hinside⟩ := h id notice session
    obtain ⟨callbacks, hcallbacks⟩ := ih (tell id notice session)
    exact ⟨_, hinside.told hcallbacks⟩

theorem sending (h : Acts outer drift tell) (notices : List Notice) (session : Session σ) :
    ∃ sent, Goes outer drift (.sending notices) session sent
      (notices.foldl (fun session notice => session.dispatch outer tell notice) session) := by
  induction notices generalizing session with
  | nil => exact ⟨_, .silent _, .nothing rfl rfl⟩
  | cons notice rest ih =>
    obtain ⟨callbacks, hcallbacks⟩ := h.telling notice (outer.members session.store) session
    obtain ⟨sent, hsent⟩ := ih (session.dispatch outer tell notice)
    exact ⟨_, hcallbacks.sent hsent⟩

/-- A call of a session is a call of the store followed by the broadcasts of its notices. -/
theorem calling (h : Acts outer drift tell) (c : Call) (session : Session σ) :
    ∃ sent, ∀ {rest after}, Goes outer drift .acting (session.callWith outer tell c).2 rest after →
      Goes outer drift .acting session
        (.called session.store c (session.callWith outer tell c).1 sent rest) after := by
  obtain ⟨sent, hsent⟩ := h.sending (outer.call c session.store).1.notices
    (session.perform outer c).2
  exact ⟨sent, fun later => hsent.called later⟩

/-- Whoever follows a course goes along a trail that shows it. -/
theorem follow (h : Acts outer drift tell) (course : Course) (session : Session σ) :
    ∃ trail, course.Along trail ∧
      Goes outer drift .acting session trail (session.follow outer tell course) := by
  induction course generalizing session with
  | done => exact ⟨_, .done _, .stop session⟩
  | enrol request next ih =>
    obtain ⟨rest, halong, hgoes⟩ :=
      ih (session.enrol outer request).1 (session.enrol outer request).2
    exact ⟨_, .enrol halong, hgoes.enrolled⟩
  | call c next ih =>
    obtain ⟨sent, hsent⟩ := h.calling c session
    obtain ⟨rest, halong, hgoes⟩ :=
      ih (session.callWith outer tell c).1 (session.callWith outer tell c).2
    exact ⟨_, .call halong, hsent hgoes⟩
  | broadcast notice next ih =>
    obtain ⟨callbacks, hcallbacks⟩ := h.telling notice (outer.members session.store) session
    obtain ⟨rest, halong, hgoes⟩ := ih (session.dispatch outer tell notice)
    exact ⟨_, .broadcast halong, hcallbacks.announced hgoes⟩

theorem react (h : Acts outer drift tell) (id : ListenerId) (scope : Scope) (ns key : String)
    (session : Session σ) :
    ∃ inside, Goes outer drift .acting session inside
      (session.react outer tell id scope ns key) := by
  have henrol (request : Enrolment) (target : ListenerId) (act : Act) :
      ∃ inside, Goes outer drift .acting session inside
        (((session.define target {}).enrol outer request).2.record (.acted id act)) :=
    ⟨_, ((Goes.stop _).acted id act).enrolled.after_silent (store_define session target)
      (notes_define target session)⟩
  unfold Session.react
  cases (session.listener id).reaction with
  | ignore => exact ⟨_, .stop session⟩
  | readBack =>
    obtain ⟨sent, hsent⟩ := h.calling (.getValue scope ns key) session
    exact ⟨_, hsent ((Goes.stop _).acted id _)⟩
  | write trigger target value =>
    dsimp only
    split
    · obtain ⟨sent, hsent⟩ := h.calling (.setValue scope ns target value 0) session
      exact ⟨_, hsent ((Goes.stop _).acted id _)⟩
    · exact ⟨_, .stop session⟩
  | register target => exact henrol (.register target) target _
  | unregister target => exact henrol (.unregister target) target _

end Acts

/-- However deep reactions may nest, they go through the store and its registry. -/
theorem tell_acts (outer : Backend σ) (drift : σ → σ → Prop) (depth : Nat) :
    Acts outer drift (Session.tell outer depth) := by
  induction depth with
  | zero => exact fun id notice session => ⟨_, .stop _⟩
  | succ depth ih =>
    intro id notice session
    unfold Session.tell
    cases notice with
    | valueChanged scope ns key value => exact ih.react id scope ns key _
    | storageExceeded scope ns => exact ⟨_, .stop _⟩

/-- So do all courses that listeners may follow. -/
theorem tellBy_acts (outer : Backend σ) (drift : σ → σ → Prop)
    (courses : ListenerId → Notice → Session σ → Course) (depth : Nat) :
    Acts outer drift (tellBy outer courses depth) := by
  induction depth with
  | zero => exact fun id notice session => ⟨_, .stop _⟩
  | succ depth ih =>
    intro id notice session
    obtain ⟨inside, _, hgoes⟩ :=
      ih.follow (courses id notice (session.hear id notice)) (session.hear id notice)
    exact ⟨inside, hgoes⟩

end Session

end ScopedStore

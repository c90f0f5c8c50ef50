import Mathlib
import ScopedStore.Store.Minimal
import ScopedStore.Proofs.Device.Effects
import ScopedStore.Proofs.Listener.Courses
import ScopedStore.Proofs.Store.Stacks

/-! The listener registry while listeners act on what they are told. At every point of a run,
however deep callbacks are nested, the registry is what the granted requests make it, and each
broadcast reaches those registered when it began. -/
namespace ScopedStore

def Enrolment.listener : Enrolment → ListenerId
  | .register id | .unregister id => id

/-- Of the requests granted so far, the latest one about a listener registered it. -/
def Registered (past : List Enrolment) (id : ListenerId) : Prop :=
  past.reverse.find? (·.listener = id) = some (.register id)

/-- How many requests were granted since the latest registration of a listener. -/
def registrationAge (past : List Enrolment) (id : ListenerId) : Nat :=
  past.reverse.idxOf (.register id)

/-- These are the registered listeners, each once, in the order of their latest registration. -/
structure Lists (past : List Enrolment) (members : List ListenerId) : Prop where
  once : members.Nodup
  registered : ∀ id, id ∈ members ↔ Registered past id
  ordered : members.Pairwise fun first second =>
    registrationAge past second < registrationAge past first

/-- What a request results in: only one that would change nothing is refused. -/
def Answers (members : List ListenerId) : Enrolment → Except ListenerError Unit → Prop
  | .register id, result =>
    (result = .error .alreadyRegistered ↔ id ∈ members) ∧ (result = .ok () ↔ id ∉ members)
  | .unregister id, result =>
    (result = .error .notRegistered ↔ id ∉ members) ∧ (result = .ok () ↔ id ∈ members)

/-- The request, if it was granted. -/
def Enrolment.granted (request : Enrolment) : Except ListenerError Unit → List Enrolment
  | .ok _ => [request]
  | .error _ => []

section History
variable {past : List Enrolment} {members : List ListenerId} {id other : ListenerId}

theorem registered_snoc (request : Enrolment) :
    Registered (past ++ [request]) other ↔
      if request.listener = other then request = .register other else Registered past other := by
  unfold Registered
  rw [List.reverse_append, List.reverse_singleton, List.singleton_append, List.find?_cons]
  by_cases h : request.listener = other <;> simp [h]

theorem registrationAge_snoc (request : Enrolment) :
    registrationAge (past ++ [request]) other =
      if request = .register other then 0 else registrationAge past other + 1 := by
  unfold registrationAge
  rw [List.reverse_append, List.reverse_singleton, List.singleton_append]
  split
  next h => rw [h, List.idxOf_cons_self]
  next h => exact List.idxOf_cons_ne _ h

theorem Lists.register (h : Lists past members) (hid : id ∉ members) :
    Lists (past ++ [.register id]) (members ++ [id]) := by
  refine ⟨?_, fun other => ?_, ?_⟩
  · rw [← List.concat_eq_append]
    exact h.once.concat hid
  · rw [registered_snoc, List.mem_append, List.mem_singleton, h.registered]
    by_cases he : id = other
    · simp [Enrolment.listener, he]
    · simp [Enrolment.listener, he, Ne.symm he]
  · apply List.pairwise_append.mpr
    refine ⟨?_, List.pairwise_singleton _ _, ?_⟩
    · apply h.ordered.imp_of_mem
      intro first second hfirst hsecond hlt
      have hne {a : ListenerId} (ha : a ∈ members) : Enrolment.register id ≠ .register a := by
        intro he
        exact hid (Enrolment.register.inj he ▸ ha)
      rw [registrationAge_snoc, registrationAge_snoc, if_neg (hne hfirst), if_neg (hne hsecond)]
      omega
    · intro first hfirst second hsecond
      rw [List.mem_singleton.mp hsecond, registrationAge_snoc, registrationAge_snoc, if_pos rfl,
        if_neg]
      · omega
      · intro he
        exact hid (Enrolment.register.inj he ▸ hfirst)

theorem Lists.unregister (h : Lists past members) (id : ListenerId) :
    Lists (past ++ [.unregister id]) (members.erase id) := by
  refine ⟨h.once.erase id, fun other => ?_, ?_⟩
  · rw [h.once.mem_erase_iff, registered_snoc, h.registered]
    by_cases he : id = other
    · simp [Enrolment.listener, he]
    · simp [Enrolment.listener, he, Ne.symm he]
  · apply (h.ordered.sublist List.erase_sublist).imp
    intro first second hlt
    rw [registrationAge_snoc, registrationAge_snoc, if_neg (by simp), if_neg (by simp)]
    omega

/-- Listeners registered one after another. -/
theorem Lists.of_nodup (h : members.Nodup) : Lists (members.map .register) members := by
  induction members using List.reverseRecOn with
  | nil => exact ⟨.nil, fun id => by simp [Registered], .nil⟩
  | append_singleton earlier id ih =>
    rw [← List.concat_eq_append, List.nodup_concat] at h
    rw [List.map_append]
    exact (ih h.2).register h.1

end History

namespace Hub

variable {past : List Enrolment} {hub : Hub}

theorem enrol_answers (hub : Hub) (request : Enrolment) :
    Answers hub.members request (hub.enrol request).1.result := by
  cases request with
  | register id =>
    by_cases h : id ∈ hub.members
    · simp [Answers, enrol, Hub.register, h]
    · simp [Answers, enrol, Hub.register, h]
  | unregister id =>
    by_cases h : id ∈ hub.members
    · simp [Answers, enrol, Hub.unregister, h]
    · simp [Answers, enrol, Hub.unregister, h]

theorem enrol_refused {request : Enrolment} (h : (hub.enrol request).1.result ≠ .ok ()) :
    (hub.enrol request).2 = hub := by
  revert h
  unfold enrol
  cases request with
  | register id =>
    dsimp only
    cases hub.register id with
    | ok hub' => exact fun h => absurd rfl h
    | error cause => exact fun _ => rfl
  | unregister id =>
    dsimp only
    cases hub.unregister id with
    | ok hub' => exact fun h => absurd rfl h
    | error cause => exact fun _ => rfl

/-- A request makes of the registry what it makes of its history. -/
theorem enrol_lists (h : Lists past hub.members) (request : Enrolment) :
    Lists (past ++ request.granted (hub.enrol request).1.result) (hub.enrol request).2.members := by
  cases request with
  | register id =>
    by_cases hid : id ∈ hub.members
    · simpa [enrol, Hub.register, hid, Enrolment.granted] using h
    · simpa [enrol, Hub.register, hid, Enrolment.granted] using h.register hid
  | unregister id =>
    by_cases hid : id ∈ hub.members
    · simpa [enrol, Hub.unregister, hid, Enrolment.granted] using h.unregister id
    · simpa [enrol, Hub.unregister, hid, Enrolment.granted] using h

end Hub

/-- A backend with a registry in its states, which answers the requests and which neither calls nor
a drift of the state change. -/
structure Backend.Keeps {σ : Type} (outer : Backend σ) (hub : σ → Hub) (drift : σ → σ → Prop) :
    Prop where
  members : ∀ s, outer.members s = (hub s).members
  answer : ∀ request s, (outer.enrol request s).1.result = ((hub s).enrol request).1.result
  registry : ∀ request s, hub (outer.enrol request s).2 = ((hub s).enrol request).2
  call : ∀ c s, hub (outer.call c s).2 = hub s
  drift : ∀ {s s'}, drift s s' → hub s' = hub s

theorem Backend.Keeps.stack {σ : Type} {inner : Backend σ} {hub : σ → Hub} {drift : σ → σ → Prop}
    (h : inner.Keeps hub drift) (layers : List Layer) :
    (Layer.stack layers inner).Keeps hub drift := by
  obtain ⟨henrol, hmembers⟩ := Layer.stack_enrol layers inner
  refine ⟨?_, ?_, ?_, Layer.stack_keeps h.call layers, h.drift⟩
  · rw [hmembers]
    exact h.members
  · rw [henrol]
    exact h.answer
  · rw [henrol]
    exact h.registry

theorem Minimal.keeps {drift : Hub → Hub → Prop} (h : ∀ {s s'}, drift s s' → s' = s) :
    backend.Keeps id drift where
  members _ := rfl
  answer _ _ := rfl
  registry _ _ := rfl
  call c s := by cases c <;> rfl
  drift := h

theorem Device.Quota.keeps (config : Device.Config) {drift : Device.State → Device.State → Prop}
    (h : ∀ {s s'}, drift s s' → s'.hub = s.hub) :
    (backend config).Keeps Device.State.hub drift where
  members _ := rfl
  answer _ _ := rfl
  registry _ _ := rfl
  call c s := by
    obtain ⟨site, hstate⟩ := call_state config c s
    rw [hstate]
  drift := h

namespace Trail

variable {σ : Type}

/-- The requests granted on a trail, in order. -/
def granted : Trail σ → List Enrolment
  | stop _ => []
  | enrolled _ request result rest => request.granted result ++ rest.granted
  | called _ _ _ sent rest => sent.granted ++ rest.granted
  | broadcast _ _ callbacks rest => callbacks.granted ++ rest.granted
  | told _ _ _ inside rest => inside.granted ++ rest.granted

/-- At every point of a trail the registry is what the requests granted until then make it; requests
are answered by it, and a refused one leaves it alone; and a broadcast tells its notice to the
members there were when it began. -/
def Faithful (members : σ → List ListenerId) (past : List Enrolment) : Trail σ → Prop
  | stop s => Lists past (members s)
  | enrolled s request result rest =>
    Lists past (members s) ∧ Answers (members s) request result ∧
      (result ≠ .ok () → members rest.state = members s) ∧
      rest.Faithful members (past ++ request.granted result)
  | called s _ _ sent rest =>
    Lists past (members s) ∧ sent.Faithful members past ∧
      rest.Faithful members (past ++ sent.granted)
  | broadcast s notice callbacks rest =>
    Lists past (members s) ∧ callbacks.recipients = (members s).map (fun id => (id, notice)) ∧
      callbacks.Faithful members past ∧ rest.Faithful members (past ++ callbacks.granted)
  | told s _ _ inside rest =>
    Lists past (members s) ∧ inside.Faithful members past ∧
      rest.Faithful members (past ++ inside.granted)

end Trail

section Runs
variable {σ : Type} {outer : Backend σ} {hub : σ → Hub} {drift : σ → σ → Prop} {phase : Phase}
  {s last : σ} {trail : Trail σ} {past : List Enrolment}

/-- Before the first thing that happens only drifts change the state. -/
theorem Backend.Keeps.begins (h : outer.Keeps hub drift)
    (run : Runs outer drift phase s trail last) : hub trail.state = hub s := by
  induction run with
  | drifted hdrift later ih => exact ih.trans (h.drift hdrift)
  | stop | enrolled | called | announced | silent | sent | heard | told => rfl

theorem Backend.Keeps.faithful (h : outer.Keeps hub drift)
    (run : Runs outer drift phase s trail last) (hlists : Lists past (outer.members s)) :
    trail.Faithful outer.members past ∧ Lists (past ++ trail.granted) (outer.members last) := by
  induction run generalizing past with
  | stop s | silent s | heard _ s => exact ⟨hlists, by simpa [Trail.granted] using hlists⟩
  | @drifted s s' last rest hdrift later ih =>
    apply ih
    rw [h.members, h.drift hdrift, ← h.members]
    exact hlists
  | @enrolled s last rest request later ih =>
    rw [h.members] at hlists
    have hnext : Lists (past ++ request.granted (outer.enrol request s).1.result)
        (outer.members (outer.enrol request s).2) := by
      rw [h.answer, h.members, h.registry]
      exact Hub.enrol_lists hlists request
    obtain ⟨hrest, hlast⟩ := ih hnext
    refine ⟨⟨?_, ?_, fun hrefused => ?_, hrest⟩, ?_⟩
    · rw [h.members]
      exact hlists
    · rw [h.members, h.answer]
      exact Hub.enrol_answers (hub s) request
    · rw [h.answer] at hrefused
      rw [h.members, h.members, h.begins later, h.registry, Hub.enrol_refused hrefused]
    · unfold Trail.granted
      rw [← List.append_assoc]
      exact hlast
  | @called s middle last sent rest c inside later ihinside ihlater =>
    have hcalled : Lists past (outer.members (outer.call c s).2) := by
      rw [h.members, h.call, ← h.members]
      exact hlists
    obtain ⟨hsent, hmiddle⟩ := ihinside hcalled
    obtain ⟨hrest, hlast⟩ := ihlater hmiddle
    rw [List.append_assoc] at hlast
    exact ⟨⟨hlists, hsent, hrest⟩, hlast⟩
  | announced notice inside later ihinside ihlater | sent inside later ihinside ihlater =>
    obtain ⟨hcallbacks, hmiddle⟩ := ihinside hlists
    obtain ⟨hrest, hlast⟩ := ihlater hmiddle
    rw [List.append_assoc] at hlast
    exact ⟨⟨hlists, inside.recipients_eq, hcallbacks, hrest⟩, hlast⟩
  | told inner later ihinner ihlater =>
    obtain ⟨hinside, hmiddle⟩ := ihinner hlists
    obtain ⟨hrest, hlast⟩ := ihlater hmiddle
    rw [List.append_assoc] at hlast
    exact ⟨⟨hlists, hinside, hrest⟩, hlast⟩

/-- Whatever listeners do while they are told, and however deep it nests: the registry lists those
who registered and have not left since, each once, by their latest registration; a request is
refused exactly if it would change nothing; and a broadcast tells those registered when it began,
each once and in their order. Whoever follows a course in a session goes along such a run, and the
session notes down all who are told in it and hear of such notices. Delivering a notice tells those
registered, whatever they do, and listeners do what a run allows if they follow courses of their own
or react as they are set up to. -/
theorem reentrant_runs_faithful {inner : Backend σ} (h : inner.Keeps hub drift)
    (layers : List Layer) :
    let outer := Layer.stack layers inner
    (∀ {start last : σ} {trail : Trail σ}, Runs outer drift .acting start trail last →
      trail.Faithful outer.members ((outer.members start).map .register) ∧
        Lists ((outer.members start).map .register ++ trail.granted) (outer.members last)) ∧
    (∀ tell, Session.Acts outer drift tell → ∀ (course : Course) (session : Session σ),
      let after := session.follow outer tell course
      ∃ trail, course.Along trail ∧ Runs outer drift .acting session.store trail after.store ∧
        after.told = session.told ++ session.audible trail.tellings ∧
        trail.Faithful outer.members ((outer.members session.store).map .register)) ∧
    (∀ tell notice (session : Session σ), Session.Tells tell notice (outer.members session.store)
      session (session.dispatch outer tell notice)) ∧
    (∀ courses depth, Session.Acts outer drift (Session.tellBy outer courses depth)) ∧
    ∀ depth, Session.Acts outer drift (Session.tell outer depth) := by
  intro outer
  have hkeeps : outer.Keeps hub drift := h.stack layers
  have hruns {start last : σ} {trail : Trail σ} (run : Runs outer drift .acting start trail last) :
      trail.Faithful outer.members ((outer.members start).map .register) ∧
        Lists ((outer.members start).map .register ++ trail.granted) (outer.members last) := by
    have hnodup : (outer.members start).Nodup := by
      rw [hkeeps.members]
      exact (hub start).nodup
    exact hkeeps.faithful run (.of_nodup hnodup)
  refine ⟨hruns, fun tell hacts course session => ?_, ?_, ?_, ?_⟩
  · obtain ⟨trail, halong, hgoes⟩ := hacts.follow course session
    exact ⟨trail, halong, hgoes.run, hgoes.notes.told, (hruns hgoes.run).1⟩
  · exact Session.dispatch_tells outer
  · exact Session.tellBy_acts outer drift
  · exact Session.tell_acts outer drift

/-- While the first of two listeners is told, it lets a third in and the second out and writes; the
second is told all the same, and comes back behind the third. -/
theorem reentrant_runs_faithful_swapped :
    let inner := Minimal.backend
    let drift (_ _ : Hub) : Prop := False
    let change (key : String) : Notice := .valueChanged .device "ns" key "text"
    let courses (id : ListenerId) (notice : Notice) (_ : Session Hub) : Course :=
      if notice ≠ change "key" then .done
      else if id = "first" then
        .enrol (.register "third") fun _ => .enrol (.unregister "second") fun _ =>
          .call (.setValue .device "ns" "other" "text" 0) fun _ => .done
      else .enrol (.register id) fun _ => .done
    let course : Course := .broadcast (change "key") .done
    let start : Session Hub := { store := { members := ["first", "second"] } }
    let after := start.follow inner (Session.tellBy inner courses 2) course
    ∃ trail, course.Along trail ∧ Runs inner drift .acting start.store trail after.store ∧
      trail.Faithful inner.members [.register "first", .register "second"] ∧
      after.store.members = ["first", "third", "second"] ∧
      trail.tellings = [("first", change "key"), ("first", change "other"),
        ("third", change "other"), ("second", change "key")] := by
  intro inner drift change courses course start after
  have hkeeps : inner.Keeps id drift := Minimal.keeps fun h => h.elim
  obtain ⟨_, hfollow, _, hacts, _⟩ := reentrant_runs_faithful hkeeps []
  obtain ⟨trail, halong, hrun, htold, hfaithful⟩ := hfollow _ (hacts courses 2) course start
  have haudible (tellings : List (ListenerId × Notice)) : start.audible tellings = tellings := by
    unfold Session.audible
    apply List.filter_eq_self.mpr
    rintro ⟨id, notice⟩ _
    cases notice <;> rfl
  have hnoted : after.told = trail.tellings := htold.trans (haudible _)
  refine ⟨trail, halong, hrun, hfaithful, rfl, ?_⟩
  rw [← hnoted]
  rfl

end Runs

end ScopedStore

import Mathlib.Data.List.Nodup
import ScopedStore.Listener.Session

/-! Sessions whose listeners do nothing but record. There a call does to the store what the backend
does, and the notices of its answer are all that is heard. -/
namespace ScopedStore

/-- The notice of an event, if it is one to this listener. -/
def Event.toldTo (id : ListenerId) : Event → Option Notice
  | .notified other notice => if other = id then some notice else none
  | .acted .. => none

/-- Only its own leave takes a listener off the registry. -/
theorem Hub.mem_enrol {hub : Hub} {id : ListenerId} {request : Enrolment} (h : id ∈ hub.members)
    (hstays : request ≠ .unregister id) : id ∈ (hub.enrol request).2.members := by
  unfold enrol
  cases request with
  | register listener =>
    dsimp only
    unfold register
    split
    next hub' he =>
      split at he
      · cases he
      · cases he
        exact List.mem_append_left _ h
    · exact h
  | unregister listener =>
    have hne : id ≠ listener := fun he => hstays (he ▸ rfl)
    dsimp only
    unfold unregister
    split
    next hub' he =>
      split at he
      · cases he
        exact (List.mem_erase_of_ne hne).mpr h
      · cases he
    · exact h

namespace Session

variable {σ : Type} {outer : Backend σ} {session : Session σ}

/-- A call that says nothing and leaves the store as it is leaves the session as it is, whatever its
listeners would do. -/
theorem call_of_silent {c : Call} {result : Except StoreError c.Reply}
    (h : outer.call c session.store = ({ result := result }, session.store)) :
    session.call outer c = (result, session) := by
  unfold call callWith perform
  rw [h]
  dsimp only
  rw [List.append_nil]
  rfl

/-- No listener acts on what it is told. -/
def OnlyRecords (session : Session σ) : Prop :=
  ∀ id, (session.listener id).reaction = .ignore

/-- What a listener records of a notice. -/
def heard (session : Session σ) (notice : Notice) (id : ListenerId) : List Event :=
  if session.hears id notice then [.notified id notice] else []

def hearing (session : Session σ) (events : List Event) : Session σ :=
  { session with events := session.events ++ events }

theorem hearing_nil (session : Session σ) : session.hearing [] = session := by
  simp [hearing]

theorem hearing_hearing (session : Session σ) (first second : List Event) :
    (session.hearing first).hearing second = session.hearing (first ++ second) := by
  simp [hearing]

theorem OnlyRecords.hearing (h : session.OnlyRecords) (events : List Event) :
    (session.hearing events).OnlyRecords := h

theorem hear_eq (id : ListenerId) (notice : Notice) (session : Session σ) :
    session.hear id notice = session.hearing (session.heard notice id) := by
  unfold hear heard
  split
  · rfl
  · exact session.hearing_nil.symm

theorem tell_recording (h : session.OnlyRecords) (depth : Nat) (id : ListenerId)
    (notice : Notice) :
    tell outer (depth + 1) id notice session = session.hearing (session.heard notice id) := by
  rw [← hear_eq]
  unfold tell
  cases notice with
  | valueChanged scope ns key value =>
    have hignore : ((session.hear id (.valueChanged scope ns key value)).listener id).reaction =
        .ignore := h id
    dsimp only
    unfold react
    rw [hignore]
  | storageExceeded scope ns => rfl

/-- Every member of the registry hears a notice, in the order of registration. -/
theorem dispatch_recording (h : session.OnlyRecords) (depth : Nat) (notice : Notice) :
    session.dispatch outer (tell outer (depth + 1)) notice =
      session.hearing ((outer.members session.store).flatMap (session.heard notice)) := by
  unfold dispatch
  generalize outer.members session.store = members
  induction members generalizing session with
  | nil => exact session.hearing_nil.symm
  | cons id rest ih =>
    rw [List.foldl_cons, tell_recording h, ih (h.hearing _), hearing_hearing]
    rfl

theorem notices_recording (h : session.OnlyRecords) (depth : Nat) (notices : List Notice) :
    notices.foldl (fun session notice => session.dispatch outer (tell outer (depth + 1)) notice)
        session =
      session.hearing (notices.flatMap fun notice =>
        (outer.members session.store).flatMap (session.heard notice)) := by
  induction notices generalizing session with
  | nil => exact session.hearing_nil.symm
  | cons notice rest ih =>
    rw [List.foldl_cons, dispatch_recording h, ih (h.hearing _), hearing_hearing]
    rfl

/-- The events of an answer in a session. -/
def reports {α : Type} (session : Session σ) (members : List ListenerId) (answer : Answer α) :
    List Event :=
  answer.notices.flatMap fun notice => members.flatMap (session.heard notice)

/-- With listeners that only record, a call is the backend's call and the events of its answer. -/
theorem call_recording (h : session.OnlyRecords) (c : Call) :
    session.call outer c = ((outer.call c session.store).1.result,
      { session with
        store := (outer.call c session.store).2
        events := session.events ++ session.reports
          (outer.members (outer.call c session.store).2) (outer.call c session.store).1
        log := session.log ++ (outer.call c session.store).1.log }) := by
  unfold call callWith perform
  dsimp only
  rw [show nestingLimit = 4095 + 1 from rfl, notices_recording (by exact h)]
  rfl

theorem mem_reports {α : Type} {members : List ListenerId} {answer : Answer α} {event : Event}
    (h : event ∈ session.reports members answer) :
    ∃ id ∈ members, ∃ notice ∈ answer.notices, event = .notified id notice := by
  obtain ⟨notice, hnotice, h⟩ := List.mem_flatMap.mp h
  obtain ⟨id, hid, h⟩ := List.mem_flatMap.mp h
  refine ⟨id, hid, notice, hnotice, ?_⟩
  unfold heard at h
  split at h
  · exact List.mem_singleton.mp h
  · cases h

section Heard
variable {id : ListenerId}

/-- What a listener has been told so far, in order. -/
def heardBy (id : ListenerId) (session : Session σ) : List Notice :=
  session.events.filterMap (Event.toldTo id)

theorem heard_toldTo {notice : Notice} (hears : session.hears id notice) (other : ListenerId) :
    (session.heard notice other).filterMap (Event.toldTo id) =
      if other = id then [notice] else [] := by
  unfold heard
  by_cases he : other = id
  · subst he
    simp [Event.toldTo, hears]
  · cases session.hears other notice <;> simp [Event.toldTo, he]

/-- A notice reaches each member once, since no listener is registered twice. -/
theorem members_toldTo {notice : Notice} (hears : session.hears id notice)
    {members : List ListenerId} (hnodup : members.Nodup) (hid : id ∈ members) :
    (members.flatMap (session.heard notice)).filterMap (Event.toldTo id) = [notice] := by
  have hothers {others : List ListenerId} (h : id ∉ others) :
      (others.flatMap (session.heard notice)).filterMap (Event.toldTo id) = [] := by
    rw [List.filterMap_flatMap, List.flatMap_eq_nil_iff]
    intro other hother
    rw [heard_toldTo hears, if_neg fun he : other = id => h (he ▸ hother)]
  obtain ⟨before, after, rfl⟩ := List.append_of_mem hid
  obtain ⟨hbefore, hafter⟩ : id ∉ before ∧ id ∉ after := by
    rw [List.nodup_middle, List.nodup_cons] at hnodup
    simpa using hnodup.1
  rw [List.flatMap_append, List.flatMap_cons, List.filterMap_append, List.filterMap_append,
    hothers hbefore, hothers hafter, heard_toldTo hears, if_pos rfl]
  rfl

theorem reports_toldTo {α : Type} {members : List ListenerId} (hnodup : members.Nodup)
    (hid : id ∈ members) {answer : Answer α}
    (hears : ∀ notice ∈ answer.notices, session.hears id notice) :
    (session.reports members answer).filterMap (Event.toldTo id) = answer.notices := by
  unfold reports
  generalize answer.notices = notices at hears ⊢
  induction notices with
  | nil => rfl
  | cons notice rest ih =>
    obtain ⟨hfirst, hrest⟩ := List.forall_mem_cons.mp hears
    rw [List.flatMap_cons, List.filterMap_append, members_toldTo hfirst hnodup hid, ih hrest]
    rfl

end Heard

end Session

end ScopedStore

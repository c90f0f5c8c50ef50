import ScopedStore.Proofs.Device.Atomicity
import ScopedStore.Proofs.Device.Failures
import ScopedStore.Proofs.Store.Stacks

/-! What is heard of a device store. The notices of a call are determined by its result, under every
stack of layers, since an attempt that finds the store unavailable sends none. So the notices of a
run can be read off its results. -/
namespace ScopedStore

namespace Device

/-- What a write that is refused for a budget is answered. -/
def Verdict.refusal? : Verdict → Option StoreError
  | .applied => none
  | .namespaceFull => some Quota.namespaceFull
  | .storageFull => some Quota.globalFull

/-- The notices that a result calls for: of the change that was made, or of the budget that stood in
its way. -/
def due : (c : Call) → Except StoreError c.Reply → List Notice
  | .setValue _ ns key value _, .ok _ => [.valueChanged .device ns key value]
  | .setValue _ ns _ _ _, .error cause =>
    if cause = Quota.namespaceFull ∨ cause = Quota.globalFull then [.storageExceeded .device ns]
    else []
  | _, _ => []

/-- The file in use has no room for an entry: this budget would be exceeded. -/
def State.Refuses (config : Config) (state : State) (ns key value : String) (verdict : Verdict) :
    Prop :=
  ∃ version t, state.site.connected? = some (.ready version t) ∧
    Quota.Refuses config t ns key value verdict

theorem Site.connected?_writeBack {site : Site} {image : Image}
    (h : site.connected? = some image) (after : Image) :
    (site.writeBack after).connected? = some after := by
  obtain ⟨folder, slot, aside, link, saw⟩ := site
  match link with
  | none => cases h
  | some .current | some .aside | some (.orphan _) => rfl

theorem Verdict.refusal?_inj {verdict other : Verdict} {cause : StoreError}
    (h : verdict.refusal? = some cause) (hother : other.refusal? = some cause) :
    verdict = other := by
  rw [← hother] at h
  revert h
  cases verdict <;> cases other <;> decide

section Due
variable {c : Call}

theorem due_error {cause : StoreError} (h : ∀ detail, cause ≠ .invalidLength detail) :
    due c (.error cause) = [] := by
  cases c with
  | setValue => exact if_neg (not_or.mpr ⟨h _, h _⟩)
  | _ => rfl

theorem due_settled (result : Except StoreError c.Reply) :
    due c (Reconnect.settled result) = due c result := by
  by_cases hdown : ∃ reason, result = .error (.unavailable reason)
  · obtain ⟨reason, rfl⟩ := hdown
    rw [due_error (by simp)]
    exact due_error (by simp)
  · rw [Reconnect.settled_of_available fun reason he => hdown ⟨reason, he⟩]

end Due

namespace Quota

variable {config : Config} {state state' : State}

/-- The refusals for want of room end in other letters than those of the length rules, so neither is
taken for the other. -/
theorem ne_full_of_ending {detail : String} (last : Char)
    (h : detail.toList.getLast? = some last) (hlast : last ≠ 'd') :
    .invalidLength detail ≠ namespaceFull ∧ .invalidLength detail ≠ globalFull := by
  constructor <;>
  · intro he
    rw [StoreError.invalidLength.inj he] at h
    exact hlast (Option.some.inj h).symm

theorem checkLength_ne_full {field text : String} {cause : StoreError}
    (h : checkLength config field text = .error cause) :
    cause ≠ namespaceFull ∧ cause ≠ globalFull := by
  unfold checkLength at h
  split at h
  · cases h
    refine ne_full_of_ending 's' ?_ (by decide)
    rw [String.toList_append, List.getLast?_append]
    rfl
  · cases h

theorem checkName_ne_full {field text : String} {cause : StoreError}
    (h : checkName config field text = .error cause) :
    cause ≠ namespaceFull ∧ cause ≠ globalFull := by
  unfold checkName at h
  split at h
  · cases h
    refine ne_full_of_ending 'y' ?_ (by decide)
    rw [String.toList_append, List.getLast?_append]
    rfl
  · exact checkLength_ne_full h

/-- What the length rules find wrong with a call is wrong with one of its arguments. -/
theorem checkCall_eq_error {c : Call} {cause : StoreError}
    (h : checkCall config c = .error cause) :
    ∃ field text, checkName config field text = .error cause ∨
      checkLength config field text = .error cause := by
  have hchain {first : Except StoreError Unit} {next : Unit → Except StoreError Unit}
      (h : first >>= next = .error cause) : first = .error cause ∨ next () = .error cause := by
    cases first with
    | error own => exact .inl h
    | ok => exact .inr h
  cases c with
  | setValue =>
    rcases hchain h with hns | h
    · exact ⟨_, _, .inl hns⟩
    · rcases hchain h with hkey | hvalue
      · exact ⟨_, _, .inl hkey⟩
      · exact ⟨_, _, .inr hvalue⟩
  | getValue | deleteKey =>
    rcases hchain h with hns | hkey
    · exact ⟨_, _, .inl hns⟩
    · exact ⟨_, _, .inl hkey⟩
  | deleteNamespace | setLimit | getLimit | getKeys => exact ⟨_, _, .inl h⟩
  | openStore | getNamespaces | getSizes | flushCache => cases h

theorem checkCall_ne_full {c : Call} {cause : StoreError}
    (h : checkCall config c = .error cause) : cause ≠ namespaceFull ∧ cause ≠ globalFull := by
  obtain ⟨field, text, hname | hlength⟩ := checkCall_eq_error h
  · exact checkName_ne_full hname
  · exact checkLength_ne_full hlength

/-- A write announces what became of it, and one refused for a budget leaves a file without room. -/
theorem setValue_due {scope : Scope} {ns key value : String} {ttl : UInt32} {answer : Answer Unit}
    (h : setValue config scope ns key value ttl state = (answer, state')) :
    answer.notices = due (.setValue scope ns key value ttl) answer.result ∧
      ∀ verdict cause, verdict.refusal? = some cause → answer.result = .error cause →
        state'.Refuses config ns key value verdict := by
  unfold setValue at h
  dsimp only at h
  cases ht : transact true scope (write config state.clock.unixSeconds ns key value ttl) state with
  | mk result after =>
    rw [ht] at h
    cases result with
    | error own =>
      cases h
      have hstatements :
          Statements (fun _ _ => True) fun cause => ∀ detail, cause ≠ .invalidLength detail :=
        statements_failure toStoreError_ne_invalidLength
      have hown : ∀ detail, own ≠ .invalidLength detail :=
        transact_failure toStoreError_ne_invalidLength
          (write_confined hstatements _ ns key value ttl) ht
      refine ⟨(due_error hown).symm, fun verdict cause hrefusal he => ?_⟩
      cases he
      cases verdict <;> cases hrefusal <;> exact absurd rfl (hown _)
    | ok verdict =>
      obtain ⟨saw, ⟨cause, hfail, _⟩ | ⟨_, image, image', standing, hok, hrest⟩⟩ :=
        transact_cases ht
      · cases hfail
      · cases hok
        obtain ⟨rfl, hconnected, hwrite, rfl⟩ := hrest
        obtain ⟨version, t, rfl, ⟨hrefuses, rfl⟩ | ⟨rfl, _⟩⟩ := write_eq_ok hwrite
        · have hsaw : (state.site.seeing saw).connected? = some (.ready version t) := hconnected
          have hheld := Site.connected?_writeBack hsaw
            (.ready version (t.purged state.clock.unixSeconds))
          have hfull {own : StoreError} (hown : verdict.refusal? = some own) (other : Verdict)
              (cause : StoreError) (hrefusal : other.refusal? = some cause)
              (he : (.error own : Except StoreError Unit) = .error cause) : other = verdict := by
            cases he
            exact Verdict.refusal?_inj hrefusal hown
          cases verdict with
          | applied => cases hrefuses
          | namespaceFull | storageFull =>
            cases h
            refine ⟨rfl, fun other cause hrefusal he => ?_⟩
            obtain rfl := hfull rfl other cause hrefusal he
            exact ⟨version, _, hheld, hrefuses⟩
        · cases h
          exact ⟨rfl, fun verdict cause hrefusal he => nomatch he⟩

theorem serve_due {c : Call} {answer : Answer c.Reply}
    (h : serve config c state = (answer, state')) : answer.notices = due c answer.result := by
  cases c with
  | setValue => exact (setValue_due h).1
  | getValue => exact getValue_notices h
  | openStore | flushCache => cases h; rfl
  | deleteKey | deleteNamespace | setLimit | getLimit | getKeys | getNamespaces | getSizes =>
    exact plain_notices h

end Quota

/-- A backend of the device store whose notices follow from its results, whose refusals are for want
of room, and whose calls leave the registry alone. -/
structure Announces (config : Config) (outer : Backend State) : Prop where
  notices : ∀ c state, (outer.call c state).1.notices = due c (outer.call c state).1.result
  refused : ∀ scope ns key value ttl state verdict cause, verdict.refusal? = some cause →
    (outer.call (.setValue scope ns key value ttl) state).1.result = .error cause →
      (outer.call (.setValue scope ns key value ttl) state).2.Refuses config ns key value verdict
  hub : ∀ c state, (outer.call c state).2.hub = state.hub
  members : ∀ state, outer.members state = state.hub.members
  enrol : ∀ request state, (outer.enrol request state).2 =
    { state with hub := (state.hub.enrol request).2 }

theorem Quota.announces (config : Config) : Announces config (backend config) where
  notices c state := by
    unfold backend
    dsimp only
    cases hcheck : checkCall config c with
    | ok => exact serve_due rfl
    | error cause =>
      cases c with
      | setValue => exact (if_neg (not_or.mpr (checkCall_ne_full hcheck))).symm
      | _ => rfl
  refused scope ns key value ttl state verdict cause hrefusal := by
    unfold backend
    dsimp only
    cases hcheck : checkCall config (.setValue scope ns key value ttl) with
    | ok => exact (setValue_due rfl).2 verdict cause hrefusal
    | error own =>
      obtain ⟨hns, hglobal⟩ := checkCall_ne_full hcheck
      intro he
      cases he
      cases verdict <;> cases hrefusal
      · exact absurd rfl hns
      · exact absurd rfl hglobal
  hub c state := by
    obtain ⟨site, hstate⟩ := call_state config c state
    rw [hstate]
  members _ := rfl
  enrol _ _ := rfl

namespace Announces

variable {config : Config} {outer : Backend State}

theorem caching (h : Announces config outer) : Announces config outer.caching where
  notices c state := by
    cases c with
    | flushCache =>
      exact (Cache.flush_notices outer state).trans (h.notices .flushCache state)
    | _ => exact h.notices _ state
  refused := h.refused
  hub c state := by
    cases c with
    | flushCache =>
      change (Cache.flush outer state).2.hub = _
      rw [(Cache.flush_outcome outer state).2]
      exact h.hub .flushCache state
    | _ => exact h.hub _ state
  members := h.members
  enrol := h.enrol

theorem attempted (h : Announces config outer) {c : Call} {state state' : State}
    {answer : Answer c.Reply} (attempt : outer.call c state = (answer, state')) :
    answer.notices = due c answer.result ∧ state'.hub = state.hub := by
  have hnotices := h.notices c state
  have hhub := h.hub c state
  rw [attempt] at hnotices hhub
  exact ⟨hnotices, hhub⟩

theorem attempted_in_vain (h : Announces config outer) {c : Call} {state state' : State}
    {answer : Answer c.Reply} {reason : String}
    (attempt : outer.call c state = (answer, state'))
    (down : answer.result = .error (.unavailable reason)) :
    answer.notices = [] ∧ state'.hub = state.hub := by
  obtain ⟨hnotices, hhub⟩ := h.attempted attempt
  rw [down, due_error (by simp)] at hnotices
  exact ⟨hnotices, hhub⟩

/-- Of the attempts at a call only the last one can have announced anything. -/
theorem retried (h : Announces config outer) (c : Call) (state : State) :
    (Reconnect.call outer c state).1.notices = due c (Reconnect.call outer c state).1.result ∧
      (Reconnect.call outer c state).2.hub = state.hub := by
  have hcourse := Reconnect.call_course outer c state
  generalize Reconnect.call outer c state = made at hcourse ⊢
  obtain ⟨answer, after⟩ := made
  cases hcourse with
  | served attempt available => exact h.attempted attempt
  | unopened attempt down reopening failed result notices =>
    obtain ⟨hfirst, hhub⟩ := h.attempted_in_vain attempt down
    obtain ⟨hopening, hsame⟩ := h.attempted reopening
    refine ⟨?_, hsame.trans hhub⟩
    dsimp only
    rw [notices, hfirst, hopening, result, due_error (by simp)]
    rfl
  | retried attempt down reopening ready retry result notices =>
    obtain ⟨hfirst, hhub⟩ := h.attempted_in_vain attempt down
    obtain ⟨hopening, hsame⟩ := h.attempted reopening
    obtain ⟨hsecond, hkept⟩ := h.attempted retry
    refine ⟨?_, hkept.trans (hsame.trans hhub)⟩
    dsimp only
    rw [notices, hfirst, hopening, hsecond, result, due_settled]
    rfl

/-- A refusal that a reconnect layer reports is one of the attempt that it reports. -/
theorem retried_refused (h : Announces config outer) (scope : Scope) (ns key value : String)
    (ttl : UInt32) (state : State) (verdict : Verdict) (cause : StoreError)
    (hrefusal : verdict.refusal? = some cause)
    (he : (Reconnect.call outer (.setValue scope ns key value ttl) state).1.result =
      .error cause) :
    (Reconnect.call outer (.setValue scope ns key value ttl) state).2.Refuses config ns key value
      verdict := by
  have hcourse := Reconnect.call_course outer (.setValue scope ns key value ttl) state
  generalize Reconnect.call outer (.setValue scope ns key value ttl) state = made at hcourse he ⊢
  obtain ⟨answer, after⟩ := made
  have hattempt {before after : State} {answer : Answer Unit}
      (attempt : outer.call (.setValue scope ns key value ttl) before = (answer, after))
      (he : answer.result = .error cause) : after.Refuses config ns key value verdict := by
    have hrefused := h.refused scope ns key value ttl before verdict cause hrefusal
    rw [attempt] at hrefused
    exact hrefused he
  have hlength : ∃ detail, cause = .invalidLength detail := by
    cases verdict <;> cases hrefusal <;> exact ⟨_, rfl⟩
  obtain ⟨detail, rfl⟩ := hlength
  cases hcourse with
  | served attempt available => exact hattempt attempt he
  | unopened attempt down reopening failed result notices =>
    exact nomatch result.symm.trans he
  | @retried first second answer opened s₁ s₂ s₃ reason attempt down reopening ready retry result =>
    refine hattempt retry ?_
    have hsettled : Reconnect.settled second.result = .error (.invalidLength detail) :=
      result.symm.trans he
    unfold Reconnect.settled at hsettled
    split at hsettled
    · cases hsettled
    · exact hsettled

theorem reconnecting (h : Announces config outer) : Announces config outer.reconnecting where
  notices c state := by
    cases c with
    | openStore => exact h.notices .openStore state
    | flushCache =>
      exact (Reconnect.flush_notices outer state).trans (h.notices .flushCache state)
    | _ => exact (h.retried _ state).1
  refused := h.retried_refused
  hub c state := by
    cases c with
    | openStore => exact h.hub .openStore state
    | flushCache =>
      change (Reconnect.flush outer state).2.hub = _
      rw [(Reconnect.flush_outcome outer state).2]
      exact h.hub .flushCache state
    | _ => exact (h.retried _ state).2
  members := h.members
  enrol := h.enrol

/-- Every stack of layers around the device store announces what its results call for. -/
theorem stack (config : Config) (layers : List Layer) :
    Announces config (Layer.stack layers (Quota.backend config)) := by
  induction layers using List.reverseRecOn with
  | nil => exact Quota.announces config
  | append_singleton layers layer ih =>
    rw [Layer.stack_append_singleton]
    cases layer with
    | cache => exact ih.caching
    | reconnect => exact ih.reconnecting
    | boxed | shared => exact ih

end Announces

/-- One thing that happens while a store is in use. Closing, reopening, removing and altering files
are changes of the site. -/
inductive Happening where
  | call (c : Call)
  | enrol (request : Enrolment)
  | disturb (change : Site → Site)
  | setClock (clock : Clock)

/-- A call that was made, and its result. -/
structure Outcome where
  call : Call
  result : Except StoreError call.Reply

def Happening.occur (outer : Backend State) :
    Happening → Session State → List Outcome × Session State
  | call c, session =>
    let (result, session) := session.call outer c
    ([⟨c, result⟩], session)
  | enrol request, session => ([], (session.enrol outer request).2)
  | disturb change, session =>
    ([], { session with store := { session.store with site := change session.store.site } })
  | setClock clock, session =>
    ([], { session with store := { session.store with clock := clock } })

def conduct (outer : Backend State) : List Happening → Session State → List Outcome × Session State
  | [], session => ([], session)
  | happening :: rest, session =>
    let (outcomes, session) := happening.occur outer session
    let (later, last) := conduct outer rest session
    (outcomes ++ later, last)

/-- The notices that the results of a run call for, in the order of the calls. -/
def allDue (outcomes : List Outcome) : List Notice :=
  outcomes.flatMap fun outcome => due outcome.call outcome.result

/-- No listener acts, and this one is registered and hears of both kinds of notice. -/
structure Attends (id : ListenerId) (session : Session State) : Prop where
  records : session.OnlyRecords
  member : id ∈ session.store.hub.members
  hears : (session.listener id).hearsExceeded = true

section Runs
variable {config : Config} {outer : Backend State} {session : Session State} {id : ListenerId}

theorem Announces.call_heard (h : Announces config outer) (hid : Attends id session) (c : Call) :
    Attends id (session.call outer c).2 ∧
      (session.call outer c).2.heardBy id =
        session.heardBy id ++ due c (session.call outer c).1 := by
  have hhub := h.hub c session.store
  have hmember : id ∈ (outer.call c session.store).2.hub.members := by
    rw [hhub]
    exact hid.member
  rw [Session.call_recording hid.records]
  refine ⟨⟨hid.records, hmember, hid.hears⟩, ?_⟩
  have hears (notice : Notice) : session.hears id notice := by
    cases notice with
    | valueChanged => trivial
    | storageExceeded => exact hid.hears
  unfold Session.heardBy
  dsimp only
  rw [List.filterMap_append, h.members, ← h.notices c session.store,
    Session.reports_toldTo (Hub.nodup _) hmember fun notice _ => hears notice]

/-- What happens next is heard of by all that attend, and they go on attending. -/
theorem Happening.occur_heard (h : Announces config outer) (hid : Attends id session)
    {happening : Happening} (hstays : happening ≠ .enrol (.unregister id)) :
    Attends id (happening.occur outer session).2 ∧
      (happening.occur outer session).2.heardBy id =
        session.heardBy id ++ allDue (happening.occur outer session).1 := by
  cases happening with
  | call c =>
    obtain ⟨hlater, hheard⟩ := h.call_heard hid c
    exact ⟨hlater, by simpa [occur, allDue] using hheard⟩
  | enrol request =>
    have hother : request ≠ .unregister id := fun he => hstays (he ▸ rfl)
    refine ⟨⟨hid.records, ?_, hid.hears⟩, (List.append_nil _).symm⟩
    change id ∈ (outer.enrol request session.store).2.hub.members
    rw [h.enrol]
    exact Hub.mem_enrol hid.member hother
  | disturb change => exact ⟨⟨hid.records, hid.member, hid.hears⟩, (List.append_nil _).symm⟩
  | setClock clock => exact ⟨⟨hid.records, hid.member, hid.hears⟩, (List.append_nil _).symm⟩

theorem conduct_heard (h : Announces config outer) (hid : Attends id session)
    {run : List Happening} (hstays : .enrol (.unregister id) ∉ run) :
    Attends id (conduct outer run session).2 ∧
      (conduct outer run session).2.heardBy id =
        session.heardBy id ++ allDue (conduct outer run session).1 := by
  induction run generalizing session with
  | nil => exact ⟨hid, (List.append_nil _).symm⟩
  | cons happening rest ih =>
    obtain ⟨hfirst, hrest⟩ := not_or.mp (mt List.mem_cons.mpr hstays)
    obtain ⟨hlater, hheard⟩ := Happening.occur_heard h hid (Ne.symm hfirst)
    obtain ⟨hlast, hall⟩ := ih hlater hrest
    refine ⟨hlast, ?_⟩
    unfold conduct
    dsimp only
    rw [hall, hheard, List.append_assoc]
    unfold allDue
    rw [List.flatMap_append]

/-- Under any stack of layers, whatever happens to the files and the clock, a listener that stays
registered hears of each accepted write once and of each write refused for a budget once, in the
order of the calls, and of nothing else. A write is refused so only if the budget named would be
exceeded. -/
theorem run_announced_once (config : Config) (layers : List Layer) (hrecords : session.OnlyRecords)
    (hmember : id ∈ session.store.hub.members) (hhears : (session.listener id).hearsExceeded = true)
    {run : List Happening} (hstays : .enrol (.unregister id) ∉ run) :
    let outer := Layer.stack layers (Quota.backend config)
    let done := conduct outer run session
    done.2.heardBy id = session.heardBy id ++ allDue done.1 ∧
      ∀ scope ns key value ttl verdict cause, verdict.refusal? = some cause →
        (done.2.call outer (.setValue scope ns key value ttl)).1 = .error cause →
          (done.2.call outer (.setValue scope ns key value ttl)).2.store.Refuses config ns key value
            verdict := by
  intro outer done
  have hannounces : Announces config outer := .stack config layers
  obtain ⟨hlast, hheard⟩ := conduct_heard hannounces ⟨hrecords, hmember, hhears⟩ hstays
  refine ⟨hheard, fun scope ns key value ttl verdict cause hrefusal he => ?_⟩
  rw [Session.call_recording hlast.records] at he ⊢
  exact hannounces.refused scope ns key value ttl _ verdict cause hrefusal he

/-- A write, the file removed, a write that reopens, one over the limit and one too long, with a
second listener joining on the way. -/
theorem run_announced_once_reopened :
    let config : Config := { path := "a.db", limit := 8, maxValue := 9 }
    let layers : List Layer := [.reconnect, .cache]
    let outer := Layer.stack layers (Quota.backend config)
    let session : Session State :=
      { store := { clock := .atSecond 50, hub := { members := ["watcher"] } } }
    let remove (site : Site) : Site := { site with slot := .missing }
    let run : List Happening := [
      .call (.setValue .device "ns" "key" "text" 5), .disturb remove,
      .enrol (.register "other"), .call (.setValue .device "ns" "key" "again" 0),
      .call (.setValue .device "ns" "key" "very long" 0), .setClock (.atSecond 60),
      .call (.setValue .device "ns" "key" "much too long" 0), .call (.getValue .device "ns" "key")]
    let done := conduct outer run session
    session.OnlyRecords ∧ "watcher" ∈ session.store.hub.members ∧
      (session.listener "watcher").hearsExceeded = true ∧
      .enrol (.unregister "watcher") ∉ run ∧
      allDue done.1 = [.valueChanged .device "ns" "key" "text",
        .valueChanged .device "ns" "key" "again", .storageExceeded .device "ns"] ∧
      done.2.heardBy "watcher" = session.heardBy "watcher" ++ allDue done.1 := by
  intro config layers outer session remove run done
  have hrecords : session.OnlyRecords := fun _ => rfl
  have hmember : "watcher" ∈ session.store.hub.members := by decide
  have hstays : .enrol (.unregister "watcher") ∉ run := by simp [run]
  refine ⟨hrecords, hmember, rfl, hstays, ?_, ?_⟩
  · unfold done run
    cbv
  · exact (run_announced_once config layers hrecords hmember rfl hstays).1

end Runs

end Device

end ScopedStore

import ScopedStore.Proofs.Device.Effects
import ScopedStore.Proofs.Listener.Recording

/-! Calls that fail. Whatever the files hold and however the connection stands to them, a failed
call takes away expired items at most and announces no change. -/
namespace ScopedStore.Device

/-- The same file, or the same tables less items that have expired. -/
def Image.Cleared (now : Int) (before after : Option Image) : Prop :=
  after = before ∨ ∃ version t, ∃ gone : ItemRow → Bool, before = some (.ready version t) ∧
    (∀ item, gone item = true → item.isExpired now = true) ∧
    after = some (.ready version { t with items := t.items.filter fun item => !gone item })

/-- No file loses more than expired items: not the one at the path, not the one at the side name,
and not the one that the connection holds. -/
structure Site.Cleared (now : Int) (before after : Site) : Prop where
  path : Image.Cleared now before.slot.content? after.slot.content?
  aside : Image.Cleared now before.aside.content? after.aside.content?
  connection : Image.Cleared now before.connected? after.connected?

namespace Site

variable {config : Config} {site site' : Site} {mode : JournalMode} {now : Int} {c : Call}

theorem Cleared.of_files {folder : Folder} {saw : Bool} :
    site.Cleared now { site with folder := folder, sawTables := saw } :=
  ⟨.inl rfl, .inl rfl, .inl rfl⟩

/-- Of the three files only the connected one changes, under each name it has. -/
theorem Cleared.writeBack {version : Option Int} {t : Tables} {gone : ItemRow → Bool} (saw : Bool)
    (hconnected : site.connected? = some (.ready version t))
    (hgone : ∀ item, gone item = true → item.isExpired now = true) :
    site.Cleared now
      ((site.seeing saw).writeBack (.ready version (t.keeping fun item => !gone item))) := by
  have hcleared {before : Option Image} (hbefore : before = some (.ready version t)) :
      Image.Cleared now before (some (.ready version (t.keeping fun item => !gone item))) :=
    .inr ⟨version, t, gone, hbefore, hgone, rfl⟩
  obtain ⟨folder, slot, aside, link, sawTables, settled, stray⟩ := site
  match link with
  | none => cases hconnected
  | some .current =>
    exact ⟨hcleared (Slot.content?_of_image? hconnected), .inl rfl, hcleared hconnected⟩
  | some .aside =>
    exact ⟨.inl rfl, hcleared (Slot.content?_of_image? hconnected), hcleared hconnected⟩
  | some (.orphan image) =>
    refine ⟨.inl ?_, .inl rfl, hcleared hconnected⟩
    unfold Site.writeBack seeing
    dsimp only
    split
    · exact slot.content?_under _
    · rfl

theorem Changed.cleared (h : site.Changed config now c false site') : site.Cleared now site' := by
  cases h with
  | kept saw harmless => exact .of_files
  | written saw connected effect =>
    cases effect with
    | refused gone expired => exact .writeBack saw connected expired

/-- Connecting fails without a trace in any file. -/
theorem connect_eq_error {cause : Error} (h : site.connect mode = (.error cause, site')) :
    ∃ folder, site' = { site with folder := folder } := by
  have hestablish {content : Database} {site : Site}
      (h : connect.establish mode content site = (.error cause, site')) : site' = site := by
    unfold connect.establish at h
    cases hs : content.setUp with
    | ok ready => rw [hs] at h; cases h
    | error other => rw [hs] at h; cases h; rfl
  unfold connect at h
  split at h
  · cases h
    exact ⟨site.folder, rfl⟩
  · dsimp only at h
    split at h
    · cases h
      exact ⟨.present, rfl⟩
    · cases h
      exact ⟨.present, rfl⟩
    · exact ⟨.present, hestablish h⟩
    · exact ⟨.present, hestablish h⟩
    · exact ⟨.present, hestablish h⟩

end Site

namespace Quota

variable {config : Config} {state state' : State}

theorem openStore_cleared {answer : Answer Unit} {cause : StoreError} (now : Int)
    (h : openStore config state = (answer, state')) (hfail : answer.result = .error cause) :
    state.site.Cleared now state'.site := by
  have hanswer : (openStore config state).1 = answer := congrArg Prod.fst h
  have hstate : (openStore config state).2 = state' := congrArg Prod.snd h
  rw [← hanswer, openStore_result] at hfail
  rw [← hstate, openStore_state]
  cases hc : state.site.connect config.journalMode with
  | mk result site =>
    cases result with
    | ok => rw [hc] at hfail; cases hfail
    | error cause =>
      obtain ⟨folder, rfl⟩ := Site.connect_eq_error hc
      exact .of_files

/-- A call that fails clears away expired items at most. -/
theorem call_cleared {c : Call} {answer : Answer c.Reply} {cause : StoreError}
    (h : (backend config).call c state = (answer, state')) (hfail : answer.result = .error cause) :
    state.site.Cleared state.clock.unixSeconds state'.site := by
  by_cases hc : c = .openStore
  · subst hc
    exact openStore_cleared _ h hfail
  · obtain ⟨site, rfl, hchanged⟩ := call_served hc h
    rw [hfail] at hchanged
    exact hchanged.cleared

theorem plain_notices {α : Type} {writing : Bool} {scope : Scope} {body : Tx StoreError α}
    {answer : Answer α} (h : plain writing scope body state = (answer, state')) :
    answer.notices = [] := by
  cases h
  rfl

theorem getValue_notices {scope : Scope} {ns key : String} {answer : Answer StoredValue}
    (h : getValue scope ns key state = (answer, state')) : answer.notices = [] := by
  unfold getValue at h
  dsimp only at h
  split at h
  · cases h; rfl
  · cases h; rfl
  · cases h; rfl
  · split at h <;> (cases h; rfl)

theorem setValue_notices {scope : Scope} {ns key value : String} {ttl : UInt32}
    {answer : Answer Unit} {cause : StoreError}
    (h : setValue config scope ns key value ttl state = (answer, state'))
    (hfail : answer.result = .error cause) :
    ∀ notice ∈ answer.notices, notice = .storageExceeded scope ns := by
  unfold setValue at h
  dsimp only at h
  split at h
  · cases h
    intro notice hnotice
    cases hnotice
  · cases h
    cases hfail
  · cases h
    intro notice hnotice
    exact List.mem_singleton.mp hnotice
  · cases h
    intro notice hnotice
    exact List.mem_singleton.mp hnotice

/-- A call that fails sends no notice of a change. -/
theorem failed_notices {c : Call} {answer : Answer c.Reply} {cause : StoreError}
    (h : (backend config).call c state = (answer, state')) (hfail : answer.result = .error cause) :
    ∀ notice ∈ answer.notices, ∃ scope ns, notice = .storageExceeded scope ns := by
  suffices answer.notices = [] ∨
      ∃ scope ns, ∀ notice ∈ answer.notices, notice = .storageExceeded scope ns by
    intro notice hnotice
    rcases this with hnone | ⟨scope, ns, hall⟩
    · rw [hnone] at hnotice
      cases hnotice
    · exact ⟨scope, ns, hall notice hnotice⟩
  unfold backend at h
  dsimp only at h
  split at h
  · cases h
    exact .inl rfl
  · cases c with
    | setValue scope ns key value ttl => exact .inr ⟨scope, ns, setValue_notices h hfail⟩
    | openStore | flushCache => cases h; exact .inl rfl
    | getValue scope ns key => exact .inl (getValue_notices h)
    | deleteKey scope ns key => exact .inl (plain_notices h)
    | deleteNamespace scope ns => exact .inl (plain_notices h)
    | setLimit scope ns size => exact .inl (plain_notices h)
    | getLimit scope ns => exact .inl (plain_notices h)
    | getKeys scope ns => exact .inl (plain_notices h)
    | getNamespaces scope => exact .inl (plain_notices h)
    | getSizes scope => exact .inl (plain_notices h)

end Quota

/-- A failed call leaves every file as it was, up to expired items, and no listener hears of a
change. -/
theorem failed_call_leaves_no_trace {config : Config} {session after : Session State} {c : Call}
    {cause : StoreError} (hrecords : session.OnlyRecords)
    (hfail : session.call (Quota.backend config) c = (.error cause, after)) :
    session.store.site.Cleared session.store.clock.unixSeconds after.store.site ∧
      ∃ added, after.events = session.events ++ added ∧
        ∀ id scope ns key value, Event.notified id (.valueChanged scope ns key value) ∉ added := by
  rw [Session.call_recording hrecords] at hfail
  obtain ⟨hresult, rfl⟩ := Prod.mk_inj.mp hfail
  refine ⟨Quota.call_cleared rfl hresult, _, rfl, fun id scope ns key value hheard => ?_⟩
  obtain ⟨_, _, notice, hnotice, he⟩ := Session.mem_reports hheard
  obtain ⟨scope', ns', rfl⟩ := Quota.failed_notices rfl hresult notice hnotice
  cases he

/-- A write over the limit of a namespace, on rows altered from outside: an expired item that
belongs to no namespace goes, the one in the way of the write stays. -/
theorem failed_call_leaves_no_trace_over_limit :
    let config : Config := { path := "a.db" }
    let kept : ItemRow := ⟨1, "key", "text", 7, none⟩
    let stale : ItemRow := ⟨9, "old", "gone", -4, some 50⟩
    let before : Tables := ⟨1, [⟨1, "ns", 2, some 8⟩], [kept, stale]⟩
    let session : Session State := { store := {
      clock := .atSecond 50
      site := { folder := .present, slot := .file (.ready (some 1) before), link := some .current }
      hub := { members := ["watcher"] } } }
    let after := (session.call (Quota.backend config) (.setValue .device "ns" "new" "text" 0)).2
    session.OnlyRecords ∧
      (session.call (Quota.backend config) (.setValue .device "ns" "new" "text" 0)).1 =
        .error Quota.namespaceFull ∧
      session.store.site.Cleared 50 after.store.site ∧
      after.store.site.slot = .file (.ready (some 1) { before with items := [kept] }) ∧
      after.events = [.notified "watcher" (.storageExceeded .device "ns")] := by
  intro config kept stale before session after
  have hrecords : session.OnlyRecords := fun _ => rfl
  have hfail : (session.call (Quota.backend config)
      (.setValue .device "ns" "new" "text" 0)).1 = .error Quota.namespaceFull := by cbv
  refine ⟨hrecords, hfail, ?_, by unfold after; cbv, by unfold after; cbv⟩
  exact (failed_call_leaves_no_trace hrecords (Prod.ext hfail rfl)).1
end ScopedStore.Device

import ScopedStore.Proofs.Device.Answers
import ScopedStore.Proofs.Device.Notices
import ScopedStore.Proofs.Listener.Reentrancy
import ScopedStore.Proofs.Time.Lifetimes

/-! Listeners that act on a write they are told of find it done. When a write is announced its
transaction is over, and a read through the outermost layer finds the entry with the lifetime it was
given. Nothing is assumed of the file: whatever it holds, a write that succeeds can be read back. -/
namespace ScopedStore

theorem Expiry.remaining_ofTtl_self (ttl : UInt32) {now : Int} (hnow : now < 2 ^ 62) :
    remaining (ofTtl ttl now) now = some ttl := by
  apply (remaining_ofTtl le_rfl hnow).mpr
  by_cases httl : ttl = 0
  · exact .inl ⟨httl, httl⟩
  · have hpos : ttl.toNat ≠ 0 := fun he => httl (UInt32.toNat_inj.mp he)
    exact .inr ⟨by omega, by omega⟩

namespace Device

namespace Tables

variable {t : Tables}

theorem itemRow?_withItem_self (t : Tables) (written : ItemRow) :
    (t.withItem written).itemRow? written.ns written.key = some written := by
  unfold withItem
  cases hr : t.itemRow? written.ns written.key with
  | none =>
    unfold itemRow? at hr ⊢
    simp only [Option.isSome_none, Bool.false_eq_true, if_false]
    rw [List.find?_append, hr]
    simp
  | some old =>
    have hsame : ((fun row : ItemRow => decide (row.ns = written.ns ∧ row.key = written.key)) ∘
        fun row => if row.ns = written.ns ∧ row.key = written.key then written else row) =
          fun row => decide (row.ns = written.ns ∧ row.key = written.key) := by
      funext row
      rw [Function.comp_apply]
      split
      next h => simp [h]
      next => rfl
    have hold : old.ns = written.ns ∧ old.key = written.key := (itemRow?_eq_some hr).2
    unfold itemRow? at hr ⊢
    simp only [Option.isSome_some, if_true]
    rw [List.find?_map, hsame, hr, Option.map_some, if_pos hold]

/-- A record that can be read can be read once its namespace is housed. -/
theorem namespaceRecord?_house {name : String} {found : Option NamespaceRecord}
    (h : t.namespaceRecord? name = .ok found) :
    ∃ record, (t.house name).namespaceRecord? name = .ok (some record) ∧
      record.id = (t.record name).id := by
  have hrow : (t.house name).namespaceRow? name = some (t.record name) := by
    rw [namespaceRow?_house, if_pos rfl]
  unfold Tables.namespaceRecord? at h ⊢
  rw [hrow]
  unfold record
  cases hr : t.namespaceRow? name with
  | none => exact ⟨_, rfl, rfl⟩
  | some row =>
    rw [hr] at h
    dsimp only [Option.getD_some] at h ⊢
    cases hl : row.limit with
    | none => exact ⟨_, rfl, rfl⟩
    | some number =>
      rw [hl] at h
      dsimp only at h ⊢
      cases hs : storedLimit number with
      | error cause =>
        rw [hs] at h
        cases h
      | ok limit => exact ⟨_, rfl, rfl⟩

end Tables

namespace Handle

variable {ε α : Type} {writing : Bool} {refuse : Error → ε} {scope : Scope} {body : Tx ε α}
  {site site' : Site} {image : Image}

theorem live_writeBack (h : live site = .ok image) (saw : Bool) (after : Image) :
    live ((site.seeing saw).writeBack after) = .ok after := by
  have hseen : (site.seeing saw).connected? = some image := live_eq_ok h
  have hconnected := Site.connected?_writeBack hseen after
  obtain ⟨folder, slot, aside, link, sawTables, settled, stray⟩ := site
  have hslot : slot ≠ .missing := by
    rintro rfl
    cases link <;> cases h
  have hkept (log : Option Tables) : slot.under log ≠ .missing :=
    mt Slot.under_eq_missing_iff.mp hslot
  unfold live
  rw [hconnected]
  match link with
  | none => cases h
  | some .current => rfl
  | some .aside => simp [Site.isOpen, Site.fileExists, Site.writeBack, Site.seeing, hslot]
  | some (.orphan other) =>
    unfold Site.writeBack Site.seeing
    dsimp only
    split <;> simp [Site.isOpen, Site.fileExists, hslot, hkept]

/-- A file that can be read can be read again once a transaction on it is over. -/
theorem live_after_transact {a : α} (h : transact writing refuse scope body site = (.ok a, site')) :
    scope = .device ∧ ∃ image after standing, body standing image = .ok (a, after) ∧
      live site' = .ok after := by
  unfold transact at h
  cases hstart : start writing scope site with
  | error cause =>
    rw [hstart] at h
    cases h
  | ok image =>
    obtain ⟨hscope, hlive⟩ := start_live hstart
    rw [hstart] at h
    dsimp only at h
    cases hb : body ⟨site.isMoved, site.sawTables⟩ image with
    | error cause =>
      rw [hb] at h
      cases h
    | ok found =>
      rw [hb] at h
      cases h
      exact ⟨hscope, image, found.2, _, hb, live_writeBack hlive _ _⟩

end Handle

namespace Quota
open Tx

variable {config : Config} {now : Int} {scope : Scope} {ns key value : String} {ttl : UInt32}
  {standing : Standing} {image after : Image} {state : State}

/-- An entry that was written is found, whatever else the tables hold. -/
theorem find_written
    (h : write config now ns key value ttl standing image = .ok (.applied, after)) :
    after ≠ .foreign ∧ ∃ id entry, entry.value = value ∧
      entry.expiresAt = Expiry.ofTtl ttl now ∧
      ∀ standing, find ns key standing after = .ok (.found id entry, after) := by
  obtain ⟨version, t, rfl, ⟨hrefuses, _⟩ | ⟨_, _, _, rfl⟩⟩ := write_eq_ok h
  · exact hrefuses.elim
  have hreadable : ∃ found, (t.purged now).namespaceRecord? ns = .ok found := by
    obtain ⟨_, _, hpurge, hrest⟩ := bind_eq_ok h
    obtain ⟨_, _, he, rfl⟩ := purgeExpired_eq_ok hpurge
    obtain ⟨rfl, rfl⟩ := Image.ready_inj he
    obtain ⟨found, _, hlookup, _⟩ := bind_eq_ok hrest
    exact ⟨found, (lift_query_eq_ok hlookup).2⟩
  obtain ⟨found, hfound⟩ := hreadable
  obtain ⟨record, hrecord, hid⟩ := Tables.namespaceRecord?_house hfound
  let stored := (t.purged now).put ns key value (Expiry.ofTtl ttl now)
  have hentry : stored.entryRecord? record.id key =
      .ok (some ⟨value, key.utf8ByteSize + value.utf8ByteSize, Expiry.ofTtl ttl now⟩) := by
    have hrow := Tables.itemRow?_withItem_self ((t.purged now).house ns)
      ⟨((t.purged now).record ns).id, key, value, key.utf8ByteSize + value.utf8ByteSize,
        Expiry.ofTtl ttl now⟩
    unfold Tables.entryRecord? stored Tables.put
    rw [hid, hrow]
    rfl
  refine ⟨by simp [Image.ready], record.id,
    ⟨value, key.utf8ByteSize + value.utf8ByteSize, Expiry.ofTtl ttl now⟩, rfl, rfl,
    fun standing => ?_⟩
  unfold find
  have hlookup : lift (Tx.namespace ns) standing (.ready version stored) =
      .ok (some record, .ready version stored) := query_ready hrecord
  have hlook : lift (Tx.entry record.id key) standing (.ready version stored) =
      .ok (some _, .ready version stored) := query_ready hentry
  rw [bind_of_ok hlookup]
  dsimp only
  rw [bind_of_ok hlook]
  rfl

/-- A write that is accepted can be read back at once. -/
theorem getValue_written
    (h : (setValue config scope ns key value ttl state).1.result = .ok ()) :
    scope = .device ∧ (state.clock.unixSeconds < 2 ^ 62 →
      (getValue .device ns key (setValue config scope ns key value ttl state).2).1.result =
        .ok ⟨value, ttl⟩) := by
  revert h
  unfold setValue transact
  dsimp only
  cases ht : Handle.transact true Error.toStoreError scope
      (write config state.clock.unixSeconds ns key value ttl) state.site with
  | mk result site =>
    cases result with
    | error cause => exact fun h => nomatch h
    | ok verdict =>
      cases verdict with
      | namespaceFull | storageFull => exact fun h => nomatch h
      | applied =>
        intro _
        obtain ⟨hscope, image, after, standing, hwrite, hlive⟩ := Handle.live_after_transact ht
        obtain ⟨hdatabase, id, entry, hvalue, hexpires, hfind⟩ := find_written hwrite
        refine ⟨hscope, fun hnow => ?_⟩
        have hread : (Handle.transact false Error.toStoreError .device (find ns key) site).1 =
            .ok (.found id entry) := by
          rw [Handle.transact_of_live hlive hdatabase, hfind]
          rfl
        unfold getValue transact
        dsimp only
        rw [hread]
        dsimp only
        rw [hexpires, Expiry.remaining_ofTtl_self ttl hnow, hvalue]
        rfl

theorem call_clock (config : Config) (c : Call) (state : State) :
    ((backend config).call c state).2.clock = state.clock := by
  obtain ⟨site, hstate⟩ := call_state config c state
  rw [hstate]

theorem call_written
    (h : ((backend config).call (.setValue scope ns key value ttl) state).1.result = .ok ()) :
    scope = .device ∧ (state.clock.unixSeconds < 2 ^ 62 →
      ((backend config).call (.getValue .device ns key)
        ((backend config).call (.setValue scope ns key value ttl) state).2).1.result =
          .ok ⟨value, ttl⟩) := by
  cases hcheck : checkCall config (.setValue scope ns key value ttl) with
  | error cause =>
    unfold backend at h
    dsimp only at h
    rw [hcheck] at h
    cases h
  | ok =>
    obtain ⟨hns, hkey, _⟩ := checkCall_setValue_iff.mp hcheck
    have hread : checkCall config (.getValue .device ns key) = .ok () :=
      checkNames_valid_iff.mpr ⟨hns, hkey⟩
    rw [call_valid hcheck] at h ⊢
    rw [call_valid hread]
    exact getValue_written h

end Quota

/-- Under any stack of layers, a write that is accepted is announced once, and it is done by then:
reading through the outermost layer gives the value with its whole lifetime. -/
theorem announced_write (config : Config) (layers : List Layer) (scope : Scope)
    (ns key value : String) (ttl : UInt32) (state : State) :
    let outer := Layer.stack layers (Quota.backend config)
    let made := outer.call (.setValue scope ns key value ttl) state
    (∀ scope' ns' key' value', .valueChanged scope' ns' key' value' ∈ made.1.notices →
      made.1.result = .ok ()) ∧
    (made.1.result = .ok () →
      scope = .device ∧ made.1.notices = [.valueChanged .device ns key value] ∧
      made.2.clock = state.clock ∧
      (state.clock.unixSeconds < 2 ^ 62 →
        (outer.call (.getValue .device ns key) made.2).1.result = .ok ⟨value, ttl⟩)) := by
  intro outer made
  have hannounces : Announces config outer := .stack config layers
  have hnotices : made.1.notices = due (.setValue scope ns key value ttl) made.1.result :=
    hannounces.notices _ state
  refine ⟨fun scope' ns' key' value' h => ?_, fun h => ?_⟩
  · cases hresult : made.1.result with
    | ok => rfl
    | error cause =>
      have hdue : due (.setValue scope ns key value ttl) (.error cause) =
          if cause = Quota.namespaceFull ∨ cause = Quota.globalFull then
            [.storageExceeded .device ns] else [] := rfl
      rw [hnotices, hresult, hdue] at h
      split at h
      · cases List.mem_singleton.mp h
      · cases h
  · obtain ⟨attempted, hclock, hresult, hafter⟩ :=
      Layer.stack_call_ok (Quota.call_clock config) layers rfl h
    obtain ⟨hscope, hread⟩ := Quota.call_written hresult
    rw [hafter] at hread
    refine ⟨hscope, ?_, ?_, fun hnow => ?_⟩
    · rw [hnotices, h]
      rfl
    · exact Layer.stack_keeps (Quota.call_clock config) layers _ state
    · rw [← hclock] at hnow
      have hanswer := hread hnow
      rw [Layer.stack_call_of_available layers rfl]
      · exact hanswer
      · intro reason
        rw [hanswer]
        exact nofun

/-- Under any stack of layers and whatever else happens to the store, a write made at any depth of
nested callbacks that is accepted is announced by one broadcast, and while that begins a read
through the outermost layer gives the value with its whole lifetime. Once a change is announced the
write succeeds, whatever the listeners do. -/
theorem listeners_see_committed_writes (config : Config) (layers : List Layer)
    {drift : State → State → Prop} {start last : State} {trail : Trail State}
    (run : Runs (Layer.stack layers (Quota.backend config)) drift .acting start trail last)
    {before : State} {scope : Scope} {ns key value : String} {ttl : UInt32}
    {result : Except StoreError Unit} {sent rest : Trail State}
    (hwithin : (Trail.called before (.setValue scope ns key value ttl) result sent rest).Within
      trail) :
    let outer := Layer.stack layers (Quota.backend config)
    let write : Call := .setValue scope ns key value ttl
    (result = .ok () → scope = .device ∧ ∃ after callbacks finished,
      sent = .broadcast after (.valueChanged .device ns key value) callbacks (.stop finished) ∧
      after.clock = before.clock ∧
      (before.clock.unixSeconds < 2 ^ 62 →
        (outer.call (.getValue .device ns key) after).1.result = .ok ⟨value, ttl⟩)) ∧
    (∀ after scope' ns' key' value' callbacks more,
      sent = .broadcast after (.valueChanged scope' ns' key' value') callbacks more →
        result = .ok ()) ∧
    ∀ (tell : ListenerId → Notice → Session State → Session State) (session : Session State),
      .valueChanged .device ns key value ∈ (session.perform outer write).1.notices →
        (session.callWith outer tell write).1 = .ok () ∧
        (session.store.clock.unixSeconds < 2 ^ 62 →
          ((session.perform outer write).2.callWith outer tell (.getValue .device ns key)).1 =
            .ok ⟨value, ttl⟩) := by
  intro outer write
  obtain ⟨hresult, middle, hsent⟩ := run.called_within hwithin
  obtain ⟨hannounced, haccepted⟩ := announced_write config layers scope ns key value ttl before
  refine ⟨fun hok => ?_, fun after scope' ns' key' value' callbacks more he => ?_,
    fun tell session hmem => ?_⟩
  · obtain ⟨hscope, hnotices, hclock, hread⟩ := haccepted (hresult.symm.trans hok)
    rw [hnotices] at hsent
    obtain ⟨callbacks, rfl⟩ := hsent.sent_single
    exact ⟨hscope, _, callbacks, middle, rfl, hclock, hread⟩
  · subst he
    rw [hresult]
    exact hannounced _ _ _ _ hsent.mem_of_sent
  · obtain ⟨hannounced, haccepted⟩ :=
      announced_write config layers scope ns key value ttl session.store
    have hok := hannounced _ _ _ _ hmem
    obtain ⟨_, _, _, hread⟩ := haccepted hok
    exact ⟨hok, hread⟩

/-- The file is gone, so that the first write reopens it; told of it, a listener writes a copy. -/
theorem listeners_see_committed_writes_nested :
    let config : Config := { path := "a.db" }
    let layers : List Layer := [.reconnect, .cache]
    let outer := Layer.stack layers (Quota.backend config)
    let start : State := { clock := .atSecond 50, hub := { members := ["echo"] } }
    let drift (_ _ : State) : Prop := False
    let first := (outer.call (.setValue .device "ns" "key" "text" 5) start).2
    let copy : Call := .setValue .device "ns" "copy" "text" 7
    ∃ sent trail last, Runs outer drift .acting start trail last ∧
      (Trail.called first copy (.ok ()) sent (.stop last)).Within trail ∧
      ∃ after callbacks finished,
        sent = .broadcast after (.valueChanged .device "ns" "copy" "text") callbacks
          (.stop finished) ∧
        (outer.call (.getValue .device "ns" "copy") after).1.result = .ok ⟨"text", 7⟩ := by
  intro config layers outer start drift first copy
  let write : Call := .setValue .device "ns" "key" "text" 5
  let last := (outer.call copy first).2
  let change (key : String) : Notice := .valueChanged .device "ns" key "text"
  have hwrite : (outer.call write start).1.notices = [change "key"] := by cbv
  have hcopy : (outer.call copy first).1.notices = [change "copy"] := by cbv
  have hresult : (outer.call copy first).1.result = .ok () := by cbv
  have hkeeps : outer.Keeps State.hub drift := (Quota.keeps config fun h => h.elim).stack layers
  have hfirst : outer.members first = ["echo"] := by rw [hkeeps.members, hkeeps.call]
  have hlast : outer.members last = ["echo"] := by
    rw [hkeeps.members, hkeeps.call, hkeeps.call]
  obtain ⟨callbacks, hcallbacks⟩ : ∃ callbacks,
      Runs outer drift (.telling (change "copy") (outer.members last)) last callbacks last := by
    rw [hlast]
    exact ⟨_, .told (.stop _) (.heard _ _)⟩
  let sent := Trail.broadcast last (change "copy") callbacks (.stop last)
  have hsent : Runs outer drift (.sending (outer.call copy first).1.notices) last sent last := by
    rw [hcopy]
    exact .sent hcallbacks (.silent _)
  let inside := Trail.called first copy (.ok ()) sent (.stop last)
  have hinside : Runs outer drift .acting first inside last := by
    unfold inside
    rw [← hresult]
    exact .called copy hsent (.stop _)
  let notified := Trail.broadcast first (change "key")
    (.told first "echo" (change "key") inside (.stop last)) (.stop last)
  have hnotified : Runs outer drift (.sending (outer.call write start).1.notices) first notified
      last := by
    rw [hwrite]
    refine .sent ?_ (.silent _)
    rw [hfirst]
    exact .told hinside (.heard _ _)
  have hrun := Runs.called write hnotified (.stop _)
  have hwithin : inside.Within notified := .inBroadcast (.inCallback .whole)
  refine ⟨sent, _, last, hrun, .inCall hwithin, ?_⟩
  obtain ⟨_, after, callbacks, finished, hbroadcast, hclock, hread⟩ :=
    (listeners_see_committed_writes config layers hrun (.inCall hwithin)).1 rfl
  exact ⟨after, callbacks, finished, hbroadcast, hread (by decide)⟩

end Device

end ScopedStore

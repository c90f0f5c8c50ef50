import ScopedStore.Device.Tampering
import ScopedStore.Proofs.Device.Admission

/-! Writes to rows whose numbers were altered from outside. All that is relied on is where the rows
are, which no alteration of a number touches. A number out of its range is not used: the write that
reads it fails and leaves the rows alone. -/
namespace ScopedStore.Device

theorem Effect.placed {config : Config} {now : Int} {t t' : Tables} {c : Call} {accepted : Bool}
    (h : Effect config now t c accepted t') (ht : t.Placed) : t'.Placed := by
  cases h with
  | answered => exact ht
  | refused gone => exact ht.keeping _
  | @stored ns key value ttl => exact (ht.keeping _).put ns key value _
  | @removed ns key => exact ht.remove ns key
  | @dropped ns => exact ht.drop ns
  | @assigned ns size => exact ht.assign ns size

namespace Tampering

variable {t : Tables}

theorem editNamespace_placed (h : t.Placed) (name : String) {edit : NamespaceRow → NamespaceRow}
    (hid : ∀ row, (edit row).id = row.id) : (editNamespace name edit t).Placed := by
  refine h.editRecords fun row => ?_
  split
  · exact hid row
  · rfl

theorem editItem_placed (h : t.Placed) (name key : String) {edit : ItemRow → ItemRow}
    (hplace : ∀ row, (edit row).place = row.place) : (editItem name key edit t).Placed := by
  unfold editItem
  cases t.namespaceRow? name with
  | none => exact h
  | some owner =>
    refine h.editItems fun row => ?_
    split
    · exact hplace row
    · rfl

theorem editTables_placed (h : t.Placed) (tampering : Tampering) :
    (tampering.editTables t).Placed := by
  cases tampering with
  | limit name | nameBytes name => exact editNamespace_placed h name fun _ => rfl
  | size name key | expires name key => exact editItem_placed h name key fun _ => rfl
  | version | noVersion => exact h

end Tampering

def Image.Placed : Image → Prop
  | .database content => ∀ t, content.tables = some t → t.Placed
  | .foreign => True

/-- Rows are placed in a file and in the log that hides it. -/
def Slot.Placed : Slot → Prop
  | .missing | .directory => True
  | .file image => image.Placed
  | .shadowed image log => image.Placed ∧ log.Placed

/-- Rows are placed in the file at the path and in the one that is connected. -/
structure Site.Placed (site : Site) : Prop where
  slot : site.slot.Placed
  connected : ∀ image, site.connected? = some image → image.Placed

theorem Slot.Placed.beside {image : Image} (h : image.Placed) {log : Option Tables}
    (hlog : ∀ t, log = some t → t.Placed) : (Slot.beside log image).Placed := by
  unfold Slot.beside
  cases log with
  | none => exact h
  | some t =>
    dsimp only
    split
    · exact h
    · exact ⟨h, hlog t rfl⟩

theorem Slot.Placed.under {slot : Slot} (h : slot.Placed) {log : Option Tables}
    (hlog : ∀ t, log = some t → t.Placed) : (slot.under log).Placed := by
  cases slot with
  | missing | directory => trivial
  | file image => exact beside h hlog
  | shadowed image shown => exact beside h.1 hlog

theorem Image.placed_tables {image : Image} (h : image.Placed) (t : Tables)
    (ht : image.tables? = some t) : t.Placed := by
  cases image with
  | database content => exact h t ht
  | foreign => cases ht

theorem Image.placed_ready {version : Option Int} {t : Tables} :
    (Image.ready version t).Placed ↔ t.Placed :=
  ⟨fun h => h t rfl, fun h _ he => Option.some.inj he ▸ h⟩

theorem Tampering.apply_placed {content : Database} (h : (Image.database content).Placed)
    (tampering : Tampering) : (Image.database (tampering.apply content)).Placed := by
  intro t ht
  obtain ⟨before, hbefore, rfl⟩ := Option.map_eq_some_iff.mp ht
  exact tampering.editTables_placed (h before hbefore)

theorem Database.setUp_placed {content ready : Database} (h : (Image.database content).Placed)
    (hready : content.setUp = .ok ready) : (Image.database ready).Placed := by
  obtain ⟨version, tables⟩ := content
  cases tables with
  | some t =>
    obtain rfl := setUp_eq_ok hready
    exact h
  | none =>
    intro t ht
    unfold setUp at hready
    dsimp only at hready
    split at hready
    · cases hready
      cases ht
      exact .empty rfl rfl
    · split at hready
      · cases hready
        cases ht
      · cases hready

namespace Site.Placed

variable {config : Config} {mode : JournalMode} {site site' : Site}

theorem withSlot (h : site.Placed) {image : Image} (himage : image.Placed) :
    Site.Placed { site with slot := .file image } where
  slot := himage
  connected other hother := by
    have hconnected := h.connected other
    obtain ⟨folder, slot, aside, link, saw, settled, stray⟩ := site
    match link with
    | none => cases hother
    | some .current =>
      cases hother
      exact himage
    | some .aside | some (.orphan held) => exact hconnected hother

theorem writeBack (h : site.Placed) {image : Image} (himage : image.Placed) :
    (site.writeBack image).Placed := by
  obtain ⟨folder, slot, aside, link, saw, settled, stray⟩ := site
  match link with
  | none => exact h
  | some .current => exact h.withSlot himage
  | some .aside =>
    refine ⟨h.slot, fun other hother => ?_⟩
    cases hother
    exact himage
  | some (.orphan held) =>
    refine ⟨?_, fun other hother => ?_⟩
    · unfold Site.writeBack
      dsimp only
      split
      · exact h.slot.under (Image.placed_tables himage)
      · exact h.slot
    · cases hother
      exact himage

theorem changed {now : Int} {c : Call} {accepted : Bool} (h : site.Placed)
    (hc : site.Changed config now c accepted site') : site'.Placed := by
  cases hc with
  | kept saw => exact ⟨h.slot, h.connected⟩
  | @written version t t' saw connected effect =>
    have hseeing : (site.seeing saw).Placed := ⟨h.slot, h.connected⟩
    have ht : t.Placed := Image.placed_ready.mp (h.connected _ connected)
    exact hseeing.writeBack (Image.placed_ready.mpr (effect.placed ht))

theorem disconnect (h : site.Placed) : site.disconnect.Placed :=
  ⟨h.slot, nofun⟩

theorem establish (h : site.Placed) {content : Database}
    (hcontent : (Image.database content).Placed) :
    (Site.connect.establish mode content site).2.Placed := by
  unfold Site.connect.establish
  cases hready : content.setUp with
  | error cause => exact h
  | ok ready =>
    have hplaced := Database.setUp_placed hcontent hready
    refine ⟨hplaced, fun image himage => ?_⟩
    cases himage
    exact hplaced

theorem connect (h : site.Placed) : (site.connect mode).2.Placed := by
  have hpresent : Site.Placed { site with folder := .present } := ⟨h.slot, h.connected⟩
  have hslot := h.slot
  unfold Site.connect
  split
  · exact h
  · dsimp only
    split
    · exact hpresent
    · exact hpresent
    · exact hpresent.establish fun _ ht => nomatch ht
    next content he =>
      rw [he] at hslot
      exact hpresent.establish hslot
    next image log he =>
      rw [he] at hslot
      exact hpresent.establish (Image.placed_ready.mpr hslot.2)

theorem tampered (h : site.Placed) (tampering : Tampering) :
    (site.editDatabase tampering.apply).Placed := by
  have hslot := h.slot
  unfold Site.editDatabase
  split
  next content he =>
    rw [he] at hslot
    exact h.withSlot (tampering.apply_placed hslot)
  next image log he =>
    rw [he] at hslot
    exact h.withSlot (tampering.apply_placed (Image.placed_ready.mpr hslot.2))
  next => exact h

end Site.Placed

/-- One thing that happens to a store, or to its rows from outside. -/
inductive Incident where
  | move (move : Move)
  | tamper (tampering : Tampering)

namespace Incident

variable {config : Config} {state : State}

def run (config : Config) : Incident → State → State
  | move m, state => m.run config state
  | tamper tampering, state => { state with site := state.site.editDatabase tampering.apply }

def runAll (config : Config) (incidents : List Incident) (state : State) : State :=
  incidents.foldl (fun state incident => incident.run config state) state

theorem run_placed (incident : Incident) (h : state.site.Placed) :
    (incident.run config state).site.Placed := by
  cases incident with
  | tamper tampering => exact h.tampered tampering
  | move m =>
    cases m with
    | enrol | setClock => exact h
    | close => exact h.disconnect
    | relaunch =>
      change (launch config state).2.2.site.Placed
      rw [launch_state]
      cases hvalid : Handle.validate config state.site with
      | ok =>
        rw [Handle.create_site hvalid]
        exact h.connect
      | error cause =>
        unfold Handle.create
        rw [hvalid]
        exact h
    | call c =>
      by_cases hopen : c = .openStore
      · subst hopen
        exact h.connect
      · obtain ⟨site, hstate, hchanged⟩ :=
          Quota.call_served hopen (Prod.eta ((Quota.backend config).call c state)).symm
        change ((Quota.backend config).call c state).2.site.Placed
        rw [hstate]
        exact h.changed hchanged

theorem runAll_placed (incidents : List Incident) (h : state.site.Placed) :
    (runAll config incidents state).site.Placed := by
  induction incidents generalizing state with
  | nil => exact h
  | cons incident rest ih => exact ih (incident.run_placed h)

end Incident

namespace Tables

variable {config : Config} {t : Tables} {ns key value : String}

/-- A number that a write reads is out of its range. The total is read only if the namespace has
room. -/
inductive Misreads (config : Config) (t : Tables) (ns key value : String) : Prop where
  | limit {number : Int} (own : t.limit? ns = some (some number))
      (range : number < 0 ∨ 2 ^ 32 ≤ number)
  | entry {item : ItemRow} (old : t.item? ns key = some item) (range : item.sizeBytes < 0)
  | usage (range : t.spent ns < 0 ∨ 2 ^ 63 ≤ t.spent ns)
  | total (fits : max 0 (t.spent ns - t.freed ns key) +
        (key.utf8ByteSize + value.utf8ByteSize) ≤ t.allowance config ns)
      (range : t.nameTotal + t.itemTotal < 0 ∨ 2 ^ 63 ≤ t.nameTotal + t.itemTotal)

/-- Where all else that a write reads is in range, the total is not. -/
theorem Misreads.total_of (h : t.Misreads config ns key value)
    (hlimit : 0 ≤ t.allowance config ns ∧ t.allowance config ns < 2 ^ 32)
    (hentry : 0 ≤ t.freed ns key) (husage : 0 ≤ t.spent ns ∧ t.spent ns < 2 ^ 63) :
    max 0 (t.spent ns - t.freed ns key) + (key.utf8ByteSize + value.utf8ByteSize) ≤
        t.allowance config ns ∧
      (t.nameTotal + t.itemTotal < 0 ∨ 2 ^ 63 ≤ t.nameTotal + t.itemTotal) := by
  cases h with
  | @limit number own range =>
    have hown : t.allowance config ns = number := by simp [allowance, own]
    omega
  | @entry item old range =>
    have hold : t.freed ns key = item.sizeBytes := by simp [freed_eq_getD, old]
    omega
  | usage range => omega
  | total fits range => exact ⟨fits, range⟩

end Tables

theorem Blameless.general {α : Type} {x : Except Error α} {cause : Error} (h : Blameless x)
    (he : x = .error cause) : ∃ detail, cause.toStoreError = .general detail := by
  cases cause with
  | unavailable reason => exact absurd he (h reason)
  | _ => exact ⟨_, rfl⟩

namespace Quota

variable {config : Config} {t : Tables} {version : Option Int} {standing : Standing}
  {ns key value : String} {ttl : UInt32} {α : Type}

/-- A statement reads what it asks for, or fails in general. -/
theorem query_or_general (first : String) (read : Tables → Except Error α)
    (hread : Blameless (read t)) :
    (∃ detail, lift (Tx.query first read) standing (.ready version t) =
        .error (.general detail)) ∨ ∃ a, read t = .ok a := by
  cases hr : read t with
  | ok a => exact .inr ⟨a, rfl⟩
  | error cause =>
    obtain ⟨detail, hdetail⟩ := hread.general hr
    exact .inl ⟨detail, hdetail ▸ Tx.query_failed hr⟩

/-- A write is reckoned with in range, or fails in general. -/
theorem reckon_or_general (ns key : String) (found : Option NamespaceRecord) :
    (∃ detail, reckon config ns key found standing (.ready version t) =
        .error (.general detail)) ∨
      ∃ old, reckon config ns key found standing (.ready version t) =
        .ok (old, .ready version t) ∧ old.usage < 2 ^ 63 := by
  cases found with
  | none => exact .inr ⟨_, rfl, by norm_num⟩
  | some record =>
    rcases query_or_general "items" (·.entryRecord? record.id key)
      (.entryRecord? t record.id key) with ⟨detail, hfail⟩ | ⟨entry, hentry⟩
    · exact .inl ⟨detail, Tx.bind_of_error hfail⟩
    have hlook : lift (Tx.entry record.id key) standing (.ready version t) =
        .ok (entry, .ready version t) := Tx.query_ready hentry
    unfold reckon
    dsimp only
    rw [Tx.bind_of_ok hlook]
    rcases query_or_general "items" (·.namespaceUsage record.id)
      (.namespaceUsage t record.id) with ⟨detail, hfail⟩ | ⟨usage, husage⟩
    · exact .inl ⟨detail, Tx.bind_of_error hfail⟩
    have hsum : lift (Tx.namespaceUsage record.id) standing (.ready version t) =
        .ok (usage, .ready version t) := Tx.query_ready husage
    rw [Tx.bind_of_ok hsum]
    exact .inr ⟨_, rfl, Tables.namespaceUsage_lt husage⟩

/-- A write that reads a number out of range fails in general. -/
theorem write_misread {now : Int} (hpurge : standing.isMoved = true → t.purged now = t)
    (h : (t.purged now).Misreads config ns key value) :
    ∃ detail, write config now ns key value ttl standing (.ready version t) =
      .error (.general detail) := by
  have hpurged : lift (Tx.purgeExpired now) standing (.ready version t) =
      .ok ((t.purgeExpired now).1, .ready version (t.purged now)) :=
    Tx.update_permitted (fun hmoved => ⟨hpurge hmoved, rfl⟩) rfl
  unfold write
  rw [Tx.bind_of_ok hpurged]
  generalize t.purged now = live at h ⊢
  rcases query_or_general "namespaces" (·.namespaceRecord? ns) (.namespaceRecord? live ns) with
    ⟨detail, hfail⟩ | ⟨found, hfound⟩
  · exact ⟨detail, Tx.bind_of_error hfail⟩
  obtain ⟨hid, hlimit⟩ := Tables.namespaceRecord?_eq_ok hfound
  have hlookup : lift (Tx.namespace ns) standing (.ready version live) =
      .ok (found, .ready version live) := Tx.query_ready hfound
  rw [Tx.bind_of_ok hlookup]
  rcases reckon_or_general ns key found with ⟨detail, hfail⟩ | ⟨old, hreckon, hrange⟩
  · exact ⟨detail, Tx.bind_of_error hfail⟩
  -- What has been read so far is in range, so the total is not, and there is room to come to it.
  obtain ⟨-, hreplaced, husage, hallowed, -⟩ := reckon_eq_ok hid hlimit hreckon
  have hword := old.limit.toNat_lt
  obtain ⟨hfits, htotal⟩ := h.total_of (by omega) (by omega) (by omega)
  rw [Tx.bind_of_ok hreckon, if_neg (by omega)]
  rcases query_or_general "namespaces" (·.globalUsage) (.globalUsage live) with
    ⟨detail, hfail⟩ | ⟨total, hsum⟩
  · exact ⟨detail, Tx.bind_of_error hfail⟩
  · have hexact := Tables.globalUsage_eq_ok hsum
    have hless := Tables.globalUsage_lt hsum
    omega

end Quota

section Writes
variable {config : Config} {ns key value : String} {ttl : UInt32}

theorem Effect.within_budgets {now : Int} {t t' : Tables}
    (h : Effect config now t (.setValue .device ns key value ttl) true t') (ht : t.Placed) :
    (t'.limit? ns).isSome ∧ t'.spent ns ≤ t'.allowance config ns ∧
      t'.nameTotal + t'.itemTotal ≤ config.maxSize.toNat := by
  cases h with
  | answered query => cases query
  | stored hns hkey hvalue fits room =>
    have hlive : (t.purged now).Placed := ht.keeping _
    refine ⟨?_, ?_, ?_⟩
    · rw [Tables.limit?_put, if_pos rfl]
      rfl
    · rw [hlive.spent_put_self, Tables.allowance_put]
      exact fits
    · rw [hlive.total_put]
      exact room

namespace Quota

variable {state : State}

/-- A write that is accepted leaves its namespace within its limit and everything within the
budget. -/
theorem setValue_within_budgets (hplaced : state.site.Placed)
    (hok : ((backend config).call (.setValue .device ns key value ttl) state).1.result = .ok ()) :
    let after := ((backend config).call (.setValue .device ns key value ttl) state).2
    ∃ version t, after.site.connected? = some (.ready version t) ∧
      (t.limit? ns).isSome ∧ t.spent ns ≤ t.allowance config ns ∧
        t.nameTotal + t.itemTotal ≤ config.maxSize.toNat := by
  intro after
  have hwrite : Call.setValue .device ns key value ttl ≠ .openStore := nofun
  obtain ⟨site, hstate, hchanged⟩ := call_served hwrite
    (Prod.eta ((backend config).call (.setValue .device ns key value ttl) state)).symm
  rw [hok] at hchanged
  unfold after
  rw [hstate]
  cases hchanged with
  | kept saw harmless => cases harmless rfl
  | @written version t t' saw connected effect =>
    have ht : t.Placed := Image.placed_ready.mp (hplaced.connected _ connected)
    have hseeing : (state.site.seeing saw).connected? = some (.ready version t) := connected
    exact ⟨version, t', Site.connected?_writeBack hseeing _, effect.within_budgets ht⟩

/-- A write that reads a number out of range changes nothing. Where the connected file was moved, it
comes to read them only if the purge before has nothing to write. -/
theorem setValue_misread {version : Option Int} {t : Tables}
    (hlive : Handle.live state.site = .ok (.ready version t))
    (hpurge : state.site.isMoved = true → t.purged state.clock.unixSeconds = t)
    (hcheck : checkCall config (.setValue .device ns key value ttl) = .ok ())
    (h : (t.purged state.clock.unixSeconds).Misreads config ns key value) :
    ∃ detail, (backend config).call (.setValue .device ns key value ttl) state =
      (.error (.general detail), state) := by
  have hfails : ∃ detail, write config state.clock.unixSeconds ns key value ttl
      ⟨state.site.isMoved, state.site.sawTables⟩ (.ready version t) = .error (.general detail) :=
    write_misread hpurge h
  obtain ⟨detail, hwrite⟩ := hfails
  refine ⟨detail, ?_⟩
  rw [call_valid hcheck]
  change setValue config .device ns key value ttl state = _
  have hfail : transact true .device (write config state.clock.unixSeconds ns key value ttl) state =
      (.error (.general detail), state) := by
    unfold transact Handle.transact
    rw [Handle.start_of_live hlive (by simp [Image.ready])]
    dsimp only
    rw [hwrite, state.site.look_ready version t]
  unfold setValue
  dsimp only
  rw [hfail]

end Quota

/-- Whatever numbers stand in the rows, a write that is accepted leaves its namespace within the
limit in force and everything within the budget, and one that reads a number out of its range fails
in general and changes nothing. -/
theorem altered_rows_within_budgets (config : Config) {session : Session State}
    (hrecords : session.OnlyRecords) (hplaced : session.store.site.Placed) (ns key value : String)
    (ttl : UInt32) :
    let c : Call := .setValue .device ns key value ttl
    let done := session.call (Quota.backend config) c
    let now := session.store.clock.unixSeconds
    (done.1 = .ok () → ∃ version t,
      done.2.store.site.connected? = some (.ready version t) ∧ (t.limit? ns).isSome ∧
        t.spent ns ≤ t.allowance config ns ∧
        t.nameTotal + t.itemTotal ≤ config.maxSize.toNat) ∧
    (∀ version t, Handle.live session.store.site = .ok (.ready version t) →
      (session.store.site.isMoved = true → t.purged now = t) →
      Quota.checkCall config c = .ok () → (t.purged now).Misreads config ns key value →
        (∃ detail, done.1 = .error (.general detail)) ∧ done.2.store = session.store) := by
  intro c done now
  have hdone : done = _ := Session.call_recording hrecords c
  rw [hdone]
  refine ⟨Quota.setValue_within_budgets hplaced, fun version t hlive hpurge hcheck hmisread => ?_⟩
  obtain ⟨detail, hfail⟩ := Quota.setValue_misread hlive hpurge hcheck hmisread
  rw [hfail]
  exact ⟨⟨detail, rfl⟩, rfl⟩

/-- Three alterations after a write: the name weighs less than nothing, the entry more than it does,
and the limit is what a longer value takes. The longer value is written. Once the entry weighs less
than nothing as well, it is not. -/
theorem altered_rows_within_budgets_negative :
    let config : Config := { path := "a.db", maxSize := 20 }
    let start : State := { clock := .atSecond 50 }
    let incidents : List Incident := [.move .relaunch,
      .move (.call (.setValue .device "ns" "key" "text" 0)), .tamper (.nameBytes "ns" (-30)),
      .tamper (.size "ns" "key" 50), .tamper (.limit "ns" (some 9))]
    let heavy : Session State := { store := Incident.runAll config incidents start }
    let light : Session State :=
      { store := (Incident.tamper (.size "ns" "key" (-1))).run config heavy.store }
    let c : Call := .setValue .device "ns" "key" "longer" 0
    heavy.store.site.Placed ∧ light.store.site.Placed ∧
      (heavy.call (Quota.backend config) c).1 = .ok () ∧
      (∃ version t, (heavy.call (Quota.backend config) c).2.store.site.connected? =
          some (.ready version t) ∧ t.spent "ns" ≤ t.allowance config "ns" ∧
        t.nameTotal + t.itemTotal ≤ config.maxSize.toNat) ∧
      (∃ detail, (light.call (Quota.backend config) c).1 = .error (.general detail)) ∧
      (light.call (Quota.backend config) c).2.store = light.store := by
  intro config start incidents heavy light c
  have hstart : start.site.Placed := ⟨trivial, nofun⟩
  have hheavy : heavy.store.site.Placed := Incident.runAll_placed incidents hstart
  have hlight : light.store.site.Placed := Incident.run_placed _ hheavy
  let rows (size : Int) : Tables := ⟨1, [⟨1, "ns", -30, some 9⟩], [⟨1, "key", "text", size, none⟩]⟩
  let site (size : Int) : Site :=
    { folder := .present, slot := .file (.ready (some 1) (rows size)), link := some .current }
  have hstored : heavy.store = { start with site := site 50 } := by
    unfold heavy incidents
    cbv
  have haltered : light.store = { start with site := site (-1) } := by
    unfold light
    rw [hstored]
    cbv
  have hrecords : heavy.OnlyRecords ∧ light.OnlyRecords := ⟨fun _ => rfl, fun _ => rfl⟩
  clear_value heavy light
  have hok : (heavy.call (Quota.backend config) c).1 = .ok () := by
    rw [Session.call_recording hrecords.1, hstored]
    cbv
  have hitem : (rows (-1)).item? "ns" "key" = some ⟨1, "key", "text", -1, none⟩ := by decide
  obtain ⟨hwithin, -⟩ :=
    altered_rows_within_budgets config hrecords.1 hheavy "ns" "key" "longer" 0
  obtain ⟨-, hmisread⟩ :=
    altered_rows_within_budgets config hrecords.2 hlight "ns" "key" "longer" 0
  obtain ⟨version, t, hconnected, -, hbudgets⟩ := hwithin hok
  rw [haltered] at hmisread ⊢
  have hplace : ¬ (site (-1)).isMoved = true := by decide
  have hfails := hmisread (some 1) (rows (-1)) rfl (fun hmoved => absurd hmoved hplace)
    (by decide +kernel) (.entry hitem (by decide))
  exact ⟨hheavy, haltered ▸ hlight, hok, ⟨version, t, hconnected, hbudgets⟩, hfails⟩

end Writes

end ScopedStore.Device

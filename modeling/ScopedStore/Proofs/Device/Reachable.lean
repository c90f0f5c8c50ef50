import ScopedStore.Proofs.Device.Effects

/-! The states that a store gets into from an empty database, whatever is asked of it and whatever
the clock reads, and the invariant of its rows: budgets hold because sizes are exact, names and keys
are unique and no item is left without a namespace. -/
namespace ScopedStore.Device

/-- One thing that happens to a store in use. -/
inductive Move where
  | call (c : Call)
  | enrol (request : Enrolment)
  | close
  | relaunch
  | setClock (clock : Clock)

def Move.run (config : Config) : Move → State → State
  | call c, state => ((Quota.backend config).call c state).2
  | enrol request, state => ((Quota.backend config).enrol request state).2
  | close, state => { state with site := (Handle.close config state.site).2 }
  | relaunch, state => (launch config state).2.2
  | setClock clock, state => { state with clock := clock }

/-- No file yet, an empty file, or tables without a row, as opening finds them. -/
def Slot.IsEmpty : Slot → Prop
  | .missing => True
  | .directory => False
  | .shadowed _ log => log.namespaces = [] ∧ log.items = []
  | .file image =>
    image = .database .blank ∨
      ∃ version t, image = .ready version t ∧ t.namespaces = [] ∧ t.items = []

inductive Reachable (config : Config) : State → Prop where
  | launched {start : State} (empty : start.site.slot.IsEmpty)
      (ok : (launch config start).1 = .ok ()) : Reachable config (launch config start).2.2
  | moved {state : State} (move : Move) (h : Reachable config state) :
      Reachable config (move.run config state)

/-- The site of a store in use: the tables are those of the file at its path, and a connection, if
there is one, is to that file. -/
structure Site.Stores (site : Site) (t : Tables) : Prop where
  folder : site.folder = .present
  slot : site.slot = .file (.ready (some 1) t)
  link : site.link = none ∨ site.link = some .current

theorem Tables.keeping_all (t : Tables) : (t.keeping fun _ => true) = t := by
  simp [keeping]

namespace Site.Stores

variable {config : Config} {site site' : Site} {mode : JournalMode} {t : Tables}

theorem changed {now : Int} {c : Call} {accepted : Bool} (h : site.Stores t)
    (hc : site.Changed config now c accepted site') :
    ∃ t', site'.Stores t' ∧ site'.link = site.link ∧ Effect config now t c accepted t' := by
  cases hc with
  | kept saw harmless =>
    refine ⟨t, ⟨h.folder, h.slot, h.link⟩, rfl, ?_⟩
    cases accepted with
    | true => exact .answered (harmless rfl)
    | false =>
      have hnone : Effect config now t c false (t.keeping fun _ => !false) :=
        .refused (fun _ => false) fun _ hgone => by cases hgone
      rwa [Bool.not_false, t.keeping_all] at hnone
  | @written version told t' saw connected effect =>
    rcases h.link with hlink | hlink
    · simp [connected?, hlink] at connected
    · simp only [connected?, hlink, h.slot, Slot.image?, Option.some.injEq] at connected
      obtain ⟨rfl, rfl⟩ := Image.ready_inj connected
      refine ⟨t', ?_, by simp [writeBack, seeing, hlink], effect⟩
      constructor <;> simp [writeBack, seeing, hlink, h.folder]

/-- A store in use can always be opened again, and opening loses nothing. -/
theorem connect (h : site.Stores t) :
    ∃ site', site.connect mode = (.ok (), site') ∧ site'.Stores t ∧
      site'.link = some .current := by
  obtain ⟨folder, slot, aside, link, saw, settled, stray⟩ := site
  obtain ⟨hfolder, hslot, hlink⟩ := h
  dsimp only at hfolder hslot
  subst hfolder hslot
  exact ⟨_, rfl, ⟨rfl, rfl, .inr rfl⟩, rfl⟩

theorem disconnect (h : site.Stores t) : site.disconnect.Stores t :=
  ⟨h.folder, h.slot, .inl rfl⟩

end Site.Stores

/-- A database that is set up has the current version and keeps the tables it has. -/
theorem Database.setUp_eq_ok {version : Option Int} {t : Tables} {ready : Database}
    (h : (⟨version, some t⟩ : Database).setUp = .ok ready) : ready = ⟨some 1, some t⟩ := by
  cases version with
  | none => cases h; rfl
  | some number =>
    unfold setUp at h
    dsimp only at h
    split at h
    next he =>
      cases h
      rw [he, schemaVersion]
    · cases h

theorem Site.establish_eq_ok {mode : JournalMode} {content : Database} {site site' : Site}
    (h : connect.establish mode content site = (.ok (), site')) :
    ∃ ready, content.setUp = .ok ready ∧
      site' = { site with
        slot := .file (.database ready)
        link := some .current
        sawTables := ready.tables.isSome
        settled := site.settledUnder mode } := by
  unfold connect.establish at h
  cases hs : content.setUp with
  | error cause => rw [hs] at h; cases h
  | ok ready =>
    rw [hs] at h
    cases h
    exact ⟨ready, rfl, rfl⟩

/-- The database that opening a slot sets up: a new one where there is none, and what a log tells
where one hides the file. -/
inductive Slot.Offers : Slot → Database → Prop where
  | missing : Offers .missing .blank
  | file (content : Database) : Offers (.file (.database content)) content
  | shadowed (image : Image) (log : Tables) : Offers (.shadowed image log) ⟨some 1, some log⟩

/-- The site once a connection is made to this database at the path. -/
def Site.opened (mode : JournalMode) (ready : Database) (site : Site) : Site :=
  { site with
    folder := .present
    slot := .file (.database ready)
    link := some .current
    sawTables := ready.tables.isSome
    settled := site.settledUnder mode }

/-- Connecting succeeds only by setting up the database at the path. -/
theorem Site.connect_eq_ok {mode : JournalMode} {site site' : Site}
    (h : site.connect mode = (.ok (), site')) :
    ∃ content ready, site.slot.Offers content ∧ content.setUp = .ok ready ∧
      site' = site.opened mode ready := by
  unfold connect at h
  split at h
  · cases h
  · dsimp only at h
    split at h
    · cases h
    · cases h
    next hslot =>
      obtain ⟨ready, hready, rfl⟩ := establish_eq_ok h
      exact ⟨.blank, ready, hslot ▸ .missing, hready, rfl⟩
    next content hslot =>
      obtain ⟨ready, hready, rfl⟩ := establish_eq_ok h
      exact ⟨content, ready, hslot ▸ .file content, hready, rfl⟩
    next image log hslot =>
      obtain ⟨ready, hready, rfl⟩ := establish_eq_ok h
      exact ⟨_, ready, hslot ▸ .shadowed image log, hready, rfl⟩

/-- Connecting to an empty database yields tables without a row. -/
theorem Site.connect_empty {mode : JournalMode} {site site' : Site} (hempty : site.slot.IsEmpty)
    (h : site.connect mode = (.ok (), site')) :
    ∃ t, site'.Stores t ∧ site'.link = some .current ∧ t.namespaces = [] ∧ t.items = [] := by
  obtain ⟨content, ready, hcontent, hready, rfl⟩ := connect_eq_ok h
  have hrows : content = .blank ∨
      ∃ version t, content = ⟨version, some t⟩ ∧ t.namespaces = [] ∧ t.items = [] := by
    generalize site.slot = slot at hempty hcontent
    cases hcontent with
    | missing => exact .inl rfl
    | shadowed image log => exact .inr ⟨_, log, rfl, hempty⟩
    | file content =>
      rcases hempty with he | ⟨version, t, he, hrows⟩
      · cases he
        exact .inl rfl
      · cases he
        exact .inr ⟨version, t, rfl, hrows⟩
  rcases hrows with rfl | ⟨version, t, rfl, hrows⟩
  · cases hready
    exact ⟨{}, ⟨rfl, rfl, .inr rfl⟩, rfl, rfl, rfl⟩
  · obtain rfl := Database.setUp_eq_ok hready
    exact ⟨t, ⟨rfl, rfl, .inr rfl⟩, rfl, hrows⟩

theorem Handle.create_result {config : Config} {site : Site}
    (h : validate config site = .ok ()) :
      (Handle.create config site).1 = (site.connect config.journalMode).1 := by
  unfold create
  rw [h]
  rfl

theorem Handle.create_site {config : Config} {site : Site}
    (h : validate config site = .ok ()) :
      (Handle.create config site).2.2 = (site.connect config.journalMode).2 := by
  unfold create
  rw [h]
  rfl

theorem launch_result (config : Config) (start : State) :
    (launch config start).1 = (Handle.create config start.site).1 := rfl

theorem launch_state (config : Config) (start : State) :
    (launch config start).2.2 =
      { start with site := (Handle.create config start.site).2.2 } := rfl

/-- A store launched on an empty database is in use and holds no row. -/
theorem launch_empty {config : Config} {start : State} (hempty : start.site.slot.IsEmpty)
    (h : (launch config start).1 = .ok ()) :
    ∃ t, (launch config start).2.2.site.Stores t ∧
      (launch config start).2.2.site.link = some .current ∧
      t.namespaces = [] ∧ t.items = [] := by
  rw [launch_result] at h
  rw [launch_state]
  cases hv : Handle.validate config start.site with
  | error cause =>
    unfold Handle.create at h
    rw [hv] at h
    cases h
  | ok =>
    rw [Handle.create_result hv] at h
    rw [Handle.create_site hv]
    exact Site.connect_empty hempty (Prod.ext h rfl)

/-- Launching again on the file of a store in use keeps its rows, whether or not it succeeds. -/
theorem launch_stores {config : Config} {state : State} {t : Tables} (h : state.site.Stores t) :
    (launch config state).2.2.site.Stores t := by
  rw [launch_state]
  cases hv : Handle.validate config state.site with
  | error cause =>
    unfold Handle.create
    rw [hv]
    exact h
  | ok =>
    obtain ⟨site, hconnect, hstores, _⟩ := h.connect
    rw [Handle.create_site hv, hconnect]
    exact hstores

namespace Quota

variable {config : Config} {state state' : State} {t : Tables}

theorem openStore_stores {answer : Answer Unit} (hs : state.site.Stores t)
    (h : openStore config state = (answer, state')) :
    answer.result = .ok () ∧ state'.site.Stores t ∧ state'.site.link = some .current := by
  obtain ⟨site, hconnect, hstores, hlink⟩ := hs.connect
  have hanswer : (openStore config state).1 = answer := congrArg Prod.fst h
  have hstate : (openStore config state).2 = state' := congrArg Prod.snd h
  rw [openStore_state, hconnect] at hstate
  subst hstate
  refine ⟨?_, hstores, hlink⟩
  rw [← hanswer, openStore_result, hconnect]
  rfl

/-- A call to a store in use has one effect on its tables, and the store stays in use. -/
theorem call_stores (config : Config) (hs : state.site.Stores t) (c : Call) :
    ∃ t', ((backend config).call c state).2.site.Stores t' ∧
      (state.site.link = some .current →
        ((backend config).call c state).2.site.link = some .current) ∧
      Effect config state.clock.unixSeconds t c
        ((backend config).call c state).1.result.isOk t' := by
  cases h : (backend config).call c state with
  | mk answer state' =>
    by_cases hc : c = .openStore
    · subst hc
      obtain ⟨hok, hstores, hlink⟩ := openStore_stores hs h
      exact ⟨t, hstores, fun _ => hlink, by rw [hok]; exact .answered rfl⟩
    · obtain ⟨site, rfl, hchanged⟩ := call_served hc h
      obtain ⟨t', hstores, hlink, heffect⟩ := hs.changed hchanged
      exact ⟨t', hstores, hlink.trans, heffect⟩

end Quota

/-- Every effect keeps the rows consistent and within the budget. -/
theorem Effect.sound {config : Config} {now : Int} {t t' : Tables} {c : Call} {accepted : Bool}
    (h : Effect config now t c accepted t') (ht : t.Sound config) : t'.Sound config := by
  cases h with
  | answered query => exact ht
  | refused gone expired => exact ht.keeping _
  | stored hns hkey hvalue fits room => exact (ht.keeping _).put hns hkey hvalue room _
  | removed => exact ht.remove _ _
  | dropped => exact ht.drop _
  | @assigned ns size hns room =>
    refine ht.assign hns ?_ size
    cases hr : t.namespaceRow? ns with
    | none => exact room hr
    | some row =>
      have := ht.within_budget
      simpa [Tables.nameCost, hr] using this

/-- A move keeps a store in use. Only calls change its rows, each by one effect. -/
theorem Move.run_stores (config : Config) {state : State} {t : Tables} (move : Move)
    (hs : state.site.Stores t) :
    ∃ t', (move.run config state).site.Stores t' ∧
      (t' = t ∨ ∃ c, move = .call c ∧ Effect config state.clock.unixSeconds t c
        ((Quota.backend config).call c state).1.result.isOk t') := by
  cases move with
  | call c =>
    obtain ⟨t', hs', _, heffect⟩ := Quota.call_stores config hs c
    exact ⟨t', hs', .inr ⟨c, rfl, heffect⟩⟩
  | enrol request => exact ⟨t, hs, .inl rfl⟩
  | close => exact ⟨t, hs.disconnect, .inl rfl⟩
  | relaunch => exact ⟨t, launch_stores hs, .inl rfl⟩
  | setClock clock => exact ⟨t, hs, .inl rfl⟩

/-- The invariant of every run: the file at the path holds sound tables. -/
theorem Reachable.stores {config : Config} {state : State} (h : Reachable config state) :
    ∃ t, state.site.Stores t ∧ t.Sound config := by
  induction h with
  | launched empty ok =>
    obtain ⟨t, hs, _, hn, hi⟩ := launch_empty empty ok
    exact ⟨t, hs, .empty hn hi⟩
  | moved move _ ih =>
    obtain ⟨t, hs, ht⟩ := ih
    obtain ⟨t', hs', rfl | ⟨c, _, heffect⟩⟩ := move.run_stores config hs
    · exact ⟨t', hs', ht⟩
    · exact ⟨t', hs', heffect.sound ht⟩

/-- Whatever is asked of a store and whatever the clock reads, its rows stay consistent and their
recorded bytes stay within the budget. -/
theorem reachable_rows_consistent {config : Config} {state : State} (h : Reachable config state) :
    ∃ t, state.site.slot = .file (.ready (some 1) t) ∧
      (t.namespaces.map (·.name)).Nodup ∧ (t.items.map fun item => (item.ns, item.key)).Nodup ∧
      (∀ item ∈ t.items, ∃ row ∈ t.namespaces, row.id = item.ns) ∧
      (∀ row ∈ t.namespaces,
        config.ValidName row.name ∧ row.nameBytes = row.name.utf8ByteSize) ∧
      (∀ item ∈ t.items, config.ValidName item.key ∧
        item.value.utf8ByteSize ≤ config.maxValue.toNat ∧
        item.sizeBytes = item.key.utf8ByteSize + item.value.utf8ByteSize) ∧
      (t.namespaces.map (·.nameBytes)).sum + (t.items.map (·.sizeBytes)).sum ≤
        config.maxSize.toNat := by
  obtain ⟨t, hs, ht⟩ := h.stores
  refine ⟨t, hs.slot, ht.names_distinct, ht.places_distinct, ht.owned, ?_, ?_, ht.within_budget⟩
  · intro row hrow
    exact ⟨ht.names_valid row hrow, ht.names_measured row hrow⟩
  · intro item hitem
    exact ⟨ht.keys_valid item hitem, ht.values_fit item hitem, ht.items_measured item hitem⟩

/-- A store of nine bytes, filled to the last one by a single write. -/
theorem reachable_rows_consistent_full :
    let config : Config := { path := "a.db", maxSize := 9 }
    let start : State := { clock := .atSecond 0 }
    let state := (Move.call (.setValue .device "ns" "key" "text" 5)).run config
      (launch config start).2.2
    start.site.slot.IsEmpty ∧ (launch config start).1 = .ok () ∧ Reachable config state ∧
      ∃ t, state.site.slot = .file (.ready (some 1) t) ∧
        (t.namespaces.map (·.nameBytes)).sum + (t.items.map (·.sizeBytes)).sum ≤ 9 := by
  intro config start state
  have hok : (launch config start).1 = .ok () := by cbv
  have hreach : Reachable config state := .moved _ (.launched trivial hok)
  obtain ⟨t, hslot, _, _, _, _, _, hbudget⟩ := reachable_rows_consistent hreach
  exact ⟨trivial, hok, hreach, t, hslot, hbudget⟩

end ScopedStore.Device

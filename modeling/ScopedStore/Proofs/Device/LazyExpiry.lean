import ScopedStore.Proofs.Device.Notices
import ScopedStore.Proofs.Device.Reconnection
import ScopedStore.Proofs.Device.Usage

/-! Lazy expiry against eager expiry. Had the expired items of a store in use been deleted before,
every call would answer the same, and leave the same behind up to expired items. -/
namespace ScopedStore.Device

namespace Tables

variable {config : Config} {t : Tables} {now : Int}

theorem purged_keeping (keep : ItemRow → Bool) :
    (t.keeping keep).purged now = (t.purged now).keeping keep := by
  unfold purged keeping
  dsimp only
  rw [List.filter_comm]

theorem purged_of_expired {gone : ItemRow → Bool}
    (h : ∀ item, gone item = true → item.isExpired now = true) :
    (t.keeping fun item => !gone item).purged now = t.purged now := by
  unfold purged keeping
  dsimp only
  rw [List.filter_filter]
  congr 2
  funext item
  cases hgone : gone item with
  | false => simp
  | true => simp [h item hgone]

theorem purged_purged : (t.purged now).purged now = t.purged now :=
  purged_of_expired fun _ => id

theorem purged_remove (name key : String) :
    (t.remove name key).purged now = (t.purged now).remove name key := by
  rw [remove_eq_keeping, remove_eq_keeping, purged_keeping]
  rfl

theorem purged_drop (name : String) : (t.drop name).purged now = (t.purged now).drop name := by
  have hrow : (t.purged now).namespaceRow? name = t.namespaceRow? name := rfl
  unfold drop deleteNamespace
  rw [hrow]
  cases t.namespaceRow? name with
  | none => rfl
  | some gone =>
    unfold purged keeping
    dsimp only
    rw [List.filter_comm]

theorem purged_assign (name : String) (limit : UInt32) :
    (t.assign name limit).purged now = (t.purged now).assign name limit := by
  have hrow : (t.purged now).namespaceRow? name = t.namespaceRow? name := rfl
  unfold assign house record
  rw [hrow]
  split <;> rfl

theorem pairwise_mergeSort_text {α : Type} (text : α → String) (rows : List α) :
    (rows.mergeSort fun a b => text a ≤ text b).Pairwise fun a b => text a ≤ text b := by
  have htrans (a b c : α) :
      decide (text a ≤ text b) = true → decide (text b ≤ text c) = true →
        decide (text a ≤ text c) = true := by
    simpa only [decide_eq_true_eq] using String.le_trans
  have htotal (a b : α) : (decide (text a ≤ text b) || decide (text b ≤ text a)) = true := by
    simpa using String.le_total (text a) (text b)
  have hsorted := List.pairwise_mergeSort htrans htotal rows
  simp only [decide_eq_true_eq] at hsorted
  exact hsorted

theorem itemsOf_sorted (t : Tables) (id : Int) :
    (t.itemsOf id).Pairwise fun a b => a.key ≤ b.key :=
  pairwise_mergeSort_text ItemRow.key _

theorem mem_itemsOf {id : Int} {item : ItemRow} :
    item ∈ t.itemsOf id ↔ item ∈ t.items ∧ item.ns = id := by
  unfold itemsOf
  rw [List.mem_mergeSort, List.mem_filter, decide_eq_true_eq]

/-- Listing leaves out what a purge deletes. Keys are unique within a namespace, so there is only
one order in which the rest can be listed. -/
theorem Sound.itemsOf_purged (h : t.Sound config) (id : Int) :
    (t.purged now).itemsOf id = t.liveItemsOf id now := by
  have hperm : ((t.purged now).itemsOf id).Perm (t.liveItemsOf id now) := by
    refine (List.mergeSort_perm _ _).trans ?_
    change ((t.items.filter fun item => !item.isExpired now).filter (·.ns = id)).Perm _
    rw [List.filter_comm]
    exact ((List.mergeSort_perm _ _).symm).filter _
  refine hperm.eq_of_pairwise (fun a b ha hb hab hba => ?_) ((t.purged now).itemsOf_sorted id)
    ((t.itemsOf_sorted id).filter _)
  obtain ⟨ha, hans⟩ := mem_itemsOf.mp ha
  obtain ⟨hb, hbns⟩ := mem_itemsOf.mp (List.mem_filter.mp hb).1
  exact h.item_eq_of_place (List.mem_filter.mp ha).1 hb (hans.trans hbns.symm)
    (String.le_antisymm hab hba)

theorem Sound.liveItemsOf_purged (h : t.Sound config) (id : Int) :
    (t.purged now).liveItemsOf id now = t.liveItemsOf id now := by
  unfold liveItemsOf
  rw [h.itemsOf_purged, liveItemsOf, List.filter_filter]
  simp

theorem Sound.sizes_purged (h : t.Sound config) : (t.purged now).sizes now = t.sizes now := by
  unfold sizes
  simp only [h.liveItemsOf_purged]
  rfl

end Tables

/-- Whether a call is accepted decides what it does to the tables, up to expired items. -/
theorem Effect.purged_eq {config : Config} {now : Int} {t t' u : Tables} {c : Call}
    {accepted : Bool} (h : Effect config now t c accepted t')
    (hu : Effect config now (t.purged now) c accepted u) : u.purged now = t'.purged now := by
  cases h with
  | answered query =>
    cases hu with
    | answered => exact Tables.purged_purged
    | stored | removed | dropped | assigned => cases query
  | refused gone expired =>
    cases hu with
    | refused again expired' =>
      rw [Tables.purged_of_expired expired, Tables.purged_of_expired expired']
      exact Tables.purged_purged
  | stored =>
    cases hu with
    | answered query => cases query
    | stored => rw [Tables.purged_purged]
  | removed =>
    cases hu with
    | answered query => cases query
    | removed => rw [Tables.purged_remove, Tables.purged_remove, Tables.purged_purged]
  | dropped =>
    cases hu with
    | answered query => cases query
    | dropped => rw [Tables.purged_drop, Tables.purged_drop, Tables.purged_purged]
  | assigned =>
    cases hu with
    | answered query => cases query
    | assigned => rw [Tables.purged_assign, Tables.purged_assign, Tables.purged_purged]

/-- The site with these tables in the file at its path. -/
def Site.holding (site : Site) (t : Tables) : Site :=
  { site with slot := .file (.ready (some 1) t) }

def State.holding (state : State) (t : Tables) : State :=
  { state with site := state.site.holding t }

/-- The site after the expired items at its path were deleted from outside. -/
def Site.purged (site : Site) (now : Int) : Site :=
  site.editDatabase fun content =>
    { content with tables := content.tables.map (·.purged now) }

/-- The state less all items that have expired by its clock. -/
def State.purged (state : State) : State :=
  { state with site := state.site.purged state.clock.unixSeconds }

theorem State.holding_self {state : State} {t : Tables} (h : state.site.Stores t) :
    state.holding t = state := by
  obtain ⟨clock, ⟨folder, slot, aside, link, saw, settled, stray⟩, hub⟩ := state
  obtain rfl : slot = .file (.ready (some 1) t) := h.slot
  rfl

/-- There is a record of the namespace. -/
def State.Knows (state : State) (ns : String) : Prop :=
  ∃ t, state.site.tables? = some t ∧ (t.namespaceRow? ns).isSome

namespace Site

variable {site : Site} {t : Tables}

theorem Stores.purged_eq (h : site.Stores t) (now : Int) :
    site.purged now = site.holding (t.purged now) := by
  unfold purged editDatabase
  rw [h.slot]
  rfl

theorem Serves.holding (h : site.Serves t) (u : Tables) : (site.holding u).Serves u :=
  ⟨⟨h.folder, rfl, h.link⟩, h.connected⟩

theorem Serves.connected?_eq (h : site.Serves t) :
    site.connected? = some (.ready (some 1) t) := by
  unfold connected?
  rw [h.connected]
  dsimp only
  rw [h.slot]
  rfl

theorem Serves.connect_eq (h : site.Serves t) (mode : JournalMode) :
    site.connect mode = (.ok (), { site.holding t with sawTables := true }) := by
  obtain ⟨folder, slot, aside, link, saw, settled, stray⟩ := site
  obtain ⟨⟨hfolder, hslot, _⟩, hlink⟩ := h
  dsimp only at hfolder hslot hlink
  subst hfolder hslot hlink
  rfl

/-- Of what a site is, a call changes the file that the connection holds and what the connection
knows of its tables. -/
theorem Changed.held_eq {config : Config} {now : Int} {c : Call} {accepted : Bool} {site' : Site}
    (h : site.Changed config now c accepted site') (hlink : site.link = some .current) :
    site' = { site with slot := site'.slot, sawTables := site'.sawTables } := by
  cases h with
  | kept saw harmless => rfl
  | written saw connected effect =>
    unfold writeBack seeing
    dsimp only
    rw [hlink]

theorem Serves.changed {config : Config} {now : Int} {c : Call} {accepted : Bool} {site' : Site}
    (h : site.Serves t) (hc : site.Changed config now c accepted site')
    (hsaw : site'.sawTables = site.sawTables) :
    ∃ t', site' = site.holding t' ∧ Effect config now t c accepted t' := by
  obtain ⟨t', hstores, -, heffect⟩ := h.toStores.changed hc
  refine ⟨t', ?_, heffect⟩
  rw [hc.held_eq h.connected, hstores.slot, hsaw]
  rfl

theorem writeBack_sawTables (site : Site) (image : Image) :
    (site.writeBack image).sawTables = site.sawTables := by
  unfold writeBack
  split <;> rfl

end Site

/-- A connection whose file has tables learns nothing new about them. -/
theorem Handle.transact_saw {ε α : Type} {site : Site} {version : Option Int} {t : Tables}
    (h : site.connected? = some (.ready version t)) (writing : Bool) (refuse : Error → ε)
    (scope : Scope) (body : Tx ε α) :
    (transact writing refuse scope body site).2.sawTables = site.sawTables := by
  unfold transact
  cases hs : start writing scope site with
  | error cause => rfl
  | ok image =>
    obtain ⟨_, hconnected⟩ := start_eq_ok hs
    obtain rfl : image = .ready version t := Option.some.inj (hconnected.symm.trans h)
    dsimp only
    split
    · exact Bool.and_true _
    · rw [Site.writeBack_sawTables]
      exact Bool.and_true _

namespace Quota

variable {config : Config} {state : State} {t : Tables} {c : Call}

theorem transact_kept {α : Type} {version : Option Int} {writing : Bool} {scope : Scope}
    {body : Tx StoreError α} (h : state.site.connected? = some (.ready version t))
    (hbody : ∀ {standing image a after}, body standing image = .ok (a, after) → after = image) :
    (transact writing scope body state).2 = state := by
  obtain ⟨saw, hstate⟩ :=
    transact_unchanged (Prod.eta (transact writing scope body state)).symm hbody
  have hsaw : (transact writing scope body state).2.site.sawTables = state.site.sawTables :=
    Handle.transact_saw h writing Error.toStoreError scope body
  rw [hstate] at hsaw ⊢
  obtain rfl : saw = state.site.sawTables := hsaw
  rfl

theorem serve_saw {version : Option Int} (h : state.site.connected? = some (.ready version t))
    (hc : c ≠ .openStore) : (serve config c state).2.site.sawTables = state.site.sawTables := by
  cases c with
  | openStore => exact absurd rfl hc
  | flushCache => rfl
  | setValue scope ns key value ttl =>
    simp only [serve, setValue]
    split <;> exact Handle.transact_saw h _ _ _ _
  | getValue scope ns key =>
    have hfind : (transact false scope (find ns key) state).2 = state :=
      transact_kept h find_unchanged
    simp only [serve, getValue]
    rw [hfind]
    split
    · rfl
    · rfl
    · rfl
    · split
      · rfl
      · exact Handle.transact_saw h _ _ _ _
  | deleteKey | deleteNamespace | setLimit | getLimit | getKeys | getNamespaces | getSizes =>
    exact Handle.transact_saw h _ _ _ _

theorem openStore_ready (hs : state.site.Serves t) :
    ((backend config).call .openStore state).1.result = .ok () := by
  obtain ⟨hok, _⟩ := openStore_stores hs.toStores (Prod.eta (openStore config state)).symm
  exact hok

/-- A call to a store in use changes the tables at its path and, if it opens, what the connection
knows of them. -/
theorem call_holding (config : Config) (hs : state.site.Serves t) (c : Call) :
    ∃ t', ((backend config).call c state).2 =
        { state with site := { state.site.holding t' with
            sawTables := state.site.sawTables || decide (c = .openStore) } } ∧
      Effect config state.clock.unixSeconds t c ((backend config).call c state).1.result.isOk
        t' := by
  by_cases hc : c = .openStore
  · subst hc
    have hstate : ((backend config).call .openStore state).2 =
        { state with site := (state.site.connect config.journalMode).2 } := openStore_state
    refine ⟨t, ?_, ?_⟩
    · rw [hstate, hs.connect_eq]
      simp
    · rw [openStore_ready hs]
      exact .answered rfl
  · have hsaw : ((backend config).call c state).2.site.sawTables = state.site.sawTables := by
      unfold backend
      dsimp only
      split
      · rfl
      · exact serve_saw hs.connected?_eq hc
    obtain ⟨site, hstate, hchanged⟩ :=
      call_served hc (Prod.eta ((backend config).call c state)).symm
    rw [hstate] at hsaw ⊢
    obtain ⟨t', rfl, heffect⟩ := hs.changed hchanged hsaw
    refine ⟨t', ?_, heffect⟩
    rw [decide_eq_false hc, Bool.or_false]
    rfl

/-- Statements see the same namespaces before and after a purge. -/
theorem lookup_purged (ht : t.Sound config) (now : Int) (ns : String) :
    ∃ found, found.map (·.id) = (t.namespaceRow? ns).map (·.id) ∧
      ∀ standing version,
        lift (Tx.namespace ns) standing (.ready version t) = .ok (found, .ready version t) ∧
          lift (Tx.namespace ns) standing (.ready version (t.purged now)) =
            .ok (found, .ready version (t.purged now)) := by
  obtain ⟨found, hfound⟩ := ht.namespaceRecord? ns
  have hpurged : (t.purged now).namespaceRecord? ns = .ok found := hfound
  exact ⟨found, (Tables.namespaceRecord?_eq_ok hfound).1,
    fun _ _ => ⟨Tx.query_ready hfound, Tx.query_ready hpurged⟩⟩

/-- A write purges before it looks at anything. -/
theorem write_purged (now : Int) (ns key value : String) (ttl : UInt32) (saw : Bool)
    (version : Option Int) :
    write config now ns key value ttl ⟨false, saw⟩ (.ready version t) =
      write config now ns key value ttl ⟨false, saw⟩ (.ready version (t.purged now)) := by
  have hpurge (u : Tables) : lift (Tx.purgeExpired now) ⟨false, saw⟩ (.ready version u) =
      .ok ((u.purgeExpired now).1, .ready version (u.purged now)) := Tx.update_ready rfl
  unfold write
  rw [Tx.bind_of_ok (hpurge t), Tx.bind_of_ok (hpurge (t.purged now)), Tables.purged_purged]

theorem assignLimit_ready (ht : t.Sound config) {ns : String}
    (hrow : (t.namespaceRow? ns).isSome) (size : UInt32) (saw : Bool) (version : Option Int) :
    ∃ after, assignLimit config ns size ⟨false, saw⟩ (.ready version t) = .ok ((), after) := by
  obtain ⟨found, hid, _, hlookup⟩ := lookup_ready ht ns
  obtain ⟨row, hr⟩ := Option.isSome_iff_exists.mp hrow
  rw [hr] at hid
  obtain ⟨record, rfl, _⟩ := Option.map_eq_some_iff.mp hid
  have hset : lift (Tx.setNamespaceLimit record.id size) ⟨false, saw⟩ (.ready version t) =
      .ok ((), .ready version (t.setNamespaceLimit record.id size)) := Tx.update_ready rfl
  refine ⟨.ready version (t.setNamespaceLimit record.id size), ?_⟩
  unfold assignLimit
  rw [Tx.bind_of_ok (hlookup _ _)]
  exact hset

theorem readLimit_purged (ht : t.Sound config) (now : Int) (ns : String) (standing : Standing)
    (version : Option Int) :
    (readLimit config ns standing (.ready version (t.purged now))).map Prod.fst =
      (readLimit config ns standing (.ready version t)).map Prod.fst := by
  obtain ⟨found, _, hlookup⟩ := lookup_purged ht now ns
  obtain ⟨hbefore, hafter⟩ := hlookup standing version
  unfold readLimit
  rw [Tx.bind_of_ok hbefore, Tx.bind_of_ok hafter]
  cases found <;> rfl

theorem query_purged {α : Type} {first : String} {read : Tables → Except Error α} {now : Int}
    (h : read (t.purged now) = read t) (standing : Standing) (version : Option Int) :
    (lift (Tx.query first read) standing (.ready version (t.purged now))).map Prod.fst =
      (lift (Tx.query first read) standing (.ready version t)).map Prod.fst := by
  rw [Tx.lift_query, Tx.lift_query, h]
  cases read t <;> rfl

theorem listKeys_purged (ht : t.Sound config) (now : Int) (ns : String) (standing : Standing)
    (version : Option Int) :
    (listKeys now ns standing (.ready version (t.purged now))).map Prod.fst =
      (listKeys now ns standing (.ready version t)).map Prod.fst := by
  obtain ⟨found, _, hlookup⟩ := lookup_purged ht now ns
  obtain ⟨hbefore, hafter⟩ := hlookup standing version
  unfold listKeys
  rw [Tx.bind_of_ok hbefore, Tx.bind_of_ok hafter]
  cases found with
  | none => rfl
  | some record =>
    refine query_purged ?_ standing version
    unfold Tables.liveKeys
    rw [ht.liveItemsOf_purged]

/-- A scope that the device store does not serve is refused before the file is looked at. -/
theorem serve_account (h : c.scope? = some .account) (state : State) :
    serve config c state =
      (.error (Error.foreignScope Scope.account.name).toStoreError, state) := by
  obtain ⟨α, writing, body, hbegins⟩ := serve_begins h state
  exact hbegins.failed _ _ rfl

theorem transact_holding {α : Type} {u : Tables} (hs : state.site.Serves t) (writing : Bool)
    {body : Tx StoreError α}
    (hbody : ∀ saw version, (body ⟨false, saw⟩ (.ready version u)).map Prod.fst =
      (body ⟨false, saw⟩ (.ready version t)).map Prod.fst) :
    (transact writing .device body (state.holding u)).1 =
      (transact writing .device body state).1 := by
  rw [transact_ready (hs.holding u), transact_ready hs]
  exact hbody _ _

theorem setValue_result {scope : Scope} {ns key value : String} {ttl : UInt32} {other : State}
    (h : (transact true scope (write config other.clock.unixSeconds ns key value ttl) other).1 =
      (transact true scope (write config state.clock.unixSeconds ns key value ttl) state).1) :
    (setValue config scope ns key value ttl other).1.result =
      (setValue config scope ns key value ttl state).1.result := by
  unfold setValue
  dsimp only
  rw [h]
  split <;> rfl

/-- An expired entry reads as a missing one, whether or not it is still there. -/
theorem getValue_purged (hs : state.site.Serves t) (ht : t.Sound config) {ns key : String}
    (hns : config.ValidName ns) (hkey : config.ValidName key) :
    ((backend config).call (.getValue .device ns key)
        (state.holding (t.purged state.clock.unixSeconds))).1.result =
      ((backend config).call (.getValue .device ns key) state).1.result := by
  have hpurged : (t.purged state.clock.unixSeconds).Sound config := ht.keeping _
  rw [getValue_answer (hs.holding _) hpurged hns hkey, getValue_answer hs ht hns hkey]
  have hitem : (t.purged state.clock.unixSeconds).item? ns key =
      (t.item? ns key).filter fun item => !item.isExpired state.clock.unixSeconds :=
    ht.item?_keeping _ ns key
  rw [hitem]
  cases hi : t.item? ns key with
  | none => rfl
  | some item =>
    have hknown : (t.limit? ns).isSome := by
      obtain ⟨row, hr, _⟩ := Option.bind_eq_some_iff.mp hi
      rw [Tables.limit?, hr]
      rfl
    have hgone : Expiry.remaining item.expiresAt state.clock.unixSeconds = none ↔
        item.isExpired state.clock.unixSeconds = true := Expiry.remaining_eq_none_iff
    have hlimit : ((t.purged state.clock.unixSeconds).limit? ns).isSome := hknown
    cases hexpired : item.isExpired state.clock.unixSeconds with
    | true =>
      have hfilter : (some item).filter (fun item => !item.isExpired state.clock.unixSeconds) =
          none := by simp [hexpired]
      rw [hfilter]
      dsimp only
      rw [hgone.mpr hexpired, hlimit]
      rfl
    | false =>
      have hfilter : (some item).filter (fun item => !item.isExpired state.clock.unixSeconds) =
          some item := by simp [hexpired]
      rw [hfilter]
      rfl

theorem serve_purged (hs : state.site.Serves t) (ht : t.Sound config)
    (hcheck : checkCall config c = .ok ()) (hscope : c.scope? = some .device)
    (hknown : ∀ ns size, c = .setLimit .device ns size → (t.namespaceRow? ns).isSome) :
    (serve config c (state.holding (t.purged state.clock.unixSeconds))).1.result =
      (serve config c state).1.result := by
  have hpurged : (t.purged state.clock.unixSeconds).Sound config := ht.keeping _
  cases c with
  | openStore | flushCache => cases hscope
  | setValue scope ns key value ttl =>
    cases hscope
    exact setValue_result (transact_holding hs true fun saw version =>
      congrArg (Except.map Prod.fst) (write_purged _ ns key value ttl saw version).symm)
  | getValue scope ns key =>
    cases hscope
    obtain ⟨hns, hkey⟩ := checkNames_valid_iff.mp hcheck
    rw [← call_valid hcheck, ← call_valid hcheck]
    exact getValue_purged hs ht hns hkey
  | deleteKey scope ns key =>
    cases hscope
    refine transact_holding hs true fun saw version => ?_
    obtain ⟨_, hbefore⟩ := removeKey_ready ht ns key saw version
    obtain ⟨_, hafter⟩ := removeKey_ready hpurged ns key saw version
    rw [hbefore, hafter]
    rfl
  | deleteNamespace scope ns =>
    cases hscope
    refine transact_holding hs true fun saw version => ?_
    obtain ⟨_, hbefore⟩ := removeNamespace_ready t ns saw version
    obtain ⟨_, hafter⟩ := removeNamespace_ready (t.purged state.clock.unixSeconds) ns saw version
    rw [hbefore, hafter]
    rfl
  | setLimit scope ns size =>
    cases hscope
    refine transact_holding hs true fun saw version => ?_
    obtain ⟨_, hbefore⟩ := assignLimit_ready ht (hknown ns size rfl) size saw version
    obtain ⟨_, hafter⟩ := assignLimit_ready hpurged (hknown ns size rfl) size saw version
    rw [hbefore, hafter]
    rfl
  | getLimit scope ns =>
    cases hscope
    exact transact_holding hs false fun saw version => readLimit_purged ht _ ns _ version
  | getKeys scope ns =>
    cases hscope
    exact transact_holding hs false fun saw version => listKeys_purged ht _ ns _ version
  | getNamespaces scope =>
    cases hscope
    exact transact_holding hs false fun saw version => query_purged rfl _ version
  | getSizes scope =>
    cases hscope
    exact transact_holding hs false fun saw version => query_purged ht.sizes_purged _ version

/-- No answer tells whether expired items were deleted beforehand. -/
theorem call_purged (hs : state.site.Serves t) (ht : t.Sound config)
    (hknown : ∀ ns size, c = .setLimit .device ns size → (t.namespaceRow? ns).isSome) :
    ((backend config).call c (state.holding (t.purged state.clock.unixSeconds))).1.result =
      ((backend config).call c state).1.result := by
  cases hcheck : checkCall config c with
  | error cause =>
    unfold backend
    dsimp only
    rw [hcheck]
  | ok =>
    cases hscope : c.scope? with
    | none =>
      cases c with
      | openStore => exact (openStore_ready (hs.holding _)).trans (openStore_ready hs).symm
      | flushCache => rfl
      | _ => cases hscope
    | some scope =>
      rw [call_valid hcheck, call_valid hcheck]
      cases scope with
      | device => exact serve_purged hs ht hcheck hscope hknown
      | account =>
        rw [serve_account hscope, serve_account hscope]

/-- What a call leaves behind tells no more than its answer. -/
theorem call_purged_state (hs : state.site.Serves t) (ht : t.Sound config)
    (hknown : ∀ ns size, c = .setLimit .device ns size → (t.namespaceRow? ns).isSome) :
    ((backend config).call c (state.holding (t.purged state.clock.unixSeconds))).2.purged =
      ((backend config).call c state).2.purged := by
  have heager : (state.holding (t.purged state.clock.unixSeconds)).site.Serves
      (t.purged state.clock.unixSeconds) := hs.holding _
  obtain ⟨t', hstate, heffect⟩ := call_holding config hs c
  obtain ⟨u, hstate', heffect'⟩ := call_holding config heager c
  rw [call_purged hs ht hknown] at heffect'
  have htables : u.purged state.clock.unixSeconds = t'.purged state.clock.unixSeconds :=
    heffect.purged_eq heffect'
  rw [hstate, hstate']
  exact congrArg (fun rows : Tables => { state with site := { state.site.holding rows with
    sawTables := state.site.sawTables || decide (c = Call.openStore) } }) htables

end Quota

/-- Launching again looks at the file as a whole, not at its items. -/
theorem launch_holding {config : Config} {state : State} {t : Tables} (hs : state.site.Serves t)
    (u : Tables) :
    (launch config (state.holding u)).1 = Handle.validate config state.site ∧
      (launch config (state.holding u)).2.2 =
        { state with site := { state.site.holding u with
            sawTables := state.site.sawTables || (Handle.validate config state.site).isOk } } := by
  have hsame : Handle.validate config (state.holding u).site =
      Handle.validate config state.site := by
    unfold Handle.validate
    rw [hs.slot]
    rfl
  rw [launch_result, launch_state, ← hsame]
  cases hv : Handle.validate config (state.holding u).site with
  | error cause =>
    unfold Handle.create
    rw [hv]
    refine ⟨rfl, ?_⟩
    rw [show (Except.error cause : Except Error Unit).isOk = false from rfl, Bool.or_false]
    rfl
  | ok =>
    have hconnect : (state.holding u).site.connect config.journalMode = _ :=
      (hs.holding u).connect_eq _
    rw [Handle.create_result hv, Handle.create_site hv, hconnect]
    refine ⟨rfl, ?_⟩
    rw [show (Except.ok () : Except Error Unit).isOk = true from rfl, Bool.or_true]
    rfl

/-- Whatever is done at the time of the purge is done up to expired items. -/
theorem Move.run_purged {config : Config} {state : State} {t : Tables} (hs : state.site.Serves t)
    (ht : t.Sound config) {move : Move} (hclock : ∀ clock, move ≠ .setClock clock)
    (hknown : ∀ ns size, move = .call (.setLimit .device ns size) → (t.namespaceRow? ns).isSome) :
    (move.run config (state.holding (t.purged state.clock.unixSeconds))).purged =
      (move.run config state).purged := by
  have hrows {move : Move} (after : Tables → State)
      (h : ∀ u, (move.run config (state.holding u)).purged =
        after (u.purged state.clock.unixSeconds)) :
      (move.run config (state.holding (t.purged state.clock.unixSeconds))).purged =
        (move.run config state).purged := by
    rw [h, Tables.purged_purged, ← h, State.holding_self hs.toStores]
  cases move with
  | call c => exact Quota.call_purged_state hs ht fun ns size he => hknown ns size (he ▸ rfl)
  | setClock clock => exact absurd rfl (hclock clock)
  | enrol request =>
    exact hrows (fun rows => { state.holding rows with hub := (state.hub.enrol request).2 })
      fun u => rfl
  | close =>
    exact hrows (fun rows => { state with site := (state.site.holding rows).disconnect })
      fun u => rfl
  | relaunch =>
    refine hrows (fun rows => { state with site := { state.site.holding rows with
      sawTables := state.site.sawTables || (Handle.validate config state.site).isOk } }) fun u => ?_
    change (launch config (state.holding u)).2.2.purged = _
    rw [(launch_holding hs u).2]
    rfl

/-- Expiring items lazily does not show. At any one time, had the expired items of a store in use
been deleted first, everything asked of it would give the same results, send the same notices and
leave the same behind up to expired items. Only a limit that makes a record for its namespace is
weighed against expired items too. -/
theorem lazy_expiry_invisible {config : Config} {session : Session State}
    (hrecords : session.OnlyRecords) (hreach : Reachable config session.store)
    (hopen : session.store.site.isOpen = true) :
    let outer := Quota.backend config
    let eager : Session State := { session with store := session.store.purged }
    (∀ c, (∀ ns size, c = .setLimit .device ns size → session.store.Knows ns) →
      (eager.call outer c).1 = (session.call outer c).1) ∧
    (∀ request, (eager.enrol outer request).1 = (session.enrol outer request).1) ∧
    (launch config eager.store).1 = (launch config session.store).1 ∧
    ∀ move, (∀ clock, move ≠ .setClock clock) →
      (∀ ns size, move = .call (.setLimit .device ns size) → session.store.Knows ns) →
      (Move.perform config move eager).events = (Move.perform config move session).events ∧
        (Move.perform config move eager).store.purged =
          (Move.perform config move session).store.purged := by
  intro outer eager
  obtain ⟨t, hstores, ht⟩ := hreach.stores
  have hs : session.store.site.Serves t := hstores.serves hopen
  have hpurged : session.store.purged =
      session.store.holding (t.purged session.store.clock.unixSeconds) := by
    unfold State.purged
    rw [hstores.purged_eq]
    rfl
  have hrow {ns : String} (h : session.store.Knows ns) : (t.namespaceRow? ns).isSome := by
    obtain ⟨known, htables, hrow⟩ := h
    cases hstores.tables?.symm.trans htables
    exact hrow
  have heager : eager.OnlyRecords := hrecords
  have hlaunch : (launch config eager.store).1 = (launch config session.store).1 := by
    change (launch config session.store.purged).1 = _
    rw [hpurged, (launch_holding hs _).1, ← (launch_holding hs t).1, State.holding_self hstores]
  have hresult (c : Call)
      (hknown : ∀ ns size, c = .setLimit .device ns size → session.store.Knows ns) :
      (outer.call c eager.store).1.result = (outer.call c session.store).1.result := by
    change (outer.call c session.store.purged).1.result = _
    rw [hpurged]
    exact Quota.call_purged hs ht fun ns size he => hrow (hknown ns size he)
  refine ⟨fun c hknown => ?_, fun request => rfl, hlaunch, fun move hclock hknown => ⟨?_, ?_⟩⟩
  · rw [Session.call_recording heager, Session.call_recording hrecords]
    exact hresult c hknown
  · cases move with
    | call c =>
      have hannounces : Announces config outer := Quota.announces config
      change (eager.call outer c).2.events = (session.call outer c).2.events
      rw [Session.call_recording heager, Session.call_recording hrecords]
      dsimp only
      unfold Session.reports
      rw [hannounces.notices, hannounces.notices, hannounces.members, hannounces.members,
        hannounces.hub, hannounces.hub, hresult c fun ns size he => hknown ns size (he ▸ rfl)]
      rfl
    | enrol | close | relaunch | setClock => rfl
  · rw [(move.perform_recording config heager).2, (move.perform_recording config hrecords).2]
    change (move.run config session.store.purged).purged = _
    rw [hpurged]
    exact Move.run_purged hs ht hclock fun ns size he => hrow (hknown ns size he)

/-- A limit is set on a namespace whose only entry has expired but was not deleted yet. -/
theorem lazy_expiry_invisible_stale :
    let config : Config := { path := "a.db" }
    let start : State := { clock := .atSecond 50 }
    let moves : List Move :=
      [.call (.setValue .device "ns" "key" "text" 5), .setClock (.atSecond 60)]
    let session : Session State :=
      { store := Move.runAll config moves (launch config start).2.2 }
    let eager : Session State := { session with store := session.store.purged }
    let c : Call := .setLimit .device "ns" 3
    session.OnlyRecords ∧ Reachable config session.store ∧ session.store.site.isOpen = true ∧
      (∀ ns size, c = .setLimit .device ns size → session.store.Knows ns) ∧
      session.store.usage "ns" = 7 ∧ eager.store.usage "ns" = 0 ∧
      (eager.call (Quota.backend config) c).1 = (session.call (Quota.backend config) c).1 := by
  intro config start moves session eager c
  have hrecords : session.OnlyRecords := fun _ => rfl
  have hok : (launch config start).1 = .ok () := by cbv
  have hlaunched : Reachable config (launch config start).2.2 := .launched trivial hok
  have hreach : Reachable config session.store := hlaunched.runAll moves
  have hsite : session.store.site = {
      folder := .present
      slot := .file (.ready (some 1) ⟨1, [⟨1, "ns", 2, none⟩], [⟨1, "key", "text", 7, some 55⟩]⟩)
      link := some .current } := by
    unfold session moves
    cbv
  have hnow : session.store.clock.unixSeconds = 60 := rfl
  have hopen : session.store.site.isOpen = true := by
    rw [hsite]
    rfl
  have hknown : ∀ ns size, c = .setLimit .device ns size → session.store.Knows ns := by
    intro ns size he
    obtain ⟨_, rfl, _⟩ : Scope.device = .device ∧ "ns" = ns ∧ 3 = size := Call.setLimit.inj he
    refine ⟨_, congrArg Site.tables? hsite, rfl⟩
  refine ⟨hrecords, hreach, hopen, hknown, ?_, ?_, ?_⟩
  · unfold State.usage
    rw [hsite]
    rfl
  · change (session.store.site.purged session.store.clock.unixSeconds).tables?.elim 0 _ = 0
    rw [hsite, hnow]
    rfl
  · exact (lazy_expiry_invisible hrecords hreach hopen).1 c hknown

end ScopedStore.Device

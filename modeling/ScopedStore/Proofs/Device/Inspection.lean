import ScopedStore.Proofs.Device.LazyExpiry
import ScopedStore.Proofs.Text.ByteOrder

/-! What a store tells of its content as a whole, against what it answers entry by entry. The listed
keys are those that can be read, the listed namespaces those that have a limit, and the reported
sizes add up what reads return; so together with the names they stay within the budget. -/
namespace ScopedStore.Device

/-- The bytes of the value that a read returned. -/
def readBytes : Except StoreError StoredValue → Nat
  | .ok found => found.value.utf8ByteSize
  | .error _ => 0

theorem ascending_bytes {texts : List String} (hsorted : texts.Pairwise (· ≤ ·))
    (hdistinct : texts.Nodup) : (texts.map Text.toBytes).Pairwise (· < ·) := by
  rw [List.pairwise_map]
  apply (hsorted.and hdistinct).imp
  intro a b ⟨hle, hne⟩
  apply Text.toBytes_lt
  apply String.not_le.mp
  intro hge
  exact hne (String.le_antisymm hle hge)

theorem mapM_eq_ok {α β ε : Type} {f : α → Except ε β} {g : α → β} {xs : List α}
    (h : ∀ x ∈ xs, f x = .ok (g x)) : xs.mapM f = .ok (xs.map g) := by
  induction xs with
  | nil => rfl
  | cons x xs ih =>
    have hrest : xs.mapM f = .ok (xs.map g) := ih fun y hy => h y (List.mem_cons_of_mem x hy)
    rw [List.mapM_cons, h x List.mem_cons_self, hrest]
    rfl

/-- Sums in range are taken: no partial sum exceeds the whole one, as nothing is negative. -/
theorem sumStored_of_nonneg {numbers : List Int} (hnonneg : ∀ number ∈ numbers, 0 ≤ number)
    (hsum : numbers.sum < 2 ^ 63) : sumStored numbers = .ok numbers.sum := by
  unfold sumStored
  suffices ∀ start : Int, 0 ≤ start → start + numbers.sum < 2 ^ 63 →
      numbers.foldlM (fun total number =>
        let next := total + number
        if fitsWord next then Except.ok next else .error Error.sumOverflow) start =
          .ok (start + numbers.sum) by
    simpa using this 0 le_rfl (by simpa using hsum)
  clear hsum
  induction numbers with
  | nil =>
    intro start _ _
    simp
    rfl
  | cons number rest ih =>
    intro start hstart hsum
    have hnumber : 0 ≤ number := hnonneg number List.mem_cons_self
    have hrest : ∀ other ∈ rest, 0 ≤ other := fun other ho =>
      hnonneg other (List.mem_cons_of_mem number ho)
    have hpositive : 0 ≤ rest.sum := List.sum_nonneg hrest
    rw [List.sum_cons] at hsum ⊢
    have hfits : fitsWord (start + number) = true := fitsWord_iff.mpr (by omega)
    simp only [List.foldlM_cons, hfits, if_true]
    change rest.foldlM _ (start + number) = _
    rw [ih hrest (start + number) (by omega) (by omega), add_assoc]

/-- A number is counted at most once among distinct identifiers. -/
theorem sum_once_le {ids : List Int} (hdistinct : ids.Nodup) (id : Int) {bytes : Int}
    (hbytes : 0 ≤ bytes) : (ids.map fun other => if id = other then bytes else 0).sum ≤ bytes := by
  induction ids with
  | nil => simpa using hbytes
  | cons other rest ih =>
    obtain ⟨hother, hrest⟩ := List.nodup_cons.mp hdistinct
    rw [List.map_cons, List.sum_cons]
    split
    next he =>
      subst he
      have hnone : (rest.map fun other => if id = other then bytes else 0).sum = 0 := by
        apply List.sum_eq_zero
        intro number hnumber
        obtain ⟨other, hmem, rfl⟩ := List.mem_map.mp hnumber
        rw [if_neg]
        rintro rfl
        exact hother hmem
      omega
    next => have := ih hrest; omega

theorem sum_filed_le {ids : List Int} (hdistinct : ids.Nodup) {items : List ItemRow}
    (hnonneg : ∀ item ∈ items, 0 ≤ item.sizeBytes) :
    (ids.map fun id => ((items.filter (·.ns = id)).map (·.sizeBytes)).sum).sum ≤
      (items.map (·.sizeBytes)).sum := by
  induction items with
  | nil => simp
  | cons item rest ih =>
    have hitem : 0 ≤ item.sizeBytes := hnonneg item List.mem_cons_self
    have hrest := ih fun other ho => hnonneg other (List.mem_cons_of_mem item ho)
    have honce := sum_once_le hdistinct item.ns hitem
    have hsplit (id : Int) : (((item :: rest).filter (·.ns = id)).map (·.sizeBytes)).sum =
        (if item.ns = id then item.sizeBytes else 0) +
          ((rest.filter (·.ns = id)).map (·.sizeBytes)).sum := by
      rw [List.filter_cons]
      split
      next he => simp [of_decide_eq_true he]
      next hne => simp [of_decide_eq_false (Bool.eq_false_iff.mpr hne)]
    simp only [hsplit]
    rw [List.sum_map_add, List.map_cons, List.sum_cons]
    omega

namespace Tables

variable {config : Config} {t : Tables} {now : Int}

/-- The live items of a namespace by ascending key. -/
def live (t : Tables) (name : String) (now : Int) : List ItemRow :=
  (t.namespaceRow? name).elim [] fun row => t.liveItemsOf row.id now

theorem mem_liveItemsOf {id : Int} {item : ItemRow} :
    item ∈ t.liveItemsOf id now ↔
      (item ∈ t.items ∧ item.ns = id) ∧ item.isExpired now = false := by
  unfold liveItemsOf
  rw [List.mem_filter, mem_itemsOf, Bool.not_eq_true']

theorem liveItemsOf_sublist (t : Tables) (id now : Int) :
    (t.liveItemsOf id now).Sublist (t.itemsOf id) := List.filter_sublist

/-- The live bytes of a namespace are among its recorded ones. -/
theorem Sound.live_le_usage (h : t.Sound config) (id : Int) :
    ((t.liveItemsOf id now).map (·.sizeBytes)).sum ≤ t.usage id := by
  have hall : ((t.itemsOf id).map (·.sizeBytes)).sum = t.usage id :=
    ((List.mergeSort_perm _ _).map _).sum_eq
  rw [← hall]
  apply ((t.liveItemsOf_sublist id now).map _).sum_le_sum
  intro bytes hbytes
  obtain ⟨item, hitem, rfl⟩ := List.mem_map.mp hbytes
  exact h.sizeBytes_nonneg (mem_itemsOf.mp hitem).1

/-- Every item counts for the namespace that it is filed under and for no other. -/
theorem Sound.usages_le_total (h : t.Sound config) :
    (t.namespaces.map fun row => t.usage row.id).sum ≤ t.itemTotal := by
  have hsum := sum_filed_le h.ids_distinct fun item hitem => h.sizeBytes_nonneg hitem
  rw [List.map_map] at hsum
  exact hsum

theorem Sound.keys_ascending (h : t.Sound config) (id : Int) :
    (((t.liveItemsOf id now).map (·.key)).map Text.toBytes).Pairwise (· < ·) := by
  apply ascending_bytes
  · rw [List.pairwise_map]
    exact (t.itemsOf_sorted id).sublist (t.liveItemsOf_sublist id now)
  · have hnodup : (t.liveItemsOf id now).Nodup := by
      apply ((List.mergeSort_perm _ _).nodup_iff.mpr _).sublist (t.liveItemsOf_sublist id now)
      exact (List.Nodup.of_map _ h.places_distinct).filter _
    apply hnodup.map_on
    intro a ha b hb he
    obtain ⟨⟨ha, hans⟩, _⟩ := mem_liveItemsOf.mp ha
    obtain ⟨⟨hb, hbns⟩, _⟩ := mem_liveItemsOf.mp hb
    exact h.item_eq_of_place ha hb (hans.trans hbns.symm) he

theorem Sound.live_ascending (h : t.Sound config) (name : String) :
    (((t.live name now).map (·.key)).map Text.toBytes).Pairwise (· < ·) := by
  unfold live
  cases t.namespaceRow? name with
  | none => exact .nil
  | some row => exact h.keys_ascending row.id

theorem Sound.mem_live (h : t.Sound config) {name : String} {item : ItemRow} :
    item ∈ t.live name now ↔
      t.item? name item.key = some item ∧ item.isExpired now = false := by
  unfold live item?
  cases t.namespaceRow? name with
  | none => simp
  | some row =>
    rw [Option.elim_some, Option.bind_some, mem_liveItemsOf,
      itemRow?_eq_some_iff h.places_distinct]
    simp

theorem Sound.mem_of_mem_live (h : t.Sound config) {name : String} {item : ItemRow}
    (hitem : item ∈ t.live name now) : item ∈ t.items :=
  (item?_eq_some (h.mem_live.mp hitem).1).1

theorem Sound.mem_live_keys (h : t.Sound config) {name key : String} :
    key ∈ (t.live name now).map (·.key) ↔
      ∃ item, t.item? name key = some item ∧ item.isExpired now = false := by
  rw [List.mem_map]
  constructor
  · rintro ⟨item, hitem, rfl⟩
    exact ⟨item, h.mem_live.mp hitem⟩
  · rintro ⟨item, hitem, hlive⟩
    obtain rfl := (item?_eq_some hitem).2
    exact ⟨item, h.mem_live.mpr ⟨hitem, hlive⟩, rfl⟩

theorem sortedNamespaces_perm (t : Tables) : t.sortedNamespaces.Perm t.namespaces :=
  List.mergeSort_perm _ _

theorem Sound.names_ascending (h : t.Sound config) :
    (t.names.map Text.toBytes).Pairwise (· < ·) := by
  apply ascending_bytes
  · unfold names
    rw [List.pairwise_map]
    exact pairwise_mergeSort_text NamespaceRow.name t.namespaces
  · exact ((t.sortedNamespaces_perm.map _).nodup_iff).mpr h.names_distinct

theorem mem_names {name : String} : name ∈ t.names ↔ (t.limit? name).isSome := by
  unfold names limit?
  rw [(t.sortedNamespaces_perm.map _).mem_iff, List.mem_map, Option.isSome_map]
  unfold namespaceRow?
  simp

theorem Sound.names_listed_valid (h : t.Sound config) {name : String} (hname : name ∈ t.names) :
    config.ValidName name := by
  unfold names at hname
  obtain ⟨row, hrow, rfl⟩ := List.mem_map.mp hname
  exact h.names_valid row (t.sortedNamespaces_perm.mem_iff.mp hrow)

theorem Sound.live_eq (h : t.Sound config) {row : NamespaceRow} (hrow : row ∈ t.namespaces) :
    t.live row.name now = t.liveItemsOf row.id now := by
  have hfound : t.namespaceRow? row.name = some row := by
    cases hr : t.namespaceRow? row.name with
    | none => exact absurd rfl (namespaceRow?_eq_none hr row hrow)
    | some other =>
      obtain ⟨hother, hname⟩ := namespaceRow?_eq_some hr
      rw [h.row_eq_of_name hother hrow hname]
  unfold live
  rw [hfound, Option.elim_some]

def liveBytes (t : Tables) (name : String) (now : Int) : Int :=
  ((t.live name now).map (·.sizeBytes)).sum

/-- The live bytes of the namespaces by ascending name. -/
def report (t : Tables) (now : Int) : List NamespaceSize :=
  t.sortedNamespaces.map fun row => ⟨row.name, UInt64.ofNat (t.liveBytes row.name now).toNat⟩

theorem Sound.live_sizes_nonneg (h : t.Sound config) (name : String) :
    ∀ bytes ∈ (t.live name now).map (·.sizeBytes), 0 ≤ bytes := by
  intro bytes hbytes
  obtain ⟨item, hitem, rfl⟩ := List.mem_map.mp hbytes
  exact h.sizeBytes_nonneg (h.mem_of_mem_live hitem)

theorem Sound.liveBytes_nonneg (h : t.Sound config) (name : String) : 0 ≤ t.liveBytes name now :=
  List.sum_nonneg (h.live_sizes_nonneg name)

theorem Sound.liveBytes_le_spent (h : t.Sound config) (name : String) :
    t.liveBytes name now ≤ t.spent name := by
  unfold liveBytes live spent
  cases t.namespaceRow? name with
  | none => simp
  | some row => exact h.live_le_usage row.id

/-- Measured by keys and values, the live bytes are what they are recorded as. -/
theorem Sound.liveBytes_eq (h : t.Sound config) (name : String) :
    t.liveBytes name now =
      (((t.live name now).map fun item => item.key.utf8ByteSize + item.value.utf8ByteSize).sum :
        Nat) := by
  unfold liveBytes
  rw [Nat.cast_list_sum, List.map_map]
  congr 1
  apply List.map_congr_left
  intro item hitem
  rw [h.items_measured item (h.mem_of_mem_live hitem)]
  simp

theorem Sound.size_exact (h : t.Sound config) (hspent : ∀ name, t.spent name < 2 ^ 63)
    (name : String) :
    (UInt64.ofNat (t.liveBytes name now).toNat).toNat = (t.liveBytes name now).toNat := by
  apply UInt64.toNat_ofNat_of_lt'
  have hle : t.liveBytes name now ≤ t.spent name := h.liveBytes_le_spent name
  have hlt := hspent name
  change (t.liveBytes name now).toNat < 2 ^ 64
  omega

/-- Within the range of a sum the report can always be made. -/
theorem Sound.sizes_eq (h : t.Sound config) (hspent : ∀ name, t.spent name < 2 ^ 63) :
    t.sizes now = .ok (t.report now) := by
  have hrow {row : NamespaceRow} (hrow : row ∈ t.sortedNamespaces) : row ∈ t.namespaces :=
    t.sortedNamespaces_perm.mem_iff.mp hrow
  have hsums : (t.sortedNamespaces.mapM fun row => (do
      let total ← sumStored ((t.liveItemsOf row.id now).map (·.sizeBytes))
      pure (row.name, total) : Except Error (String × Int))) =
        .ok (t.sortedNamespaces.map fun row => (row.name, t.liveBytes row.name now)) := by
    apply mapM_eq_ok
    intro row hmem
    rw [← h.live_eq (hrow hmem), sumStored_of_nonneg (h.live_sizes_nonneg row.name)]
    · rfl
    · exact (h.liveBytes_le_spent row.name).trans_lt (hspent row.name)
  unfold sizes
  rw [hsums]
  change (List.map _ _).mapM _ = _
  rw [List.mapM_map]
  apply mapM_eq_ok
  intro row hmem
  have hbytes : storedBytes (t.liveBytes row.name now) = .ok (t.liveBytes row.name now).toNat :=
    if_neg (not_lt.mpr (h.liveBytes_nonneg row.name))
  change (storedBytes (t.liveBytes row.name now) >>= _) = _
  rw [hbytes]
  rfl

/-- What is reported adds up, together with the names, to no more than the budget. -/
theorem Sound.report_within_budget (h : t.Sound config) (hspent : ∀ name, t.spent name < 2 ^ 63) :
    ((t.report now).map (·.size.toNat)).sum + (t.names.map (·.utf8ByteSize)).sum ≤
      config.maxSize.toNat := by
  have hsizes : (t.report now).map (·.size.toNat) =
      t.sortedNamespaces.map fun row => (t.liveBytes row.name now).toNat := by
    unfold report
    rw [List.map_map]
    apply List.map_congr_left
    intro row hrow
    exact h.size_exact hspent row.name
  have hlive : ((((t.report now).map (·.size.toNat)).sum : Nat) : Int) ≤ t.itemTotal := by
    have heach : ∀ row ∈ t.sortedNamespaces,
        ((t.liveBytes row.name now).toNat : Int) ≤ t.usage row.id := by
      intro row hrow
      rw [Int.toNat_of_nonneg (h.liveBytes_nonneg row.name)]
      unfold liveBytes
      rw [h.live_eq (t.sortedNamespaces_perm.mem_iff.mp hrow)]
      exact h.live_le_usage row.id
    rw [hsizes, Nat.cast_list_sum, List.map_map]
    apply (List.sum_le_sum heach).trans
    rw [(t.sortedNamespaces_perm.map _).sum_eq]
    exact h.usages_le_total
  have hnames : (((t.names.map (·.utf8ByteSize)).sum : Nat) : Int) = t.nameTotal := by
    unfold names nameTotal
    rw [List.map_map, (t.sortedNamespaces_perm.map _).sum_eq, Nat.cast_list_sum, List.map_map]
    congr 1
    apply List.map_congr_left
    intro row hrow
    exact (h.names_measured row hrow).symm
  have hbudget := h.within_budget
  omega

theorem Sound.allowance_lt (h : t.Sound config) (name : String) :
    t.allowance config name < 2 ^ 32 := by
  have hown := config.limit.toNat_lt
  unfold allowance limit?
  cases hr : t.namespaceRow? name with
  | none => simpa using hown
  | some row =>
    cases hl : row.limit with
    | none => simpa [hl] using hown
    | some number =>
      obtain ⟨_, hlt⟩ := h.limits_fit row (namespaceRow?_eq_some hr).1 number hl
      simpa [hl] using hlt

end Tables

/-- A namespace never holds more than some limit allowed, so what it holds is in range of a sum. -/
theorem Reachable.usage_lt {config : Config} {state : State} (h : Reachable config state)
    (ns : String) : state.usage ns < 2 ^ 32 := by
  induction h with
  | launched empty ok =>
    obtain ⟨t, hs, _, _, hitems⟩ := launch_empty empty ok
    rw [State.usage_eq hs, Tables.spent_eq_sum]
    have hnone : t.filed ns = [] := by
      apply List.eq_nil_iff_forall_not_mem.mpr
      intro item hitem
      have hmem := Tables.mem_of_mem_filed hitem
      rw [hitems] at hmem
      cases hmem
    rw [hnone]
    simp
  | @moved state move h ih =>
    obtain ⟨t, hs, ht⟩ := (h.moved move).stores
    have hlimit := ht.allowance_lt ns
    rw [← State.limit_eq hs] at hlimit
    have hmax := h.usage_le_max move ns
    omega

namespace Quota

variable {config : Config} {state : State} {t : Tables}

theorem getKeys_answer (hs : state.site.Serves t) (ht : t.Sound config) {ns : String}
    (hns : config.ValidName ns) :
    ((backend config).call (.getKeys .device ns) state).1.result =
      .ok ((t.live ns state.clock.unixSeconds).map (·.key)) := by
  have hcheck : checkCall config (.getKeys .device ns) = .ok () := checkName_eq_ok_iff.mpr hns
  obtain ⟨found, hid, _, hlookup⟩ := lookup_ready ht ns
  rw [call_valid hcheck]
  change (transact false .device (listKeys state.clock.unixSeconds ns) state).1 = _
  rw [transact_ready hs]
  unfold listKeys Tables.live
  rw [Tx.bind_of_ok (hlookup _ _)]
  cases hr : t.namespaceRow? ns with
  | none =>
    obtain rfl := Option.map_eq_none_iff.mp (hr ▸ hid)
    rfl
  | some row =>
    obtain ⟨record, rfl, hrow⟩ := Option.map_eq_some_iff.mp (hr ▸ hid)
    dsimp only
    have hkeys : lift (Tx.keys record.id state.clock.unixSeconds) ⟨false, state.site.sawTables⟩
        (.ready (some 1) t) = .ok (_, .ready (some 1) t) := Tx.query_ready rfl
    rw [hkeys, hrow]
    rfl

theorem getNamespaces_answer (hs : state.site.Serves t) :
    ((backend config).call (.getNamespaces .device) state).1.result = .ok t.names := by
  change (transact false .device (lift Tx.namespaces) state).1 = _
  rw [transact_ready hs]
  rfl

theorem getSizes_answer (hs : state.site.Serves t) (ht : t.Sound config)
    (hspent : ∀ name, t.spent name < 2 ^ 63) :
    ((backend config).call (.getSizes .device) state).1.result =
      .ok (t.report state.clock.unixSeconds) := by
  have hsizes : lift (Tx.namespaceSizes state.clock.unixSeconds) ⟨false, state.site.sawTables⟩
      (.ready (some 1) t) = .ok (_, .ready (some 1) t) := Tx.query_ready (ht.sizes_eq hspent)
  change (transact false .device (lift (Tx.namespaceSizes state.clock.unixSeconds)) state).1 = _
  rw [transact_ready hs, hsizes]
  rfl

/-- A call that succeeds obeys the length rules. -/
theorem checkCall_of_ok {c : Call} {reply : c.Reply}
    (h : ((backend config).call c state).1.result = .ok reply) : checkCall config c = .ok () := by
  unfold backend at h
  dsimp only at h
  cases hcheck : checkCall config c with
  | ok => rfl
  | error cause =>
    rw [hcheck] at h
    cases h

/-- A live entry is read as it is stored. -/
theorem getValue_live (hs : state.site.Serves t) (ht : t.Sound config) {ns : String}
    (hns : config.ValidName ns) {item : ItemRow}
    (hitem : item ∈ t.live ns state.clock.unixSeconds) :
    ∃ ttl, ((backend config).call (.getValue .device ns item.key) state).1.result =
      .ok ⟨item.value, ttl⟩ := by
  obtain ⟨hstored, hlive⟩ := ht.mem_live.mp hitem
  have hkey : config.ValidName item.key := ht.keys_valid item (ht.mem_of_mem_live hitem)
  rw [getValue_answer hs ht hns hkey, hstored]
  dsimp only
  cases hrest : Expiry.remaining item.expiresAt state.clock.unixSeconds with
  | none =>
    have hexpired : item.isExpired state.clock.unixSeconds = true :=
      Expiry.remaining_eq_none_iff.mp hrest
    rw [hlive] at hexpired
    cases hexpired
  | some ttl => exact ⟨ttl, rfl⟩

/-- Only a live entry is read. -/
theorem live_of_getValue (hs : state.site.Serves t) (ht : t.Sound config) {ns key : String}
    (hns : config.ValidName ns) {found : StoredValue}
    (h : ((backend config).call (.getValue .device ns key) state).1.result = .ok found) :
    key ∈ (t.live ns state.clock.unixSeconds).map (·.key) := by
  have hkey : config.ValidName key := (checkNames_valid_iff.mp (checkCall_of_ok h)).2
  rw [getValue_answer hs ht hns hkey] at h
  apply ht.mem_live_keys.mpr
  cases hitem : t.item? ns key with
  | none =>
    rw [hitem] at h
    cases h
  | some item =>
    refine ⟨item, rfl, ?_⟩
    rw [hitem] at h
    dsimp only at h
    cases hexpired : item.isExpired state.clock.unixSeconds with
    | false => rfl
    | true =>
      rw [Expiry.remaining_eq_none_iff.mpr hexpired] at h
      cases h

/-- The listed keys are those that can be read, and they tell how much a namespace holds. -/
theorem getKeys_agrees (hs : state.site.Serves t) (ht : t.Sound config) {ns : String}
    (hns : config.ValidName ns) :
    let read key := ((backend config).call (.getValue .device ns key) state).1.result
    let keys := (t.live ns state.clock.unixSeconds).map (·.key)
    (∀ key, key ∈ keys ↔ ∃ found, read key = .ok found) ∧
      t.liveBytes ns state.clock.unixSeconds =
        ((keys.map fun key => key.utf8ByteSize + readBytes (read key)).sum : Nat) := by
  intro read keys
  constructor
  · intro key
    constructor
    · intro hkey
      obtain ⟨item, hitem, rfl⟩ := List.mem_map.mp hkey
      obtain ⟨ttl, hread⟩ := getValue_live hs ht hns hitem
      exact ⟨_, hread⟩
    · rintro ⟨found, hread⟩
      exact live_of_getValue hs ht hns hread
  · rw [ht.liveBytes_eq, List.map_map]
    congr 2
    apply List.map_congr_left
    intro item hitem
    obtain ⟨ttl, hread⟩ := getValue_live hs ht hns hitem
    have hbytes : readBytes (read item.key) = item.value.utf8ByteSize := by
      unfold read
      rw [hread]
      rfl
    rw [Function.comp_apply, hbytes]

/-- The listed namespaces are those that have a limit. -/
theorem getLimit_agrees (hs : state.site.Serves t) (ht : t.Sound config) (ns : String) :
    let limit := ((backend config).call (.getLimit .device ns) state).1.result
    (ns ∈ t.names ↔ ∃ size, limit = .ok size) ∧
      (config.ValidName ns → (ns ∈ t.names ↔ limit ≠ .error .notExist)) := by
  intro limit
  rw [Tables.mem_names]
  by_cases hns : config.ValidName ns
  · rcases getLimit_answer hs ht hns with ⟨hnone, hanswer⟩ | ⟨own, hsome, hanswer⟩
    · have hlimit : limit = .error .notExist := hanswer
      rw [hlimit, hnone]
      simp
    · have hlimit : limit = .ok (own.getD config.limit) := hanswer
      rw [hlimit, hsome]
      simp
  · refine ⟨?_, fun h => absurd h hns⟩
    constructor
    · intro hname
      exact absurd (ht.names_listed_valid (Tables.mem_names.mpr hname)) hns
    · rintro ⟨size, hok⟩
      exact absurd (checkName_eq_ok_iff.mp (checkCall_of_ok hok)) hns

end Quota

/-- In every state of an open store and whatever the clock reads: the listed keys are those that can
be read, the listed namespaces those that have a limit, both ascending by their bytes; the reported
sizes are of those namespaces in that order, and each adds up the keys listed and the values read.
With the names they stay within the budget. -/
theorem inspection_agrees_with_reads {config : Config} {state : State} (h : Reachable config state)
    (hopen : state.site.isOpen = true) (clock : Clock) :
    let now : State := { state with clock := clock }
    let ask (c : Call) : Except StoreError c.Reply := ((Quota.backend config).call c now).1.result
    ∃ names sizes,
      ask (.getNamespaces .device) = .ok names ∧ ask (.getSizes .device) = .ok sizes ∧
      (names.map Text.toBytes).Pairwise (· < ·) ∧
      (∀ ns, (ns ∈ names ↔ ∃ limit, ask (.getLimit .device ns) = .ok limit) ∧
        (config.ValidName ns → (ns ∈ names ↔ ask (.getLimit .device ns) ≠ .error .notExist))) ∧
      sizes.map (·.namespaceName) = names ∧
      (∀ ns, config.ValidName ns → ∃ keys, ask (.getKeys .device ns) = .ok keys ∧
        (keys.map Text.toBytes).Pairwise (· < ·) ∧
        (∀ key, key ∈ keys ↔ ∃ found, ask (.getValue .device ns key) = .ok found) ∧
        ∀ size ∈ sizes, size.namespaceName = ns → size.size.toNat =
          (keys.map fun key =>
            key.utf8ByteSize + readBytes (ask (.getValue .device ns key))).sum) ∧
      (sizes.map (·.size.toNat)).sum + (names.map (·.utf8ByteSize)).sum ≤
        config.maxSize.toNat := by
  intro now ask
  obtain ⟨t, hs, ht⟩ := h.stores
  have hserves : now.site.Serves t := hs.serves hopen
  have hspent (name : String) : t.spent name < 2 ^ 63 := by
    have hlt := h.usage_lt name
    rw [State.usage_eq hs] at hlt
    omega
  refine ⟨t.names, t.report clock.unixSeconds, Quota.getNamespaces_answer hserves,
    Quota.getSizes_answer hserves ht hspent, ht.names_ascending,
    Quota.getLimit_agrees hserves ht, ?_, fun ns hns => ?_, ht.report_within_budget hspent⟩
  · unfold Tables.report Tables.names
    rw [List.map_map]
    rfl
  · obtain ⟨hkeys, hbytes⟩ := Quota.getKeys_agrees hserves ht hns
    refine ⟨_, Quota.getKeys_answer hserves ht hns, ?_, hkeys, fun size hsize hname => ?_⟩
    · exact ht.live_ascending ns
    · unfold Tables.report at hsize
      obtain ⟨row, _, rfl⟩ := List.mem_map.mp hsize
      dsimp only at hname ⊢
      subst hname
      rw [ht.size_exact hspent row.name, hbytes]
      exact Int.toNat_natCast _

/-- A namespace with a limit and no entry, and one of whose two entries the first has expired. -/
theorem inspection_agrees_with_reads_expired :
    let config : Config := { path := "a.db" }
    let start : State := { clock := .atSecond 50 }
    let moves : List Move := [.call (.setValue .device "ns" "key" "gone" 5),
      .call (.setValue .device "ns" "other" "text" 0), .call (.setLimit .device "empty" 10)]
    let state := Move.runAll config moves (launch config start).2.2
    let now : State := { state with clock := .atSecond 60 }
    Reachable config state ∧ state.site.isOpen = true ∧
      ∃ names sizes,
        ((Quota.backend config).call (.getNamespaces .device) now).1.result = .ok names ∧
        ((Quota.backend config).call (.getSizes .device) now).1.result = .ok sizes ∧
        names = ["empty", "ns"] ∧ sizes = [⟨"empty", 0⟩, ⟨"ns", 9⟩] ∧
        sizes.map (·.namespaceName) = names ∧
        (sizes.map (·.size.toNat)).sum + (names.map (·.utf8ByteSize)).sum ≤
          config.maxSize.toNat := by
  intro config start moves state now
  have hok : (launch config start).1 = .ok () := by cbv
  have hlaunched : Reachable config (launch config start).2.2 := .launched trivial hok
  have hreach : Reachable config state := hlaunched.runAll moves
  have hsite : state.site = {
      folder := .present
      slot := .file (.ready (some 1) ⟨2, [⟨1, "ns", 2, none⟩, ⟨2, "empty", 5, some 10⟩],
        [⟨1, "key", "gone", 7, some 55⟩, ⟨1, "other", "text", 9, none⟩]⟩)
      link := some .current } := by
    unfold state moves
    cbv
  clear_value state
  have hopen : state.site.isOpen = true := by
    rw [hsite]
    rfl
  obtain ⟨names, sizes, hlisted, hreported, _, _, hsame, _, hbudget⟩ :=
    inspection_agrees_with_reads hreach hopen (.atSecond 60)
  have hnames : ((Quota.backend config).call (.getNamespaces .device) now).1.result =
      .ok ["empty", "ns"] := by
    unfold now
    rw [hsite]
    cbv
  have hsizes : ((Quota.backend config).call (.getSizes .device) now).1.result =
      .ok [⟨"empty", 0⟩, ⟨"ns", 9⟩] := by
    unfold now
    rw [hsite]
    cbv
  exact ⟨hreach, hopen, names, sizes, hlisted, hreported,
    Except.ok.inj (hlisted.symm.trans hnames), Except.ok.inj (hreported.symm.trans hsizes), hsame,
    hbudget⟩

end ScopedStore.Device

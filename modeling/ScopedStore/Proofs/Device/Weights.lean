import ScopedStore.Proofs.Device.Inspection

/-! What names, keys and values weigh, told from the texts in the tables and not from the sizes
recorded with them, and the judgement of a write by these weights. -/
namespace ScopedStore.Device

/-- The bytes that an entry is charged for. -/
def ItemRow.bytes (item : ItemRow) : Nat := item.key.utf8ByteSize + item.value.utf8ByteSize

namespace Tables

variable {config : Config} {t : Tables}

/-- The bytes of all names, keys and values. -/
def bytes (t : Tables) : Nat :=
  (t.namespaces.map (·.name.utf8ByteSize)).sum + (t.items.map (·.bytes)).sum

/-- The bytes of the keys and values of a namespace. -/
def bytesOf (t : Tables) (name : String) : Nat := ((t.filed name).map (·.bytes)).sum

/-- The bytes of one entry, none if it does not exist. -/
def bytesAt (t : Tables) (name key : String) : Nat := (t.item? name key).elim 0 (·.bytes)

theorem Sound.recorded_eq (h : t.Sound config) {items : List ItemRow} (hitems : items ⊆ t.items) :
    (items.map (·.sizeBytes)).sum = ((items.map (·.bytes)).sum : Nat) := by
  rw [Nat.cast_list_sum, List.map_map]
  congr 1
  apply List.map_congr_left
  intro item hitem
  rw [h.items_measured item (hitems hitem), Function.comp_apply, ItemRow.bytes]
  push_cast
  rfl

theorem Sound.bytes_eq (h : t.Sound config) : t.nameTotal + t.itemTotal = t.bytes := by
  have hnames : t.nameTotal = ((t.namespaces.map (·.name.utf8ByteSize)).sum : Nat) := by
    unfold nameTotal
    rw [Nat.cast_list_sum, List.map_map]
    congr 1
    apply List.map_congr_left
    intro row hrow
    exact h.names_measured row hrow
  have hitems : t.itemTotal = ((t.items.map (·.bytes)).sum : Nat) :=
    h.recorded_eq (List.Subset.refl _)
  rw [hnames, hitems, bytes, Nat.cast_add]

theorem Sound.bytesOf_eq (h : t.Sound config) (name : String) :
    t.spent name = t.bytesOf name := by
  rw [spent_eq_sum]
  apply h.recorded_eq
  intro item hitem
  exact mem_of_mem_filed hitem

theorem Sound.bytesAt_eq (h : t.Sound config) (name key : String) :
    t.freed name key = t.bytesAt name key := by
  rw [freed_eq_getD, bytesAt]
  cases hitem : t.item? name key with
  | none => rfl
  | some item =>
    have hmem : item ∈ t.items := (item?_eq_some hitem).1
    rw [Option.map_some, Option.getD_some, Option.elim_some, h.items_measured item hmem,
      ItemRow.bytes]
    push_cast
    rfl

/-- What one entry takes is part of what its namespace takes. -/
theorem bytesAt_le (t : Tables) (name key : String) : t.bytesAt name key ≤ t.bytesOf name := by
  unfold bytesAt bytesOf
  rw [item?_eq_find?]
  cases hitem : (t.filed name).find? (·.key = key) with
  | none => exact Nat.zero_le _
  | some item =>
    apply List.le_sum_of_mem
    exact List.mem_map_of_mem (List.mem_of_find?_eq_some hitem)

theorem filed_sublist (t : Tables) (name : String) : (t.filed name).Sublist t.items := by
  unfold filed
  cases t.namespaceRow? name with
  | none => exact List.nil_sublist _
  | some row => exact List.filter_sublist

/-- What a namespace takes is part of what everything takes. -/
theorem bytesOf_le (t : Tables) (name : String) : t.bytesOf name ≤ t.bytes := by
  have hpart : t.bytesOf name ≤ (t.items.map (·.bytes)).sum :=
    ((t.filed_sublist name).map _).sum_le_sum fun _ _ => Nat.zero_le _
  unfold bytes
  omega

theorem bytes_purged_le (t : Tables) (now : Int) : (t.purged now).bytes ≤ t.bytes := by
  have hpart : ((t.purged now).items.map (·.bytes)).sum ≤ (t.items.map (·.bytes)).sum :=
    (List.filter_sublist.map _).sum_le_sum fun _ _ => Nat.zero_le _
  have hnames : (t.purged now).namespaces = t.namespaces := rfl
  unfold bytes
  rw [hnames]
  omega

/-- The bytes by which a write changes what is stored. -/
def change (t : Tables) (ns key value : String) : Int :=
  key.utf8ByteSize + value.utf8ByteSize - t.bytesAt ns key

/-- What becomes of a write to tables in which nothing has expired. -/
def verdict (config : Config) (t : Tables) (ns key value : String) : Verdict :=
  if t.allowance config ns < t.bytesOf ns + t.change ns key value then .namespaceFull
  else if config.maxSize.toNat < t.bytes + t.change ns key value + t.nameCost ns then .storageFull
  else .applied

theorem verdict_eq_applied_iff {ns key value : String} :
    t.verdict config ns key value = .applied ↔
      t.bytesOf ns + t.change ns key value ≤ t.allowance config ns ∧
        t.bytes + t.change ns key value + t.nameCost ns ≤ config.maxSize.toNat := by
  unfold verdict
  split
  next hfull => simp [hfull]
  next hfits =>
    split
    next hover => simp [hover]
    next hroom => simp [not_lt.mp hfits, not_lt.mp hroom]

theorem verdict_eq_namespaceFull_iff {ns key value : String} :
    t.verdict config ns key value = .namespaceFull ↔
      t.allowance config ns < t.bytesOf ns + t.change ns key value := by
  unfold verdict
  split
  next hfull => simp [hfull]
  next hfits =>
    split <;> simp [not_lt.mp hfits]

theorem verdict_eq_storageFull_iff {ns key value : String} :
    t.verdict config ns key value = .storageFull ↔
      t.bytesOf ns + t.change ns key value ≤ t.allowance config ns ∧
        config.maxSize.toNat < t.bytes + t.change ns key value + t.nameCost ns := by
  unfold verdict
  split
  next hfull => simp [hfull]
  next hfits =>
    split
    next hover => simp [not_lt.mp hfits, hover]
    next hroom => simp [not_lt.mp hroom]

/-- An entry lies in a namespace that has a record, and obeys the length rules. -/
theorem Sound.item?_valid (h : t.Sound config) {name key : String} {item : ItemRow}
    (hitem : t.item? name key = some item) :
    (t.namespaceRow? name).isSome = true ∧ config.ValidName name ∧ config.ValidName key ∧
      item.value.utf8ByteSize ≤ config.maxValue.toNat := by
  obtain ⟨hmem, hkey⟩ := item?_eq_some hitem
  obtain ⟨row, hrow, _⟩ := Option.bind_eq_some_iff.mp hitem
  obtain ⟨howner, hname⟩ := namespaceRow?_eq_some hrow
  refine ⟨by rw [hrow]; rfl, ?_, ?_, h.values_fit item hmem⟩
  · rw [← hname]
    exact h.names_valid row howner
  · rw [← hkey]
    exact h.keys_valid item hmem

theorem change_overwrite {ns key : String} {item : ItemRow} (hitem : t.item? ns key = some item)
    (value : String) :
    t.change ns key value = key.utf8ByteSize + value.utf8ByteSize - item.bytes := by
  unfold change bytesAt
  rw [hitem]
  rfl

theorem overwrite_le {ns key value : String} {item : ItemRow} (hitem : t.item? ns key = some item)
    (hvalue : value.utf8ByteSize ≤ item.value.utf8ByteSize) :
    key.utf8ByteSize + value.utf8ByteSize ≤ item.bytes := by
  rw [ItemRow.bytes, (item?_eq_some hitem).2]
  omega

/-- What is stored is within the budget, so it stays so when an entry does not grow. -/
theorem Sound.verdict_overwrite (h : t.Sound config) {ns key value : String} {item : ItemRow}
    (hitem : t.item? ns key = some item)
    (hvalue : value.utf8ByteSize ≤ item.value.utf8ByteSize) :
    t.verdict config ns key value ≠ .storageFull := by
  intro hfull
  have hover := (verdict_eq_storageFull_iff.mp hfull).2
  have hbudget := h.within_budget
  rw [h.bytes_eq] at hbudget
  have hchange := change_overwrite hitem value
  have hcharge := overwrite_le hitem hvalue
  have hcost : t.nameCost ns = 0 := if_pos (h.item?_valid hitem).1
  omega

theorem Sound.namespaceUsage_eq (h : t.Sound config) {row : NamespaceRow} {name : String}
    (hrow : t.namespaceRow? name = some row) (hrange : t.bytesOf name < 2 ^ 63) :
    t.namespaceUsage row.id = .ok (t.bytesOf name) := by
  have hsum : ((t.itemsOf row.id).map (·.sizeBytes)).sum = t.bytesOf name := by
    have hfiled : t.spent name = t.usage row.id := by rw [spent, hrow, Option.elim_some]
    rw [← h.bytesOf_eq, hfiled]
    exact ((List.mergeSort_perm _ _).map _).sum_eq
  have hnonneg : ∀ bytes ∈ (t.itemsOf row.id).map (·.sizeBytes), 0 ≤ bytes := by
    intro bytes hbytes
    obtain ⟨item, hitem, rfl⟩ := List.mem_map.mp hbytes
    exact h.sizeBytes_nonneg (mem_itemsOf.mp hitem).1
  have htaken := sumStored_of_nonneg hnonneg (by omega)
  unfold namespaceUsage
  rw [htaken, hsum]
  rfl

theorem namespaceUsage_lt {id : Int} {bytes : Nat} (h : t.namespaceUsage id = .ok bytes) :
    bytes < 2 ^ 63 := by
  unfold namespaceUsage at h
  cases hsum : sumStored ((t.itemsOf id).map (·.sizeBytes)) with
  | error cause =>
    rw [hsum] at h
    cases h
  | ok total =>
    rw [hsum] at h
    have hbytes : (bytes : Int) = total := storedBytes_eq_ok h
    have := fitsWord_iff.mp (sumStored_exact hsum).2
    omega

theorem globalUsage_lt {total : Nat} (h : t.globalUsage = .ok total) : total < 2 ^ 63 := by
  unfold globalUsage at h
  cases hnames : sumStored (t.namespaces.map (·.nameBytes)) with
  | error cause =>
    rw [hnames] at h
    cases h
  | ok names =>
    cases hitems : sumStored (t.items.map (·.sizeBytes)) with
    | error cause =>
      rw [hnames, hitems] at h
      cases h
    | ok items =>
      rw [hnames, hitems] at h
      simp only [bind, Except.bind] at h
      split at h
      next hfits =>
        have hstored : (total : Int) = names + items := storedBytes_eq_ok h
        have := fitsWord_iff.mp hfits
        omega
      next => cases h

/-- The total can be taken exactly as long as it fits a word. -/
theorem Sound.globalUsage_eq_ok_iff (h : t.Sound config) {total : Nat} :
    t.globalUsage = .ok total ↔ t.bytes < 2 ^ 63 ∧ total = t.bytes := by
  have hexact : t.nameTotal + t.itemTotal = t.bytes := h.bytes_eq
  constructor
  · intro htotal
    have hlt := globalUsage_lt htotal
    have hbytes : (total : Int) = t.nameTotal + t.itemTotal := globalUsage_eq_ok htotal
    constructor <;> omega
  · rintro ⟨hrange, rfl⟩
    have hnames : ∀ bytes ∈ t.namespaces.map (·.nameBytes), 0 ≤ bytes := by
      intro bytes hbytes
      obtain ⟨row, hrow, rfl⟩ := List.mem_map.mp hbytes
      rw [h.names_measured row hrow]
      exact Int.natCast_nonneg _
    have hnamed : 0 ≤ t.nameTotal := List.sum_nonneg hnames
    have hfiled : 0 ≤ t.itemTotal := List.sum_nonneg h.sizes_nonneg
    have hnamesum : sumStored (t.namespaces.map (·.nameBytes)) = .ok t.nameTotal :=
      sumStored_of_nonneg hnames (by change t.nameTotal < _; omega)
    have hitemsum : sumStored (t.items.map (·.sizeBytes)) = .ok t.itemTotal :=
      sumStored_of_nonneg h.sizes_nonneg (by change t.itemTotal < _; omega)
    have hfits : fitsWord (t.bytes : Int) = true := fitsWord_iff.mpr (by omega)
    unfold globalUsage
    rw [hnamesum, hitemsum]
    simp only [bind, Except.bind]
    rw [hexact, if_pos hfits]
    rfl

end Tables

end ScopedStore.Device

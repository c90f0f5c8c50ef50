import ScopedStore.Proofs.Device.Soundness

/-! The tables by name: what is stored under a namespace and a key, what a namespace may hold and
what it holds, and how each change of the tables shows in these views. -/
namespace ScopedStore.Device.Tables

/-- The item stored under a name and a key, expired or not. -/
def item? (t : Tables) (name key : String) : Option ItemRow :=
  (t.namespaceRow? name).bind fun row => t.itemRow? row.id key

/-- The own limit of an existing namespace, where it has one. -/
def limit? (t : Tables) (name : String) : Option (Option Int) :=
  (t.namespaceRow? name).map (·.limit)

/-- The limit in force for a name, with or without a record. -/
def allowance (config : Config) (t : Tables) (name : String) : Int :=
  (t.limit? name).join.getD config.limit.toNat

/-- The recorded bytes of a namespace, expired items included. -/
def spent (t : Tables) (name : String) : Int :=
  (t.namespaceRow? name).elim 0 fun row => t.usage row.id

/-- The items of a namespace, expired ones included. -/
def filed (t : Tables) (name : String) : List ItemRow :=
  (t.namespaceRow? name).elim [] fun row => t.items.filter (·.ns = row.id)

/-- The recorded bytes that a write under this name and key would replace. -/
def freed (t : Tables) (name key : String) : Int :=
  (t.namespaceRow? name).elim 0 fun row => t.charge row.id key

/-- Stores an entry, with a record for its namespace. -/
def put (t : Tables) (name key value : String) (expiresAt : Option Int) : Tables :=
  (t.house name).withItem
    ⟨(t.record name).id, key, value, key.utf8ByteSize + value.utf8ByteSize, expiresAt⟩

/-- Gives a namespace its own limit, with a record for it. -/
def assign (t : Tables) (name : String) (limit : UInt32) : Tables :=
  (t.house name).setNamespaceLimit (t.record name).id limit

def remove (t : Tables) (name key : String) : Tables :=
  (t.namespaceRow? name).elim t fun row => (t.deleteItem row.id key).2

def drop (t : Tables) (name : String) : Tables := (t.deleteNamespace name).2

theorem itemRow?_eq_find? (t : Tables) (id : Int) (key : String) :
    t.itemRow? id key = (t.items.filter (·.ns = id)).find? (·.key = key) := by
  unfold itemRow?
  rw [List.find?_filter]
  congr 1
  funext item
  simp

theorem item?_eq_find? (t : Tables) (name key : String) :
    t.item? name key = (t.filed name).find? (·.key = key) := by
  unfold item? filed
  cases t.namespaceRow? name with
  | none => rfl
  | some row => exact t.itemRow?_eq_find? row.id key

theorem item?_eq_some {t : Tables} {name key : String} {item : ItemRow}
    (h : t.item? name key = some item) : item ∈ t.items ∧ item.key = key := by
  obtain ⟨row, _, hitem⟩ := Option.bind_eq_some_iff.mp h
  obtain ⟨hmem, _, hkey⟩ := itemRow?_eq_some hitem
  exact ⟨hmem, hkey⟩

theorem freed_eq_getD (t : Tables) (name key : String) :
    t.freed name key = ((t.item? name key).map (·.sizeBytes)).getD 0 := by
  unfold freed item?
  cases t.namespaceRow? name <;> rfl

theorem spent_eq_sum (t : Tables) (name : String) :
    t.spent name = ((t.filed name).map (·.sizeBytes)).sum := by
  unfold spent filed
  cases t.namespaceRow? name <;> rfl

section Records
variable {config : Config} {t : Tables}

theorem namespaceRow?_house (name other : String) :
    (t.house name).namespaceRow? other =
      if other = name then some (t.record name) else t.namespaceRow? other := by
  unfold house record
  cases hr : t.namespaceRow? name with
  | some row =>
    by_cases he : other = name
    · simp [he, hr]
    · simp [he]
  | none =>
    by_cases he : other = name
    · subst he
      unfold namespaceRow? at hr ⊢
      simp [List.find?_append, hr]
    · simp [he, namespaceRow?, List.find?_append, Ne.symm he]

theorem record_mem_house (name : String) : t.record name ∈ (t.house name).namespaces :=
  (namespaceRow?_eq_some (by rw [namespaceRow?_house, if_pos rfl])).1

/-- No other name shares the identifier of a record, not even of one about to be made. -/
theorem Keyed.record_id_ne (h : t.Keyed) {name other : String} {row : NamespaceRow}
    (hr : t.namespaceRow? other = some row) (hne : other ≠ name) : row.id ≠ (t.record name).id := by
  obtain ⟨hrow, hname⟩ := namespaceRow?_eq_some hr
  unfold record
  cases hn : t.namespaceRow? name with
  | none =>
    have := h.ids_given row hrow
    simp only [Option.getD_none]
    omega
  | some own =>
    obtain ⟨hown, hown'⟩ := namespaceRow?_eq_some hn
    intro he
    have := h.row_eq_of_id hrow hown he
    exact hne (by rw [← hname, ← hown', this])

/-- The items under the identifier of a record; a record about to be made has none. -/
theorem Placed.items_record (h : t.Placed) (name : String) :
    t.items.filter (·.ns = (t.record name).id) = t.filed name := by
  unfold record filed
  cases t.namespaceRow? name with
  | none => exact h.items_of_fresh (by simp)
  | some row => rfl

theorem Placed.itemRow?_record (h : t.Placed) (name key : String) :
    t.itemRow? (t.record name).id key = t.item? name key := by
  rw [itemRow?_eq_find?, h.items_record, item?_eq_find?]

theorem Placed.usage_record (h : t.Placed) (name : String) :
    t.usage (t.record name).id = t.spent name := by
  rw [usage, h.items_record, spent_eq_sum]

theorem Placed.charge_record (h : t.Placed) (name key : String) :
    t.charge (t.record name).id key = t.freed name key := by
  rw [charge, h.itemRow?_record, freed_eq_getD]

theorem house_items (name : String) : (t.house name).items = t.items := by
  unfold house
  split <;> rfl

theorem itemTotal_house (name : String) : (t.house name).itemTotal = t.itemTotal := by
  unfold itemTotal
  rw [house_items]

theorem nameTotal_house (name : String) :
    (t.house name).nameTotal = t.nameTotal + t.nameCost name := by
  unfold house nameCost
  cases hr : t.namespaceRow? name with
  | some row => simp
  | none => simp [nameTotal, record, hr]

theorem charge_house (name : String) (id : Int) (key : String) :
    (t.house name).charge id key = t.charge id key := by
  unfold charge itemRow?
  rw [house_items]

theorem usage_house (name : String) (id : Int) : (t.house name).usage id = t.usage id := by
  unfold usage
  rw [house_items]

end Records

section Changes
variable {config : Config} {t : Tables}

theorem Placed.put (h : t.Placed) (name key value : String) (expiresAt : Option Int) :
    (t.put name key value expiresAt).Placed :=
  (h.house name).withItem ⟨_, record_mem_house name, rfl⟩

theorem Placed.assign (h : t.Placed) (name : String) (limit : UInt32) :
    (t.assign name limit).Placed :=
  (h.house name).setNamespaceLimit _ limit

theorem Sound.put (h : t.Sound config) {name key value : String} (hname : config.ValidName name)
    (hkey : config.ValidName key) (hvalue : value.utf8ByteSize ≤ config.maxValue.toNat)
    (hroom : t.nameTotal + t.itemTotal - t.freed name key +
      (key.utf8ByteSize + value.utf8ByteSize) + t.nameCost name ≤ config.maxSize.toNat)
    (expiresAt : Option Int) : (t.put name key value expiresAt).Sound config := by
  have hbudget := h.within_budget
  have hhouse : (t.house name).Sound config := by
    refine h.house hname ?_
    cases hr : t.namespaceRow? name with
    | none =>
      simp only [freed, nameCost, hr, Option.elim_none] at hroom ⊢
      omega
    | some row => simpa [nameCost, hr] using hbudget
  refine hhouse.withItem ⟨_, record_mem_house name, rfl⟩ hkey hvalue rfl ?_
  rw [nameTotal_house, itemTotal_house, charge_house, h.charge_record]
  dsimp only
  omega

theorem Sound.assign (h : t.Sound config) {name : String} (hname : config.ValidName name)
    (hroom : t.nameTotal + t.itemTotal + t.nameCost name ≤ config.maxSize.toNat) (limit : UInt32) :
    (t.assign name limit).Sound config :=
  (h.house hname hroom).setNamespaceLimit _ limit

/-- Deleting an entry is keeping all others. -/
theorem remove_eq_keeping (name key : String) :
    t.remove name key = t.keeping fun item =>
      (t.namespaceRow? name).all fun row => !(item.ns = row.id ∧ item.key = key) := by
  unfold remove
  cases t.namespaceRow? name with
  | none => simp [keeping]
  | some row => rfl

theorem Placed.remove (h : t.Placed) (name key : String) : (t.remove name key).Placed := by
  rw [remove_eq_keeping]
  exact h.keeping _

theorem Sound.remove (h : t.Sound config) (name key : String) :
    (t.remove name key).Sound config := by
  rw [remove_eq_keeping]
  exact h.keeping _

theorem Placed.drop (h : t.Placed) (name : String) : (t.drop name).Placed := h.deleteNamespace name

theorem Sound.drop (h : t.Sound config) (name : String) : (t.drop name).Sound config :=
  h.deleteNamespace name

theorem limit?_put (name key value : String) (expiresAt : Option Int) (other : String) :
    (t.put name key value expiresAt).limit? other =
      if other = name then some (t.limit? name).join else t.limit? other := by
  change ((t.house name).namespaceRow? other).map _ = _
  rw [namespaceRow?_house]
  split
  · unfold record limit?
    cases t.namespaceRow? name <;> rfl
  · rfl

theorem namespaceRow?_setNamespaceLimit (id : Int) (limit : UInt32) (other : String) :
    (t.setNamespaceLimit id limit).namespaceRow? other = (t.namespaceRow? other).map fun row =>
      if row.id = id then { row with limit := some limit.toNat } else row := by
  unfold namespaceRow? setNamespaceLimit
  rw [List.find?_map]
  congr 2
  funext row
  simp only [Function.comp]
  split <;> rfl

theorem Keyed.limit?_assign (h : t.Keyed) (name : String) (limit : UInt32)
    (other : String) :
    (t.assign name limit).limit? other =
      if other = name then some (some (limit.toNat : Int)) else t.limit? other := by
  unfold limit? Tables.assign
  rw [namespaceRow?_setNamespaceLimit, namespaceRow?_house]
  split
  · simp
  next hne =>
    cases hr : t.namespaceRow? other with
    | none => rfl
    | some row => simp [h.record_id_ne hr hne]

theorem namespaceRow?_drop (name other : String) :
    (t.drop name).namespaceRow? other = if other = name then none else t.namespaceRow? other := by
  unfold drop deleteNamespace
  cases hr : t.namespaceRow? name with
  | none =>
    by_cases he : other = name
    · simp [he, hr]
    · simp [he]
  | some gone =>
    unfold namespaceRow?
    dsimp only
    by_cases he : other = name
    · subst he
      simp only [if_true, List.find?_filter]
      exact List.find?_eq_none.mpr fun row _ => by simp
    · simp only [if_neg he, List.find?_filter]
      congr 1
      funext row
      by_cases hrow : row.name = other <;> simp [hrow, he]

theorem limit?_drop (name other : String) :
    (t.drop name).limit? other = if other = name then none else t.limit? other := by
  unfold limit?
  rw [namespaceRow?_drop]
  split <;> rfl

theorem limit?_keeping (keep : ItemRow → Bool) (other : String) :
    (t.keeping keep).limit? other = t.limit? other := rfl

theorem limit?_remove (name key other : String) :
    (t.remove name key).limit? other = t.limit? other := by
  rw [remove_eq_keeping, limit?_keeping]

theorem mem_of_mem_filed {name : String} {item : ItemRow} (h : item ∈ t.filed name) :
    item ∈ t.items := by
  unfold filed at h
  cases hr : t.namespaceRow? name with
  | none => rw [hr] at h; cases h
  | some row => rw [hr] at h; exact (List.mem_filter.mp h).1

theorem filed_keeping (keep : ItemRow → Bool) (name : String) :
    (t.keeping keep).filed name = (t.filed name).filter keep := by
  change (t.namespaceRow? name).elim [] _ = _
  unfold filed
  cases t.namespaceRow? name with
  | none => rfl
  | some row => exact List.filter_comm _ _ t.items

theorem Keyed.filed_assign (h : t.Keyed) (name : String) (limit : UInt32)
    (other : String) : (t.assign name limit).filed other = t.filed other := by
  have hitems : (t.assign name limit).items = t.items := house_items name
  unfold filed
  rw [hitems]
  unfold Tables.assign
  rw [namespaceRow?_setNamespaceLimit, namespaceRow?_house]
  by_cases he : other = name
  · subst he
    rw [if_pos rfl, ← filed, ← h.items_record]
    simp
  · rw [if_neg he]
    cases hr : t.namespaceRow? other with
    | none => rfl
    | some row => simp [h.record_id_ne hr he]

/-- The cascade takes the items of the namespace and of no other. -/
theorem Keyed.filed_drop (h : t.Keyed) (name other : String) :
    (t.drop name).filed other = if other = name then [] else t.filed other := by
  unfold filed
  rw [namespaceRow?_drop]
  by_cases he : other = name
  · simp [he]
  · simp only [if_neg he]
    cases hr : t.namespaceRow? other with
    | none => rfl
    | some row =>
      unfold Tables.drop Tables.deleteNamespace
      cases hg : t.namespaceRow? name with
      | none => rfl
      | some gone =>
        have hid : row.id ≠ gone.id := by
          have hne := h.record_id_ne hr he
          rwa [record, hg, Option.getD_some] at hne
        simp only [Option.elim_some, List.filter_filter]
        refine List.filter_congr fun item _ => ?_
        by_cases hi : item.ns = row.id <;> simp [hi, hid]

theorem Keyed.item?_put (h : t.Keyed) (name key value : String) (expiresAt : Option Int)
    (other otherKey : String) :
    (t.put name key value expiresAt).item? other otherKey =
      if other = name ∧ otherKey = key then
        some ⟨(t.record name).id, key, value, key.utf8ByteSize + value.utf8ByteSize, expiresAt⟩
      else t.item? other otherKey := by
  have hitem (id : Int) (k : String) :
      (t.put name key value expiresAt).itemRow? id k =
        if id = (t.record name).id ∧ k = key then
          some ⟨(t.record name).id, key, value, key.utf8ByteSize + value.utf8ByteSize, expiresAt⟩
        else t.itemRow? id k := by
    unfold Tables.put
    rw [itemRow?_withItem (by rw [house_items]; exact h.places_distinct)]
    unfold itemRow?
    rw [house_items]
  change ((t.house name).namespaceRow? other).bind _ = _
  rw [namespaceRow?_house]
  by_cases he : other = name
  · subst he
    by_cases hk : otherKey = key
    · simp [hitem, hk]
    · simp [hitem, hk, h.itemRow?_record]
  · simp only [he, if_false, false_and]
    unfold item?
    cases hr : t.namespaceRow? other with
    | none => rfl
    | some row => simp [hitem, h.record_id_ne hr he]

theorem Keyed.item?_keeping (h : t.Keyed) (keep : ItemRow → Bool) (name key : String) :
    (t.keeping keep).item? name key = (t.item? name key).filter keep := by
  change (t.namespaceRow? name).bind _ = ((t.namespaceRow? name).bind _).filter keep
  cases t.namespaceRow? name with
  | none => rfl
  | some row =>
    ext item
    have hmem : item ∈ (t.keeping keep).items ↔ item ∈ t.items ∧ keep item = true :=
      List.mem_filter
    simp only [Option.bind_some, Option.filter_eq_some_iff,
      itemRow?_eq_some_iff (h.keeping keep).places_distinct,
      itemRow?_eq_some_iff h.places_distinct, hmem]
    tauto

theorem Keyed.item?_assign (h : t.Keyed) (name : String) (limit : UInt32)
    (other otherKey : String) :
    (t.assign name limit).item? other otherKey = t.item? other otherKey := by
  rw [item?_eq_find?, item?_eq_find?, h.filed_assign]

theorem Keyed.item?_drop (h : t.Keyed) (name other otherKey : String) :
    (t.drop name).item? other otherKey =
      if other = name then none else t.item? other otherKey := by
  rw [item?_eq_find?, item?_eq_find?, h.filed_drop]
  split <;> rfl

theorem Keyed.item?_remove (h : t.Keyed) (name key other otherKey : String) :
    (t.remove name key).item? other otherKey =
      if other = name ∧ otherKey = key then none else t.item? other otherKey := by
  rw [remove_eq_keeping, h.item?_keeping]
  cases hi : t.item? other otherKey with
  | none => simp
  | some item =>
    obtain ⟨row, hr, hitem⟩ := Option.bind_eq_some_iff.mp hi
    obtain ⟨_, hns, hkey⟩ := itemRow?_eq_some hitem
    by_cases he : other = name
    · subst he
      by_cases hk : otherKey = key <;> simp [hr, hns, hkey, hk]
    · have hkeep : ((t.namespaceRow? name).all fun own =>
          !decide (item.ns = own.id ∧ item.key = key)) = true := by
        cases hn : t.namespaceRow? name with
        | none => rfl
        | some own =>
          have := h.record_id_ne hr he
          rw [record, hn, Option.getD_some] at this
          simp [hns, this]
      rw [Option.filter_some, if_pos hkeep, if_neg fun hand => he hand.1]

theorem Sound.filed_nonneg (h : t.Sound config) (name : String) :
    ∀ bytes ∈ (t.filed name).map (·.sizeBytes), 0 ≤ bytes := by
  intro bytes hb
  obtain ⟨item, hitem, rfl⟩ := List.mem_map.mp hb
  exact h.sizeBytes_nonneg (mem_of_mem_filed hitem)

theorem Sound.spent_nonneg (h : t.Sound config) (name : String) : 0 ≤ t.spent name := by
  rw [spent_eq_sum]
  exact List.sum_nonneg (h.filed_nonneg name)

theorem Sound.spent_keeping_le (h : t.Sound config) (keep : ItemRow → Bool) (name : String) :
    (t.keeping keep).spent name ≤ t.spent name := by
  rw [spent_eq_sum, spent_eq_sum, filed_keeping]
  exact (List.filter_sublist.map _).sum_le_sum (h.filed_nonneg name)

theorem Placed.spent_put_self (h : t.Placed) (name key value : String)
    (expiresAt : Option Int) :
    (t.put name key value expiresAt).spent name =
      t.spent name - t.freed name key + (key.utf8ByteSize + value.utf8ByteSize) := by
  change ((t.house name).namespaceRow? name).elim 0
    (fun row => (t.put name key value expiresAt).usage row.id) = _
  rw [namespaceRow?_house, if_pos rfl, Option.elim_some]
  unfold Tables.put
  rw [usage_withItem (h.house name).places_distinct, charge_house, usage_house, h.usage_record,
    h.charge_record]

theorem Keyed.spent_put (h : t.Keyed) (name key value : String) (expiresAt : Option Int)
    (other : String) :
    (t.put name key value expiresAt).spent other =
      if other = name then
        t.spent name - t.freed name key + (key.utf8ByteSize + value.utf8ByteSize)
      else t.spent other := by
  by_cases he : other = name
  · rw [if_pos he, he, h.spent_put_self]
  · rw [if_neg he]
    change ((t.house name).namespaceRow? other).elim 0
      (fun row => (t.put name key value expiresAt).usage row.id) = _
    rw [namespaceRow?_house, if_neg he]
    unfold spent
    cases hr : t.namespaceRow? other with
    | none => rfl
    | some row =>
      simp only [Option.elim_some]
      unfold Tables.put
      rw [usage_withItem_of_ne (h.house name).places_distinct (h.record_id_ne hr he), usage_house]

theorem Placed.total_put (h : t.Placed) (name key value : String) (expiresAt : Option Int) :
    (t.put name key value expiresAt).nameTotal + (t.put name key value expiresAt).itemTotal =
      t.nameTotal + t.itemTotal - t.freed name key + (key.utf8ByteSize + value.utf8ByteSize) +
        t.nameCost name := by
  have hnames : (t.put name key value expiresAt).nameTotal = t.nameTotal + t.nameCost name :=
    nameTotal_house name
  have hitems : (t.put name key value expiresAt).itemTotal =
      t.itemTotal - t.freed name key + (key.utf8ByteSize + value.utf8ByteSize) := by
    unfold Tables.put
    rw [itemTotal_withItem (h.house name).places_distinct, itemTotal_house, charge_house,
      h.charge_record]
  rw [hnames, hitems]
  omega

theorem Keyed.spent_assign (h : t.Keyed) (name : String) (limit : UInt32) (other : String) :
    (t.assign name limit).spent other = t.spent other := by
  rw [spent_eq_sum, spent_eq_sum, h.filed_assign]

theorem Keyed.spent_drop (h : t.Keyed) (name other : String) :
    (t.drop name).spent other = if other = name then 0 else t.spent other := by
  rw [spent_eq_sum, spent_eq_sum, h.filed_drop]
  split <;> rfl

theorem Sound.spent_remove_le (h : t.Sound config) (name key other : String) :
    (t.remove name key).spent other ≤ t.spent other := by
  rw [remove_eq_keeping]
  exact h.spent_keeping_le _ other

end Changes

end ScopedStore.Device.Tables

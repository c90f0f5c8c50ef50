import ScopedStore.Proofs.Device.Rows

/-! What the keys of the two tables guarantee, whatever numbers stand in the rows, and that the row
operations keep it. Budgets rest on the places of items alone. -/
namespace ScopedStore.Device.Tables

/-- Items have places of their own, under identifiers that have been given out. -/
structure Placed (t : Tables) : Prop where
  ids_given : ∀ row ∈ t.namespaces, row.id ≤ t.lastId
  items_given : ∀ item ∈ t.items, item.ns ≤ t.lastId
  places_distinct : (t.items.map (·.place)).Nodup

/-- Names and identifiers are given once as well, and every item has an owner. -/
structure Keyed (t : Tables) : Prop extends Placed t where
  names_distinct : (t.namespaces.map (·.name)).Nodup
  ids_distinct : (t.namespaces.map (·.id)).Nodup
  owned : ∀ item ∈ t.items, ∃ row ∈ t.namespaces, row.id = item.ns

/-- The record of a name, or the one that would be made for it. -/
def record (t : Tables) (name : String) : NamespaceRow :=
  (t.namespaceRow? name).getD ⟨t.lastId + 1, name, name.utf8ByteSize, none⟩

/-- The tables with a record for a name, made if there is none. -/
def house (t : Tables) (name : String) : Tables :=
  if (t.namespaceRow? name).isSome then t
  else { t with lastId := t.lastId + 1, namespaces := t.namespaces ++ [t.record name] }

theorem namespaceRow?_eq_some {t : Tables} {name : String} {row : NamespaceRow}
    (h : t.namespaceRow? name = some row) : row ∈ t.namespaces ∧ row.name = name :=
  ⟨List.mem_of_find?_eq_some h, by simpa using List.find?_some h⟩

theorem namespaceRow?_eq_none {t : Tables} {name : String} (h : t.namespaceRow? name = none) :
    ∀ row ∈ t.namespaces, row.name ≠ name := by
  intro row hrow
  simpa using List.find?_eq_none.mp h row hrow

theorem house_of_some {t : Tables} {name : String} {row : NamespaceRow}
    (h : t.namespaceRow? name = some row) : t.house name = t := by
  simp [house, h]

theorem house_of_none {t : Tables} {name : String} (h : t.namespaceRow? name = none) :
    t.house name = { t with
      lastId := t.lastId + 1
      namespaces := t.namespaces ++ [⟨t.lastId + 1, name, name.utf8ByteSize, none⟩] } := by
  simp [house, record, h]

/-- What a record keeps when limits are set. -/
theorem mem_setNamespaceLimit {t : Tables} {id : Int} {limit : UInt32} {row : NamespaceRow}
    (h : row ∈ (t.setNamespaceLimit id limit).namespaces) :
    ∃ old ∈ t.namespaces, row.id = old.id ∧ row.name = old.name ∧
      row.nameBytes = old.nameBytes ∧ (row.limit = old.limit ∨ row.limit = some limit.toNat) := by
  obtain ⟨old, hold, rfl⟩ := List.mem_map.mp h
  refine ⟨old, hold, ?_⟩
  split
  · exact ⟨rfl, rfl, rfl, .inr rfl⟩
  · exact ⟨rfl, rfl, rfl, .inl rfl⟩

/-- Edits of the records that leave a column alone. -/
theorem map_column {α : Type} {rows : List NamespaceRow} {edit : NamespaceRow → NamespaceRow}
    {f : NamespaceRow → α} (h : ∀ row, f (edit row) = f row) :
    (rows.map edit).map f = rows.map f := by
  rw [List.map_map]
  exact List.map_congr_left fun row _ => h row

namespace Placed

variable {t : Tables}

theorem empty (hn : t.namespaces = []) (hi : t.items = []) : t.Placed := by
  constructor <;> simp [hn, hi]

/-- Items filed under identifiers that were never given out do not exist. -/
theorem items_of_fresh (h : t.Placed) {id : Int} (hid : t.lastId < id) :
    t.items.filter (·.ns = id) = [] := by
  refine List.filter_eq_nil_iff.mpr fun item hitem => ?_
  have := h.items_given item hitem
  simp only [decide_eq_true_eq]
  omega

/-- Deleting items leaves the others in their places, whatever selects them. -/
theorem keeping (h : t.Placed) (keep : ItemRow → Bool) : (t.keeping keep).Placed := by
  have hsub : (t.items.filter keep).Sublist t.items := List.filter_sublist
  exact { h with
    items_given := fun item hi => h.items_given item (hsub.subset hi)
    places_distinct := h.places_distinct.sublist (hsub.map _) }

theorem deleteNamespace (h : t.Placed) (name : String) : (t.deleteNamespace name).2.Placed := by
  unfold Tables.deleteNamespace
  cases t.namespaceRow? name with
  | none => exact h
  | some gone =>
    have hsub : (t.namespaces.filter (·.name ≠ name)).Sublist t.namespaces := List.filter_sublist
    exact { h.keeping (·.ns ≠ gone.id) with
      ids_given := fun row hrow => h.ids_given row (hsub.subset hrow) }

theorem house (h : t.Placed) (name : String) : (t.house name).Placed := by
  cases hr : t.namespaceRow? name with
  | some row =>
    rw [house_of_some hr]
    exact h
  | none =>
    rw [house_of_none hr]
    refine { h with ids_given := fun row hrow => ?_, items_given := fun item hi => ?_ }
    · rcases List.mem_append.mp hrow with hrow | hrow
      · exact (h.ids_given row hrow).trans (Int.le_add_one le_rfl)
      · rw [List.mem_singleton.mp hrow]
    · exact (h.items_given item hi).trans (Int.le_add_one le_rfl)

/-- An item may be written under an existing record. -/
theorem withItem (h : t.Placed) {written : ItemRow}
    (howned : ∃ row ∈ t.namespaces, row.id = written.ns) : (t.withItem written).Placed := by
  refine { h with
    items_given := fun item hi => ?_
    places_distinct := withItem_places_nodup h.places_distinct }
  rcases (mem_withItem h.places_distinct).mp hi with rfl | ⟨hi, -⟩
  · obtain ⟨row, hrow, hid⟩ := howned
    rw [← hid]
    exact h.ids_given row hrow
  · exact h.items_given item hi

/-- Edits of the records that leave identifiers alone leave all in place. -/
theorem editRecords (h : t.Placed) {edit : NamespaceRow → NamespaceRow}
    (hid : ∀ row, (edit row).id = row.id) :
    Placed { t with namespaces := t.namespaces.map edit } := by
  refine { h with ids_given := fun row hrow => ?_ }
  obtain ⟨old, hold, rfl⟩ := List.mem_map.mp hrow
  rw [hid]
  exact h.ids_given old hold

theorem editItems (h : t.Placed) {edit : ItemRow → ItemRow}
    (hplace : ∀ row, (edit row).place = row.place) :
    Placed { t with items := t.items.map edit } := by
  have hplaces : (t.items.map edit).map (·.place) = t.items.map (·.place) := by
    rw [List.map_map]
    exact List.map_congr_left fun row _ => hplace row
  refine { h with
    items_given := fun item hitem => ?_
    places_distinct := by rw [hplaces]; exact h.places_distinct }
  obtain ⟨row, hrow, rfl⟩ := List.mem_map.mp hitem
  have hns : (edit row).ns = row.ns := congrArg Prod.fst (hplace row)
  rw [hns]
  exact h.items_given row hrow

theorem setNamespaceLimit (h : t.Placed) (id : Int) (limit : UInt32) :
    (t.setNamespaceLimit id limit).Placed := by
  refine h.editRecords fun row => ?_
  split <;> rfl

end Placed

namespace Keyed

variable {t : Tables}

theorem empty (hn : t.namespaces = []) (hi : t.items = []) : t.Keyed := by
  constructor
  case toPlaced => exact .empty hn hi
  all_goals simp [hn, hi]

theorem row_eq_of_name (h : t.Keyed) {a b : NamespaceRow} (ha : a ∈ t.namespaces)
    (hb : b ∈ t.namespaces) (he : a.name = b.name) : a = b :=
  List.inj_on_of_nodup_map h.names_distinct ha hb he

theorem row_eq_of_id (h : t.Keyed) {a b : NamespaceRow} (ha : a ∈ t.namespaces)
    (hb : b ∈ t.namespaces) (he : a.id = b.id) : a = b :=
  List.inj_on_of_nodup_map h.ids_distinct ha hb he

theorem item_eq_of_place (h : t.Keyed) {a b : ItemRow} (ha : a ∈ t.items)
    (hb : b ∈ t.items) (hns : a.ns = b.ns) (hkey : a.key = b.key) : a = b :=
  List.inj_on_of_nodup_map h.places_distinct ha hb (Prod.ext hns hkey)

theorem keeping (h : t.Keyed) (keep : ItemRow → Bool) : (t.keeping keep).Keyed := by
  have hsub : (t.items.filter keep).Sublist t.items := List.filter_sublist
  exact { h.toPlaced.keeping keep, h with
    owned := fun item hi => h.owned item (hsub.subset hi) }

/-- The cascade leaves no orphan: an item that stays has another owner than the record that goes. -/
theorem deleteNamespace (h : t.Keyed) (name : String) : (t.deleteNamespace name).2.Keyed := by
  have hplaced := h.toPlaced.deleteNamespace name
  unfold Tables.deleteNamespace at hplaced ⊢
  cases hr : t.namespaceRow? name with
  | none => exact h
  | some gone =>
    rw [hr] at hplaced
    obtain ⟨hgone, hname⟩ := namespaceRow?_eq_some hr
    have hsub : (t.namespaces.filter (·.name ≠ name)).Sublist t.namespaces := List.filter_sublist
    refine { hplaced with
      names_distinct := h.names_distinct.sublist (hsub.map _)
      ids_distinct := h.ids_distinct.sublist (hsub.map _)
      owned := ?_ }
    intro item hi
    obtain ⟨hi, hne⟩ := List.mem_filter.mp hi
    obtain ⟨row, hrow, he⟩ := h.owned item hi
    refine ⟨row, List.mem_filter.mpr ⟨hrow, decide_eq_true fun hn => ?_⟩, he⟩
    have := h.row_eq_of_name hrow hgone (hn.trans hname.symm)
    subst this
    exact of_decide_eq_true hne he.symm

theorem house (h : t.Keyed) (name : String) : (t.house name).Keyed := by
  have hplaced := h.toPlaced.house name
  cases hr : t.namespaceRow? name with
  | some row =>
    rw [house_of_some hr]
    exact h
  | none =>
    rw [house_of_none hr] at hplaced ⊢
    have hnew := namespaceRow?_eq_none hr
    refine { hplaced with names_distinct := ?_, ids_distinct := ?_, owned := ?_ }
    · simp only [List.map_append, List.map_cons, List.map_nil]
      refine List.nodup_append.mpr ⟨h.names_distinct, by simp, ?_⟩
      rintro a ha b hb rfl
      obtain ⟨row, hrow, rfl⟩ := List.mem_map.mp ha
      exact hnew row hrow (List.mem_singleton.mp hb)
    · simp only [List.map_append, List.map_cons, List.map_nil]
      refine List.nodup_append.mpr ⟨h.ids_distinct, by simp, ?_⟩
      rintro a ha b hb rfl
      obtain ⟨row, hrow, he⟩ := List.mem_map.mp ha
      have := h.ids_given row hrow
      have := List.mem_singleton.mp hb
      omega
    · intro item hi
      obtain ⟨row, hrow, he⟩ := h.owned item hi
      exact ⟨row, List.mem_append_left _ hrow, he⟩

theorem withItem (h : t.Keyed) {written : ItemRow}
    (howned : ∃ row ∈ t.namespaces, row.id = written.ns) : (t.withItem written).Keyed := by
  refine { h.toPlaced.withItem howned, h with owned := fun item hi => ?_ }
  rcases (mem_withItem h.places_distinct).mp hi with rfl | ⟨hi, -⟩
  · exact howned
  · exact h.owned item hi

theorem setNamespaceLimit (h : t.Keyed) (id : Int) (limit : UInt32) :
    (t.setNamespaceLimit id limit).Keyed := by
  have hcolumn {α : Type} (f : NamespaceRow → α)
      (hf : ∀ row : NamespaceRow, f { row with limit := some limit.toNat } = f row) :
      (t.setNamespaceLimit id limit).namespaces.map f = t.namespaces.map f := by
    refine map_column fun row => ?_
    split
    · exact hf row
    · rfl
  refine { h.toPlaced.setNamespaceLimit id limit with
    names_distinct := by rw [hcolumn _ fun _ => rfl]; exact h.names_distinct
    ids_distinct := by rw [hcolumn _ fun _ => rfl]; exact h.ids_distinct
    owned := fun item hi => ?_ }
  obtain ⟨row, hrow, he⟩ := h.owned item hi
  refine ⟨_, List.mem_map_of_mem hrow, ?_⟩
  split <;> exact he

end Keyed

end ScopedStore.Device.Tables

import ScopedStore.Device.Config
import ScopedStore.Proofs.Device.Keys

/-! The representation invariant of the two tables and the row operations that keep it. Budgets are
checked against recorded sizes only, so the bound on the total goes together with exact sizes,
unique names and keys, and an owner for every item. -/
namespace ScopedStore.Device

/-- A name or key that the length rules allow. -/
def Config.ValidName (config : Config) (text : String) : Prop :=
  1 ≤ text.utf8ByteSize ∧ text.utf8ByteSize ≤ config.maxValue.toNat

instance (config : Config) (text : String) : Decidable (config.ValidName text) :=
  inferInstanceAs (Decidable (_ ∧ _))

namespace Tables

structure Sound (config : Config) (t : Tables) : Prop extends Keyed t where
  names_valid : ∀ row ∈ t.namespaces, config.ValidName row.name
  keys_valid : ∀ item ∈ t.items, config.ValidName item.key
  values_fit : ∀ item ∈ t.items, item.value.utf8ByteSize ≤ config.maxValue.toNat
  names_measured : ∀ row ∈ t.namespaces, row.nameBytes = row.name.utf8ByteSize
  items_measured : ∀ item ∈ t.items,
    item.sizeBytes = item.key.utf8ByteSize + item.value.utf8ByteSize
  limits_fit : ∀ row ∈ t.namespaces, ∀ limit, row.limit = some limit →
    0 ≤ limit ∧ limit < 0x100000000
  within_budget : t.nameTotal + t.itemTotal ≤ config.maxSize.toNat

/-- The bytes that creating a record for this name would add. -/
def nameCost (t : Tables) (name : String) : Int :=
  if (t.namespaceRow? name).isSome then 0 else name.utf8ByteSize

namespace Sound

variable {config : Config} {t : Tables}

theorem empty {t : Tables} (hn : t.namespaces = []) (hi : t.items = []) : t.Sound config := by
  constructor
  case toKeyed => exact .empty hn hi
  all_goals simp [hn, hi, nameTotal, itemTotal]

theorem sizeBytes_nonneg (h : t.Sound config) {item : ItemRow} (hi : item ∈ t.items) :
    0 ≤ item.sizeBytes := by
  rw [h.items_measured item hi]
  omega

theorem sizes_nonneg (h : t.Sound config) : ∀ bytes ∈ t.items.map (·.sizeBytes), 0 ≤ bytes := by
  intro bytes hb
  obtain ⟨item, hitem, rfl⟩ := List.mem_map.mp hb
  exact h.sizeBytes_nonneg hitem

/-- Deleting items keeps the invariant, whatever selects them. -/
theorem keeping (h : t.Sound config) (keep : ItemRow → Bool) : (t.keeping keep).Sound config := by
  have hsub : (t.items.filter keep).Sublist t.items := List.filter_sublist
  have hmem {item : ItemRow} (hi : item ∈ t.items.filter keep) : item ∈ t.items := hsub.subset hi
  have hsum : ((t.items.filter keep).map (·.sizeBytes)).sum ≤ t.itemTotal :=
    (hsub.map _).sum_le_sum h.sizes_nonneg
  have := h.within_budget
  refine { h.toKeyed.keeping keep, h with
    keys_valid := fun item hi => h.keys_valid item (hmem hi)
    values_fit := fun item hi => h.values_fit item (hmem hi)
    items_measured := fun item hi => h.items_measured item (hmem hi)
    within_budget := ?_ }
  change t.nameTotal + ((t.items.filter keep).map (·.sizeBytes)).sum ≤ _
  omega

theorem deleteNamespace (h : t.Sound config) (name : String) :
    (t.deleteNamespace name).2.Sound config := by
  have hkeyed := h.toKeyed.deleteNamespace name
  unfold Tables.deleteNamespace at hkeyed ⊢
  cases hr : t.namespaceRow? name with
  | none => exact h
  | some gone =>
    rw [hr] at hkeyed
    have hk := h.keeping (·.ns ≠ gone.id)
    have hsub : (t.namespaces.filter (·.name ≠ name)).Sublist t.namespaces := List.filter_sublist
    have hmem {row : NamespaceRow} (hrow : row ∈ t.namespaces.filter (·.name ≠ name)) :
        row ∈ t.namespaces := hsub.subset hrow
    have hnames : ((t.namespaces.filter (·.name ≠ name)).map (·.nameBytes)).sum ≤ t.nameTotal := by
      refine (hsub.map _).sum_le_sum fun bytes hb => ?_
      obtain ⟨row, hrow, rfl⟩ := List.mem_map.mp hb
      have := h.names_measured row hrow
      omega
    have hbudget : t.nameTotal + _ ≤ _ := hk.within_budget
    exact { hkeyed, hk with
      names_valid := fun row hrow => h.names_valid row (hmem hrow)
      names_measured := fun row hrow => h.names_measured row (hmem hrow)
      limits_fit := fun row hrow => h.limits_fit row (hmem hrow)
      within_budget := (add_le_add_left hnames _).trans hbudget }

/-- A record may be made if its name fits the budget beside everything stored. -/
theorem house (h : t.Sound config) {name : String} (hv : config.ValidName name)
    (hroom : t.nameTotal + t.itemTotal + t.nameCost name ≤ config.maxSize.toNat) :
    (t.house name).Sound config := by
  have hkeyed := h.toKeyed.house name
  cases hr : t.namespaceRow? name with
  | some row =>
    rw [house_of_some hr]
    exact h
  | none =>
    rw [house_of_none hr] at hkeyed ⊢
    have hmem {row : NamespaceRow} {fresh : NamespaceRow}
        (hrow : row ∈ t.namespaces ++ [fresh]) : row ∈ t.namespaces ∨ row = fresh := by
      simpa using hrow
    refine { hkeyed, h with
      names_valid := ?_, names_measured := ?_, limits_fit := ?_, within_budget := ?_ }
    · intro row hrow
      rcases hmem hrow with hrow | rfl
      · exact h.names_valid row hrow
      · exact hv
    · intro row hrow
      rcases hmem hrow with hrow | rfl
      · exact h.names_measured row hrow
      · rfl
    · intro row hrow limit hl
      rcases hmem hrow with hrow | rfl
      · exact h.limits_fit row hrow limit hl
      · cases hl
    · simp only [nameCost, hr, Option.isSome_none, Bool.false_eq_true, if_false] at hroom
      simp only [nameTotal, itemTotal, List.map_append, List.map_cons, List.map_nil,
        List.sum_append, List.sum_cons, List.sum_nil] at hroom ⊢
      omega

/-- An item may be written under an existing record if it fits the budget in place of the one it
replaces. -/
theorem withItem (h : t.Sound config) {written : ItemRow}
    (howned : ∃ row ∈ t.namespaces, row.id = written.ns) (hkey : config.ValidName written.key)
    (hvalue : written.value.utf8ByteSize ≤ config.maxValue.toNat)
    (hsize : written.sizeBytes = written.key.utf8ByteSize + written.value.utf8ByteSize)
    (hroom : t.nameTotal + (t.itemTotal - t.charge written.ns written.key + written.sizeBytes) ≤
      config.maxSize.toNat) :
    (t.withItem written).Sound config := by
  have hmem {item : ItemRow} (hi : item ∈ (t.withItem written).items) :
      item = written ∨ item ∈ t.items :=
    ((mem_withItem h.places_distinct).mp hi).imp_right And.left
  refine { h.toKeyed.withItem howned, h with
    keys_valid := ?_, values_fit := ?_, items_measured := ?_, within_budget := ?_ }
  · intro item hi
    rcases hmem hi with rfl | hi
    · exact hkey
    · exact h.keys_valid item hi
  · intro item hi
    rcases hmem hi with rfl | hi
    · exact hvalue
    · exact h.values_fit item hi
  · intro item hi
    rcases hmem hi with rfl | hi
    · exact hsize
    · exact h.items_measured item hi
  · rw [itemTotal_withItem h.places_distinct]
    exact hroom

theorem setNamespaceLimit (h : t.Sound config) (id : Int) (limit : UInt32) :
    (t.setNamespaceLimit id limit).Sound config := by
  refine { h.toKeyed.setNamespaceLimit id limit, h with
    names_valid := ?_, names_measured := ?_, limits_fit := ?_, within_budget := ?_ }
  · intro row hrow
    obtain ⟨old, hold, _, hname, _⟩ := mem_setNamespaceLimit hrow
    exact hname ▸ h.names_valid old hold
  · intro row hrow
    obtain ⟨old, hold, _, hname, hbytes, _⟩ := mem_setNamespaceLimit hrow
    rw [hname, hbytes]
    exact h.names_measured old hold
  · intro row hrow number hl
    obtain ⟨old, hold, _, _, _, hlimit | hlimit⟩ := mem_setNamespaceLimit hrow
    · exact h.limits_fit old hold number (hlimit ▸ hl)
    · have := limit.toNat_lt
      cases hlimit.symm.trans hl
      omega
  · have hnames : (t.setNamespaceLimit id limit).nameTotal = t.nameTotal := by
      refine congrArg List.sum (map_column fun row => ?_)
      split <;> rfl
    rw [hnames]
    exact h.within_budget

end Sound

end Tables

end ScopedStore.Device

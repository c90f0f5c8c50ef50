import Mathlib
import ScopedStore.Device.Table

/-! Sums over stored rows, and the item list after an item is written or deleted. Nothing here needs
the rows to be consistent, except that replacing an item needs its key to be unique. -/
namespace ScopedStore.Device

/-- What identifies an item. -/
def ItemRow.place (row : ItemRow) : Int × String := (row.ns, row.key)

theorem fitsWord_iff {number : Int} :
    fitsWord number = true ↔ -2 ^ 63 ≤ number ∧ number < 2 ^ 63 := by
  unfold fitsWord
  simp only [Bool.and_eq_true, decide_eq_true_eq]
  omega

/-- A successful sum is the exact sum and in range, since a partial sum out of range ends it. -/
theorem sumStored_exact {numbers : List Int} {total : Int}
    (h : sumStored numbers = .ok total) : total = numbers.sum ∧ fitsWord total = true := by
  unfold sumStored at h
  suffices ∀ start, fitsWord start = true → numbers.foldlM (fun total number =>
      let next := total + number
      if fitsWord next then Except.ok next else .error Error.sumOverflow) start =
        .ok total → total = start + numbers.sum ∧ fitsWord total = true by
    simpa using this 0 (by decide) h
  clear h
  induction numbers with
  | nil =>
    intro start hstart h
    cases h
    exact ⟨(add_zero _).symm, hstart⟩
  | cons number rest ih =>
    intro start _ h
    simp only [List.foldlM_cons] at h
    split at h
    next hnext =>
      obtain ⟨hsum, hfits⟩ := ih _ hnext h
      refine ⟨?_, hfits⟩
      rw [List.sum_cons]
      omega
    next => cases h

theorem sumStored_eq_ok {numbers : List Int} {total : Int}
    (h : sumStored numbers = .ok total) : total = numbers.sum := (sumStored_exact h).1

theorem storedBytes_eq_ok {number : Int} {bytes : Nat} (h : storedBytes number = .ok bytes) :
    (bytes : Int) = number := by
  unfold storedBytes at h
  split at h
  · cases h
  · have := Except.ok.inj h
    omega

theorem storedLimit_eq_ok {number : Int} {limit : UInt32} (h : storedLimit number = .ok limit) :
    (limit.toNat : Int) = number := by
  unfold storedLimit at h
  split at h
  next hr =>
    have := Except.ok.inj h
    subst this
    rw [UInt32.toNat_ofNat_of_lt' (by simp only [UInt32.size]; omega)]
    omega
  · cases h

namespace Tables

def nameTotal (t : Tables) : Int := (t.namespaces.map (·.nameBytes)).sum

def itemTotal (t : Tables) : Int := (t.items.map (·.sizeBytes)).sum

/-- The recorded bytes of the items filed under an identifier, expired ones included. -/
def usage (t : Tables) (id : Int) : Int :=
  ((t.items.filter (·.ns = id)).map (·.sizeBytes)).sum

/-- The recorded bytes that an item frees when it is overwritten. -/
def charge (t : Tables) (id : Int) (key : String) : Int :=
  ((t.itemRow? id key).map (·.sizeBytes)).getD 0

/-- The tables less the items that are not kept. -/
def keeping (t : Tables) (keep : ItemRow → Bool) : Tables :=
  { t with items := t.items.filter keep }

theorem namespaceUsage_eq_ok {t : Tables} {id : Int} {bytes : Nat}
    (h : t.namespaceUsage id = .ok bytes) : (bytes : Int) = t.usage id := by
  unfold namespaceUsage at h
  cases hs : sumStored ((t.itemsOf id).map (·.sizeBytes)) with
  | error cause => rw [hs] at h; cases h
  | ok total =>
    rw [hs] at h
    rw [storedBytes_eq_ok h, sumStored_eq_ok hs]
    exact ((List.mergeSort_perm _ _).map _).sum_eq

theorem globalUsage_eq_ok {t : Tables} {bytes : Nat} (h : t.globalUsage = .ok bytes) :
    (bytes : Int) = t.nameTotal + t.itemTotal := by
  unfold globalUsage at h
  cases hn : sumStored (t.namespaces.map (·.nameBytes)) with
  | error cause => rw [hn] at h; cases h
  | ok names =>
    cases hi : sumStored (t.items.map (·.sizeBytes)) with
    | error cause => rw [hn, hi] at h; cases h
    | ok items =>
      rw [hn, hi] at h
      simp only [bind, Except.bind] at h
      split at h
      · rw [storedBytes_eq_ok h, sumStored_eq_ok hn, sumStored_eq_ok hi]
        rfl
      · cases h

theorem entryRecord?_eq_ok {t : Tables} {id : Int} {key : String} {entry : Option EntryRecord}
    (h : t.entryRecord? id key = .ok entry) :
    ((entry.elim 0 (·.sizeBytes) : Nat) : Int) = t.charge id key ∧
      entry.map (fun e => (e.value, e.expiresAt)) =
        (t.itemRow? id key).map fun row => (row.value, row.expiresAt) := by
  unfold entryRecord? at h
  unfold charge
  cases hr : t.itemRow? id key with
  | none =>
    rw [hr] at h
    cases h
    exact ⟨rfl, rfl⟩
  | some row =>
    rw [hr] at h
    cases hb : storedBytes row.sizeBytes with
    | error cause => simp only [hb] at h; cases h
    | ok bytes =>
      simp only [hb] at h
      cases h
      exact ⟨storedBytes_eq_ok hb, rfl⟩

/-- The tables with an item written over the one in its place, or behind all others. -/
def withItem (t : Tables) (written : ItemRow) : Tables :=
  { t with
    items :=
      if (t.itemRow? written.ns written.key).isSome then
        t.items.map fun row =>
          if row.ns = written.ns ∧ row.key = written.key then written else row
      else t.items ++ [written] }

theorem putItem_eq_ok_iff {t t' : Tables} {id : Int} {key value : String} {expiresAt : Option Int} :
    t.putItem id key value expiresAt = .ok t' ↔
      (∃ row ∈ t.namespaces, row.id = id) ∧
        t' = t.withItem ⟨id, key, value, key.utf8ByteSize + value.utf8ByteSize, expiresAt⟩ := by
  have hany : t.namespaces.any (·.id = id) = true ↔ ∃ row ∈ t.namespaces, row.id = id := by
    simp
  unfold putItem withItem
  rw [← hany]
  cases t.namespaces.any (·.id = id) with
  | false => simp
  | true =>
    cases (t.itemRow? id key).isSome <;> simp [eq_comm]

theorem itemRow?_eq_some {t : Tables} {id : Int} {key : String} {row : ItemRow}
    (h : t.itemRow? id key = some row) : row ∈ t.items ∧ row.ns = id ∧ row.key = key :=
  ⟨List.mem_of_find?_eq_some h, by simpa using List.find?_some h⟩

theorem itemRow?_eq_some_iff {t : Tables} (distinct : (t.items.map (·.place)).Nodup) {id : Int}
    {key : String} {row : ItemRow} :
    t.itemRow? id key = some row ↔ row ∈ t.items ∧ row.ns = id ∧ row.key = key := by
  refine ⟨itemRow?_eq_some, fun ⟨hrow, hns, hkey⟩ => ?_⟩
  cases hr : t.itemRow? id key with
  | none =>
    have hnone : row.ns = id → row.key ≠ key := by simpa using List.find?_eq_none.mp hr row hrow
    exact absurd hkey (hnone hns)
  | some found =>
    obtain ⟨hfound, hns', hkey'⟩ := itemRow?_eq_some hr
    rw [List.inj_on_of_nodup_map distinct hfound hrow
      (Prod.ext (hns'.trans hns.symm) (hkey'.trans hkey.symm))]

section Write
variable {t : Tables} {written : ItemRow}

/-- Writing an item takes out what stood in its place, at most one row whose recorded bytes are the
charge of the key, and puts the item in. -/
theorem withItem_split (distinct : (t.items.map (·.place)).Nodup) :
    ∃ front old back, t.items = front ++ old ++ back ∧
      (t.withItem written).items = front ++ written :: back ∧
      (∀ row ∈ old, row.place = written.place) ∧
      (∀ row ∈ front ++ back, row.place ≠ written.place) ∧
      (old.map (·.sizeBytes)).sum = t.charge written.ns written.key := by
  have hplace (row : ItemRow) :
      row.place = written.place ↔ row.ns = written.ns ∧ row.key = written.key := Prod.mk_inj
  cases hr : t.itemRow? written.ns written.key with
  | none =>
    refine ⟨t.items, [], [], by simp, by simp [withItem, hr], by simp, ?_, by simp [charge, hr]⟩
    intro row hrow
    rw [List.append_nil] at hrow
    have := List.find?_eq_none.mp hr row hrow
    rw [Ne, hplace]
    simpa using this
  | some old =>
    obtain ⟨_, hns, hkey⟩ := itemRow?_eq_some hr
    obtain ⟨_, front, back, hitems, hfront⟩ := List.find?_eq_some_iff_append.mp hr
    have hfront' (row : ItemRow) (h : row ∈ front) : row.place ≠ written.place := by
      rw [Ne, hplace]
      simpa [imp_iff_not_or] using hfront row h
    have hback (row : ItemRow) (h : row ∈ back) : row.place ≠ written.place := by
      intro he
      rw [hitems, List.map_append, List.map_cons] at distinct
      have hold : old.place = row.place := by rw [he, hplace]; exact ⟨hns, hkey⟩
      exact (List.nodup_cons.mp (List.nodup_append.mp distinct).2.1).1
        (List.mem_map.mpr ⟨row, h, hold.symm⟩)
    have hkeep (rows : List ItemRow) (h : ∀ row ∈ rows, row.place ≠ written.place) :
        (rows.map fun row => if row.ns = written.ns ∧ row.key = written.key then written else row) =
          rows := by
      refine (List.map_congr_left fun row hrow => ?_).trans (List.map_id rows)
      exact if_neg ((hplace row).not.mp (h row hrow))
    refine ⟨front, [old], back, by simpa using hitems, ?_, ?_, ?_, by simp [charge, hr]⟩
    · simp only [withItem, hr, Option.isSome_some, if_true, hitems, List.map_append, List.map_cons,
        hkeep front hfront', hkeep back hback, hns, hkey, and_self]
    · intro row hrow
      rw [List.mem_singleton.mp hrow, hplace]
      exact ⟨hns, hkey⟩
    · intro row hrow
      rcases List.mem_append.mp hrow with h | h
      · exact hfront' row h
      · exact hback row h

theorem mem_withItem (distinct : (t.items.map (·.place)).Nodup) {row : ItemRow} :
    row ∈ (t.withItem written).items ↔
      row = written ∨ row ∈ t.items ∧ row.place ≠ written.place := by
  obtain ⟨front, old, back, hitems, hafter, hold, hrest, _⟩ := withItem_split distinct
  rw [hitems, hafter]
  simp only [List.mem_append, List.mem_cons] at hrest ⊢
  constructor
  · rintro (h | rfl | h)
    · exact .inr ⟨.inl (.inl h), hrest row (.inl h)⟩
    · exact .inl rfl
    · exact .inr ⟨.inr h, hrest row (.inr h)⟩
  · rintro (rfl | ⟨(h | h) | h, hne⟩)
    · exact .inr (.inl rfl)
    · exact .inl h
    · exact absurd (hold row h) hne
    · exact .inr (.inr h)

theorem withItem_places_nodup (distinct : (t.items.map (·.place)).Nodup) :
    ((t.withItem written).items.map (·.place)).Nodup := by
  obtain ⟨front, old, back, hitems, hafter, _, hrest, _⟩ := withItem_split distinct
  have hsub : (front ++ back).Sublist t.items := by
    rw [hitems, List.append_assoc]
    exact List.Sublist.append_left (List.sublist_append_right old back) front
  rw [hafter, List.map_append, List.map_cons, List.perm_middle.nodup_iff, List.nodup_cons,
    ← List.map_append]
  refine ⟨fun h => ?_, distinct.sublist (hsub.map _)⟩
  obtain ⟨row, hrow, he⟩ := List.mem_map.mp h
  exact hrest row hrow he

theorem itemRow?_withItem (distinct : (t.items.map (·.place)).Nodup) (id : Int) (key : String) :
    (t.withItem written).itemRow? id key =
      if id = written.ns ∧ key = written.key then some written else t.itemRow? id key := by
  ext row
  rw [itemRow?_eq_some_iff (withItem_places_nodup distinct), mem_withItem distinct]
  split
  next he =>
    obtain ⟨rfl, rfl⟩ := he
    constructor
    · rintro ⟨rfl | ⟨_, hne⟩, hns, hkey⟩
      · rfl
      · exact absurd (Prod.ext hns hkey) hne
    · intro h
      cases h
      exact ⟨.inl rfl, rfl, rfl⟩
  next hne =>
    rw [itemRow?_eq_some_iff distinct]
    constructor
    · rintro ⟨rfl | ⟨hrow, _⟩, hns, hkey⟩
      · exact absurd ⟨hns.symm, hkey.symm⟩ hne
      · exact ⟨hrow, hns, hkey⟩
    · rintro ⟨hrow, rfl, rfl⟩
      exact ⟨.inr ⟨hrow, fun he => hne (Prod.mk_inj.mp he)⟩, rfl, rfl⟩

theorem itemTotal_withItem (distinct : (t.items.map (·.place)).Nodup) :
    (t.withItem written).itemTotal =
      t.itemTotal - t.charge written.ns written.key + written.sizeBytes := by
  obtain ⟨front, old, back, hitems, hafter, _, _, hsum⟩ := withItem_split distinct
  unfold itemTotal
  rw [hafter, hitems, ← hsum]
  simp only [List.map_append, List.map_cons, List.sum_append, List.sum_cons]
  omega

theorem usage_withItem (distinct : (t.items.map (·.place)).Nodup) :
    (t.withItem written).usage written.ns =
      t.usage written.ns - t.charge written.ns written.key + written.sizeBytes := by
  obtain ⟨front, old, back, hitems, hafter, hold, _, hsum⟩ := withItem_split distinct
  have hall : old.filter (·.ns = written.ns) = old :=
    List.filter_eq_self.mpr fun row h => decide_eq_true (congrArg Prod.fst (hold row h))
  unfold usage
  rw [hafter, hitems, ← hsum]
  simp only [List.filter_append, hall, List.filter_cons, decide_true, if_true, List.map_append,
    List.map_cons, List.sum_append, List.sum_cons]
  omega

theorem usage_withItem_of_ne (distinct : (t.items.map (·.place)).Nodup) {id : Int}
    (h : id ≠ written.ns) : (t.withItem written).usage id = t.usage id := by
  obtain ⟨front, old, back, hitems, hafter, hold, _, _⟩ := withItem_split distinct
  have hnone : old.filter (·.ns = id) = [] :=
    List.filter_eq_nil_iff.mpr fun row hr => by
      rw [decide_eq_true_eq]
      exact fun he => h (he.symm.trans (congrArg Prod.fst (hold row hr)))
  unfold usage
  rw [hafter, hitems]
  simp only [List.filter_append, hnone, List.filter_cons, h.symm, decide_false, List.append_nil,
    Bool.false_eq_true, if_false]

end Write

end Tables

end ScopedStore.Device

import Mathlib
import ScopedStore.Time.Expiry

/-! Lifetimes as time goes on. Far from the end of the clock's range no clamp applies: what is left
of a lifetime is its end less the time now. -/
namespace ScopedStore.Expiry

theorem isExpired_mono {expiresAt : Option Int} {now later : Int} (hle : now ≤ later)
    (h : isExpired expiresAt now = true) : isExpired expiresAt later = true := by
  cases expiresAt with
  | none => cases h
  | some last =>
    simp only [isExpired, decide_eq_true_eq] at h ⊢
    omega

theorem toNat_ofNat_min (seconds : Nat) :
    (UInt32.ofNat (min seconds longest)).toNat = min seconds longest := by
  refine UInt32.toNat_ofNat_of_lt' ?_
  unfold longest
  simp only [UInt32.size]
  omega

/-- What is left before an end is told as far as a lifetime can tell it, and never as zero. -/
theorem remaining_eq_some_iff {last now : Int} {rest : UInt32} :
    remaining (some last) now = some rest ↔
      now < last ∧ (rest.toNat : Int) = min (last - now) longest := by
  unfold remaining
  dsimp only
  split
  next hover => simp [Int.not_lt.mpr hover]
  next hleft =>
    rw [Option.some.injEq, ← UInt32.toNat_inj, toNat_ofNat_min]
    omega

theorem remaining_some_eq_none_iff {last now : Int} :
    remaining (some last) now = none ↔ last ≤ now := by
  rw [remaining_eq_none_iff, isExpired, decide_eq_true_eq]

theorem exists_remaining {last now : Int} (h : now < last) :
    ∃ rest, remaining (some last) now = some rest ∧
      (rest.toNat : Int) = min (last - now) longest := by
  have hsome : remaining (some last) now ≠ none :=
    fun hnone => Int.not_le.mpr h (remaining_some_eq_none_iff.mp hnone)
  obtain ⟨rest, hrest⟩ := Option.ne_none_iff_exists'.mp hsome
  exact ⟨rest, hrest, (remaining_eq_some_iff.mp hrest).2⟩

/-- As time goes on, no more is left than before. -/
theorem remaining_later {last now later : Int} {rest : UInt32} (hle : now ≤ later)
    (h : remaining (some last) later = some rest) :
    ∃ before, remaining (some last) now = some before ∧ rest ≤ before := by
  obtain ⟨hleft, hrest⟩ := remaining_eq_some_iff.mp h
  obtain ⟨before, hsome, hbefore⟩ := exists_remaining (Int.lt_of_le_of_lt hle hleft)
  refine ⟨before, hsome, UInt32.le_iff_toNat_le.mpr ?_⟩
  omega

theorem ofTtl_eq {ttl : UInt32} {written : Int} (httl : ttl ≠ 0)
    (hfits : written + ttl.toNat ≤ lastSecond) :
    ofTtl ttl written = some (written + ttl.toNat) := by
  rw [ofTtl, if_neg httl, Int.min_eq_left hfits]

/-- The lifetime left of a value written before, or that it has none or has reached its end. -/
theorem remaining_ofTtl {ttl rest : UInt32} {written now : Int} (hle : written ≤ now)
    (hnow : now < 2 ^ 62) :
    remaining (ofTtl ttl written) now = some rest ↔
      ttl = 0 ∧ rest = 0 ∨
        now < written + ttl.toNat ∧ (rest.toNat : Int) = written + ttl.toNat - now := by
  by_cases httl : ttl = 0
  · subst httl
    have hover : ¬ now < written := Int.not_lt.mpr hle
    simp [ofTtl, remaining, hover, eq_comm]
  · have := ttl.toNat_lt
    have hfits : written + ttl.toNat ≤ lastSecond := by
      unfold lastSecond
      omega
    have hshort : written + ttl.toNat - now ≤ longest := by
      unfold longest
      omega
    rw [ofTtl_eq httl hfits, remaining_eq_some_iff, Int.min_eq_left hshort]
    simp [httl]

end ScopedStore.Expiry

import ScopedStore.Proofs.Time.Lifetimes

/-! Lifetimes and expiries, step by step on signed words of 64 bits. A sum is brought to the
nearest word, but a difference need not be a word at all. From 1970 on it always is, and the words
tell what the numbers do. -/
namespace ScopedStore.Expiry

namespace Word

/-- The difference of two words, if it is a word. -/
def difference? (a b : Int64) : Option Int64 :=
  if -2 ^ 63 ≤ a.toInt - b.toInt ∧ a.toInt - b.toInt < 2 ^ 63 then some (a - b) else none

/-- The word nearest to the sum of two. -/
def nearestSum (a b : Int64) : Int64 :=
  if a.toInt + b.toInt < -2 ^ 63 then Int64.minValue
  else if 2 ^ 63 ≤ a.toInt + b.toInt then Int64.maxValue
  else a + b

/-- A word of seconds as a lifetime, the longest where it is too large for one. -/
def lifetime (rest : Int64) : UInt32 :=
  if 0 ≤ rest ∧ rest ≤ 0xffffffff then rest.toUInt64.toUInt32 else 0xffffffff

def ofTtl (ttl : UInt32) (now : Int64) : Option Int64 :=
  if ttl = 0 then none else some (nearestSum now (.ofNat ttl.toNat))

/-- The lifetime left, if the difference on the way to it is a word. -/
def remaining? (expiresAt : Option Int64) (now : Int64) : Option (Option UInt32) :=
  match expiresAt with
  | none => some (some 0)
  | some last =>
    if last ≤ now then some none
    else (difference? last now).map fun rest => some (lifetime rest)

theorem difference?_eq_some_iff {a b d : Int64} :
    difference? a b = some d ↔ d.toInt = a.toInt - b.toInt := by
  have hlow := d.le_toInt
  have hhigh := d.toInt_lt
  unfold difference?
  split
  next hrange =>
    -- In range nothing is wrapped.
    have hexact : (a - b).toInt = a.toInt - b.toInt := by
      rw [Int64.toInt_sub]
      exact Int.bmod_eq_of_le (by omega) (by omega)
    rw [Option.some.injEq, ← Int64.toInt_inj, hexact, eq_comm]
  next hrange =>
    refine iff_of_false (by simp) fun heq => hrange ?_
    omega

theorem nearestSum_toInt (a b : Int64) :
    (nearestSum a b).toInt = max (-2 ^ 63) (min (a.toInt + b.toInt) lastSecond) := by
  have hleast : Int64.minValue.toInt = -2 ^ 63 := rfl
  have hgreatest : Int64.maxValue.toInt = lastSecond := rfl
  unfold nearestSum
  unfold lastSecond at hgreatest ⊢
  split_ifs with hlow hhigh
  · omega
  · omega
  · rw [Int64.toInt_add, Int.bmod_eq_of_le (by omega) (by omega)]
    omega

theorem lifetime_eq {rest : Int64} (h : 0 ≤ rest) :
    lifetime rest = .ofNat (min rest.toInt.toNat longest) := by
  have hlongest : (0xffffffff : Int64).toInt = longest := rfl
  have hnonneg := Int64.le_iff_toInt_le.mp h
  rw [← UInt32.toNat_inj, toNat_ofNat_min, lifetime]
  split
  next hshort =>
    have hword : rest.toUInt64.toNat = rest.toInt.toNat := Int64.toNat_toUInt64_of_le h
    have hle := Int64.le_iff_toInt_le.mp hshort.2
    rw [UInt64.toNat_toUInt32, hword]
    unfold longest at hlongest ⊢
    omega
  next hlong =>
    have hlt := Int64.lt_iff_toInt_lt.mp (Int64.not_le.mp fun hle => hlong ⟨h, hle⟩)
    have htop : (0xffffffff : UInt32).toNat = longest := rfl
    rw [htop]
    omega

theorem ofTtl_toInt (ttl : UInt32) (now : Int64) :
    (ofTtl ttl now).map Int64.toInt = Expiry.ofTtl ttl now.toInt := by
  have hwide : (Int64.ofNat ttl.toNat).toInt = ttl.toNat :=
    Int64.toInt_ofNat_of_lt (ttl.toNat_lt.trans (by decide))
  unfold ofTtl Expiry.ofTtl
  split
  · rfl
  · have hlow := now.le_toInt
    rw [Option.map_some, nearestSum_toInt, hwide, Int.max_eq_right]
    unfold lastSecond
    omega

theorem remaining?_eq {now : Int64} (hnow : 0 ≤ now) (expiresAt : Option Int64) :
    remaining? expiresAt now = some (remaining (expiresAt.map Int64.toInt) now.toInt) := by
  cases expiresAt with
  | none => rfl
  | some last =>
    unfold remaining? remaining
    dsimp only [Option.map_some]
    by_cases hle : last ≤ now
    · rw [if_pos hle, if_pos (Int64.le_iff_toInt_le.mp hle)]
    · have hlt := Int64.lt_iff_toInt_lt.mp (Int64.not_le.mp hle)
      have hzero : 0 ≤ now.toInt := Int64.le_iff_toInt_le.mp hnow
      have hrange : -2 ^ 63 ≤ last.toInt - now.toInt ∧ last.toInt - now.toInt < 2 ^ 63 := by
        have := last.toInt_lt
        omega
      have hdifference : difference? last now = some (last - now) := if_pos hrange
      have hexact := difference?_eq_some_iff.mp hdifference
      have hnonneg : 0 ≤ last - now := by
        rw [Int64.le_iff_toInt_le, hexact]
        exact Int.sub_nonneg_of_le hlt.le
      rw [if_neg hle, if_neg (Int.not_le.mpr hlt), hdifference, Option.map_some,
        lifetime_eq hnonneg, hexact]

/-- Before 1970 the last second of all is too far off. -/
theorem remaining?_eq_iff {now : Int64} :
    (∀ expiresAt : Option Int64,
      remaining? expiresAt now = some (remaining (expiresAt.map Int64.toInt) now.toInt)) ↔
      0 ≤ now := by
  refine ⟨fun h => ?_, remaining?_eq⟩
  by_contra hnow
  have hbefore : now.toInt < 0 := Int64.lt_iff_toInt_lt.mp (Int64.not_le.mp hnow)
  have hlast : Int64.maxValue.toInt = 2 ^ 63 - 1 := rfl
  have hahead : ¬ Int64.maxValue ≤ now := by
    rw [Int64.le_iff_toInt_le]
    omega
  have hfar : difference? Int64.maxValue now = none := if_neg (by omega)
  have hend := h (some Int64.maxValue)
  rw [remaining?, if_neg hahead, hfar] at hend
  cases hend

end Word

/-- From 1970 on, and only then, a lifetime left can be told on words whatever the expiry, and the
words tell it as the numbers do. It is over just when the expiry is reached. Before, it is what is
left, up to the longest lifetime, is never told as zero, and does not grow as time goes on. Of a
lifetime given before, what is left is its end less the time now. -/
theorem lifetimes_exact_on_words (now later last : Int64) (ttl : UInt32) :
    ((∀ expiresAt : Option Int64, Word.remaining? expiresAt now =
        some (remaining (expiresAt.map Int64.toInt) now.toInt)) ↔ 0 ≤ now) ∧
      (Word.ofTtl ttl now).map Int64.toInt = ofTtl ttl now.toInt ∧
      (remaining (some last.toInt) now.toInt = none ↔ last ≤ now) ∧
      (now < last → ∃ rest, remaining (some last.toInt) now.toInt = some rest ∧
        (rest.toNat : Int) = min (last.toInt - now.toInt) (2 ^ 32 - 1) ∧ 1 ≤ rest.toNat) ∧
      (now ≤ later → ∀ rest, remaining (some last.toInt) later.toInt = some rest →
        ∃ before, remaining (some last.toInt) now.toInt = some before ∧ rest ≤ before) ∧
      (ttl ≠ 0 → now.toInt + ttl.toNat < 2 ^ 63 → now ≤ later →
        (remaining (ofTtl ttl now.toInt) later.toInt = none ↔
          now.toInt + ttl.toNat ≤ later.toInt) ∧
        (later.toInt < now.toInt + ttl.toNat →
          ∃ rest, remaining (ofTtl ttl now.toInt) later.toInt = some rest ∧
            (rest.toNat : Int) = now.toInt + ttl.toNat - later.toInt ∧ 1 ≤ rest.toNat ∧
            rest ≤ ttl)) := by
  have hlongest : (longest : Int) = 2 ^ 32 - 1 := rfl
  refine ⟨Word.remaining?_eq_iff, Word.ofTtl_toInt ttl now, ?_, fun hahead => ?_,
    fun hle rest hrest => remaining_later (Int64.le_iff_toInt_le.mp hle) hrest,
    fun httl hfits hle => ?_⟩
  · rw [remaining_some_eq_none_iff, Int64.le_iff_toInt_le]
  · rw [Int64.lt_iff_toInt_lt] at hahead
    obtain ⟨rest, hrest, hvalue⟩ := exists_remaining hahead
    rw [hlongest] at hvalue
    exact ⟨rest, hrest, hvalue, by omega⟩
  · rw [Int64.le_iff_toInt_le] at hle
    rw [ofTtl_eq httl (by unfold lastSecond; omega)]
    refine ⟨remaining_some_eq_none_iff, fun hahead => ?_⟩
    obtain ⟨rest, hrest, hvalue⟩ := exists_remaining hahead
    have hbound := ttl.toNat_lt
    rw [hlongest, Int.min_eq_left (by omega)] at hvalue
    exact ⟨rest, hrest, hvalue, by omega, UInt32.le_iff_toNat_le.mpr (by omega)⟩

/-- Seven seconds given where the clock ends with them, one second before the end. -/
theorem lifetimes_exact_on_words_last_second :
    let now : Int64 := 9223372036854775800
    let later : Int64 := 9223372036854775806
    0 ≤ now ∧ now ≤ later ∧ now.toInt + (7 : UInt32).toNat = lastSecond ∧
      Word.remaining? (some Int64.minValue) now = some none ∧
      ∃ rest, remaining (ofTtl 7 now.toInt) later.toInt = some rest ∧ (rest.toNat : Int) = 1 ∧
        1 ≤ rest.toNat ∧ rest ≤ 7 := by
  intro now later
  have hnow : 0 ≤ now := by decide
  have hle : now ≤ later := by decide
  have hends : now.toInt + (7 : UInt32).toNat = lastSecond := by decide
  obtain ⟨hwords, -, hpast, -, -, hgiven⟩ := lifetimes_exact_on_words now later Int64.minValue 7
  have hover : remaining (some Int64.minValue.toInt) now.toInt = none := hpast.mpr (by decide)
  have hfirst := hwords.mpr hnow (some Int64.minValue)
  refine ⟨hnow, hle, hends, hfirst.trans (congrArg some hover), ?_⟩
  obtain ⟨-, htold⟩ := hgiven (by decide) (by decide) hle
  obtain ⟨rest, hrest, hvalue, hpos, hgranted⟩ := htold (by decide)
  have hone : now.toInt + (7 : UInt32).toNat - later.toInt = 1 := by decide
  exact ⟨rest, hrest, hvalue.trans hone, hpos, hgranted⟩

end ScopedStore.Expiry

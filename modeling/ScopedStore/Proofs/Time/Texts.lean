import ScopedStore.Time.Timestamp
import ScopedStore.Proofs.Decimal.Digits

/-! The texts of lengths of time and of points in time read back as what was written. -/
namespace ScopedStore

namespace Duration

theorem point_notMem {cs : List Char} (h : Decimal.areDigits cs = true) : '.' ∉ cs := by
  intro hmem
  exact absurd (Decimal.isDigit_of_areDigits h '.' hmem) (by decide)

section Split
variable {whole : List Char} (hwhole : '.' ∉ whole) (fraction : List Char)
include hwhole

theorem splitPoint_whole : splitPoint whole = (whole, []) := by
  have hall : ∀ c ∈ whole, (c != '.') = true := fun c hc =>
    bne_iff_ne.mpr fun heq => hwhole (heq ▸ hc)
  unfold splitPoint
  rw [List.takeWhile_eq_self_iff.mpr hall, List.dropWhile_eq_nil_iff.mpr hall]
  rfl

theorem splitPoint_point : splitPoint (whole ++ '.' :: fraction) = (whole, fraction) := by
  have hall : ∀ c ∈ whole, (c != '.') = true := fun c hc =>
    bne_iff_ne.mpr fun heq => hwhole (heq ▸ hc)
  unfold splitPoint
  rw [List.takeWhile_append_of_pos hall, List.dropWhile_append_of_pos hall]
  simp

theorem ofChars?_whole : ofChars? (whole ++ ['s']) = ofDigits? whole [] := by
  rw [ofChars?, if_pos List.getLast?_concat, List.dropLast_concat, splitPoint_whole hwhole]

theorem ofChars?_point :
    ofChars? (whole ++ '.' :: fraction ++ ['s']) = ofDigits? whole fraction := by
  rw [ofChars?, if_pos List.getLast?_concat, List.dropLast_concat, splitPoint_point hwhole]

end Split

theorem ofDigits?_digits (d : Duration) {fraction : List Char}
    (hdigits : Decimal.areDigits fraction = true) (hlength : fraction.length ≤ 9)
    (hvalue : Decimal.fractionValue 9 fraction = d.nanos) :
    ofDigits? (Decimal.digits d.seconds.toNat) fraction = some d := by
  have hseconds : d.seconds.toNat < UInt64.size := d.seconds.toNat_lt
  simp [ofDigits?, Decimal.digits_ne_nil, Decimal.digits_areDigits, Decimal.value_digits, hdigits,
    hlength, hvalue, hseconds, d.nanos_lt]

theorem parse?_text (d : Duration) : parse? d.text = some d := by
  have hwhole := Decimal.digits_areDigits d.seconds.toNat
  have hlt : d.nanos < 10 ^ 9 := lt_of_lt_of_eq d.nanos_lt (by norm_num [nanosPerSecond])
  unfold parse? text chars
  rw [String.toList_ofList]
  dsimp only
  by_cases hnanos : d.nanos = 0
  · have hvalue : Decimal.fractionValue 9 [] = d.nanos := by
      simp [hnanos, Decimal.fractionValue, Decimal.value]
    rw [if_pos hnanos, List.append_nil, ofChars?_whole (point_notMem hwhole)]
    exact ofDigits?_digits d rfl (Nat.zero_le 9) hvalue
  · rw [if_neg hnanos, ofChars?_point (point_notMem hwhole)]
    have hvalue : Decimal.fractionValue 9 (Decimal.fractionDigits 9 d.nanos) = d.nanos :=
      Decimal.fractionValue_fractionDigits hlt
    exact ofDigits?_digits d (Decimal.fractionDigits_areDigits 9 d.nanos)
      (Decimal.fractionDigits_length_le 9 d.nanos) hvalue

end Duration

theorem Calendar.daysInMonth_le (year : Int) (month : Nat) : daysInMonth year month ≤ 31 := by
  unfold daysInMonth
  split
  · split <;> decide
  · decide
  · decide
  · decide
  · decide
  · exact le_rfl

namespace Timestamp

/-- A text that does not go on with a place behind the point. -/
def EndsNumber (rest : List Char) : Prop := ∀ c ∈ rest.head?, c.isDigit = false ∧ c ≠ '.'

theorem readFraction_places {places rest : List Char} (hdigits : Decimal.areDigits places = true)
    (hplaces : places ≠ []) (hrest : EndsNumber rest) :
    readFraction ('.' :: (places ++ rest)) = some (Decimal.fractionValue 9 places, rest) := by
  have hall := Decimal.isDigit_of_areDigits hdigits
  have hstop : rest.takeWhile Char.isDigit = [] ∧ rest.dropWhile Char.isDigit = rest := by
    cases rest with
    | nil => simp
    | cons c rest => simp [(hrest c rfl).1]
  simp [readFraction, List.takeWhile_append_of_pos hall, List.dropWhile_append_of_pos hall, hstop,
    hplaces]

theorem readFraction_none {rest : List Char} (hrest : EndsNumber rest) :
    readFraction rest = some (0, rest) := by
  unfold readFraction
  split
  next rest => exact absurd rfl (hrest '.' rfl).2
  next => rfl

theorem offsetChars_endsNumber (offset : Int) : EndsNumber (offsetChars offset) := by
  intro c hc
  unfold offsetChars at hc
  split_ifs at hc <;> cases hc <;> decide

theorem takeTwo {n : Nat} (h : n < 100) (rest : List Char) :
    Decimal.takePadded 2 (Decimal.padded 2 n ++ rest) = some (n, rest) :=
  Decimal.takePadded_padded h rest

theorem readOffset_signed {hours minutes : Nat} (hhours : hours < 24) (hminutes : minutes < 60)
    (isNegative : Bool) :
    readOffset ((if isNegative then '-' else '+') ::
        (Decimal.padded 2 hours ++ ':' :: Decimal.padded 2 minutes)) =
      some (if isNegative then -((hours * 60 + minutes : Nat) : Int)
        else ((hours * 60 + minutes : Nat) : Int)) := by
  have hfirst := takeTwo (by omega : hours < 100) (':' :: Decimal.padded 2 minutes)
  have hsecond := takeTwo (by omega : minutes < 100) []
  rw [List.append_nil] at hsecond
  cases isNegative <;>
    simp [readOffset, hfirst, hsecond, expect, Nat.not_lt.mpr (Nat.le_of_lt_succ hhours),
      Nat.not_lt.mpr (Nat.le_of_lt_succ hminutes)]

theorem readOffset_offsetChars {offset : Int} (h : -1440 < offset ∧ offset < 1440) :
    readOffset (offsetChars offset) = some offset := by
  unfold offsetChars
  by_cases hzero : offset = 0
  · subst hzero
    rfl
  · rw [if_neg hzero]
    have hsigned := readOffset_signed (by omega : offset.natAbs / 60 < 24)
      (by omega : offset.natAbs % 60 < 60) (decide (offset < 0))
    have hminutes : offset.natAbs / 60 * 60 + offset.natAbs % 60 = offset.natAbs := by omega
    rw [hminutes] at hsigned
    simp only [decide_eq_true_eq] at hsigned
    refine hsigned.trans (congrArg some ?_)
    split <;> omega

theorem ofFields?_fields (t : Timestamp) :
    ofFields? t.year t.month t.day t.hour t.minute t.second t.nanos t.offset = some t := by
  have hleap : t.second ≠ 60 := Nat.ne_of_lt t.second_lt
  have hfields : t.year < 10000 ∧ (1 ≤ t.month ∧ t.month ≤ 12) ∧
      (1 ≤ t.day ∧ t.day ≤ Calendar.daysInMonth t.year t.month) ∧ t.hour < 24 ∧ t.minute < 60 ∧
      t.second < 60 ∧ t.nanos < nanosPerSecond ∧ (-1440 < t.offset ∧ t.offset < 1440) :=
    ⟨t.year_lt, t.month_mem, t.day_mem, t.hour_lt, t.minute_lt, t.second_lt, t.nanos_lt,
      t.offset_mem⟩
  simp [ofFields?, hleap, hfields]

theorem readFraction_nanos {nanos : Nat} (h : nanos < 10 ^ 9) {rest : List Char}
    (hrest : EndsNumber rest) :
    readFraction ((if nanos = 0 then [] else '.' :: Decimal.fractionDigits 9 nanos) ++ rest) =
      some (nanos, rest) := by
  split
  next hzero =>
    rw [hzero]
    exact readFraction_none hrest
  next hne =>
    have hplaces := readFraction_places (Decimal.fractionDigits_areDigits 9 nanos)
      (Decimal.fractionDigits_ne_nil h hne) hrest
    rw [Decimal.fractionValue_fractionDigits h] at hplaces
    exact hplaces

theorem parse?_text (t : Timestamp) : parse? t.text = some t := by
  have hnanos : t.nanos < 10 ^ 9 := lt_of_lt_of_eq t.nanos_lt (by norm_num)
  have hfraction := readFraction_nanos hnanos (offsetChars_endsNumber t.offset)
  have hyear (rest : List Char) : Decimal.takePadded 4 (Decimal.padded 4 t.year ++ rest) =
      some (t.year, rest) := Decimal.takePadded_padded t.year_lt rest
  have hmonth : t.month < 100 := Nat.lt_of_le_of_lt t.month_mem.2 (by decide)
  have hday : t.day < 100 :=
    Nat.lt_of_le_of_lt (t.day_mem.2.trans (Calendar.daysInMonth_le _ _)) (by decide)
  have hhour : t.hour < 100 := Nat.lt_trans t.hour_lt (by decide)
  have hminute : t.minute < 100 := Nat.lt_trans t.minute_lt (by decide)
  have hsecond : t.second < 100 := Nat.lt_trans t.second_lt (by decide)
  unfold parse? text ofChars? chars
  rw [String.toList_ofList]
  simp only [List.append_assoc, List.cons_append]
  have hmark : 'T'.toNat < 128 := by decide
  simp only [hyear, takeTwo hmonth, takeTwo hday, takeTwo hhour, takeTwo hminute, takeTwo hsecond,
    expect, skipOne, hmark, hfraction, readOffset_offsetChars t.offset_mem, ofFields?_fields,
    Option.bind_eq_bind, Option.bind_some, if_true]

end Timestamp

end ScopedStore

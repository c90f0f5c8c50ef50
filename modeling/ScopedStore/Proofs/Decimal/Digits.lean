import Mathlib
import ScopedStore.Decimal.Digits
import ScopedStore.Text.Utf8

/-! Reading digits gives back the number that was written: plain, padded to a width, and behind the
point, where trailing zeros do not count. -/
namespace ScopedStore.Decimal

theorem digitValue_digitChar (n : Nat) : digitValue (digitChar n) = n % 10 := by
  have h : n % 10 < 10 := Nat.mod_lt n (by decide)
  unfold digitValue digitChar
  generalize n % 10 = d at h
  interval_cases d <;> rfl

theorem digitChar_isDigit (n : Nat) : (digitChar n).isDigit = true := by
  have h : n % 10 < 10 := Nat.mod_lt n (by decide)
  unfold digitChar
  generalize n % 10 = d at h
  interval_cases d <;> rfl

theorem value_append_singleton (cs : List Char) (c : Char) :
    value (cs ++ [c]) = 10 * value cs + digitValue c := by
  simp [value]

theorem value_append_zeros (cs : List Char) (count : Nat) :
    value (cs ++ List.replicate count '0') = value cs * 10 ^ count := by
  induction count with
  | zero => simp
  | succ count ih =>
    rw [List.replicate_succ', ← List.append_assoc, value_append_singleton, ih, pow_succ]
    have hzero : digitValue '0' = 0 := rfl
    rw [hzero]
    ring

theorem areDigits_append (cs ds : List Char) :
    areDigits (cs ++ ds) = (areDigits cs && areDigits ds) := List.all_append

theorem isDigit_of_areDigits {cs : List Char} (h : areDigits cs = true) :
    ∀ c ∈ cs, c.isDigit = true := List.all_eq_true.mp h

theorem ne_of_isDigit {c d : Char} (hc : c.isDigit = true) (hd : d.isDigit = false) :
    (c != d) = true := by
  rw [bne_iff_ne]
  rintro rfl
  exact absurd (hc.symm.trans hd) (by decide)

theorem value_digits (n : Nat) : value (digits n) = n := by
  induction n using digits.induct with
  | case1 n hlt =>
    rw [digits, if_pos hlt]
    have hvalue : value [digitChar n] = digitValue (digitChar n) := by simp [value]
    rw [hvalue, digitValue_digitChar, Nat.mod_eq_of_lt hlt]
  | case2 n hge ih =>
    rw [digits, if_neg hge, value_append_singleton, ih, digitValue_digitChar]
    omega

theorem digits_areDigits (n : Nat) : areDigits (digits n) = true := by
  induction n using digits.induct with
  | case1 n hlt =>
    rw [digits, if_pos hlt]
    simp [areDigits, digitChar_isDigit]
  | case2 n hge ih =>
    rw [digits, if_neg hge, areDigits_append, ih]
    simp [areDigits, digitChar_isDigit]

theorem digits_ne_nil (n : Nat) : digits n ≠ [] := by
  rw [digits]
  split <;> simp

@[simp] theorem padded_length (width n : Nat) : (padded width n).length = width := by
  induction width generalizing n with
  | zero => rfl
  | succ width ih => simp [padded, ih]

theorem padded_areDigits (width n : Nat) : areDigits (padded width n) = true := by
  induction width generalizing n with
  | zero => rfl
  | succ width ih =>
    rw [padded, areDigits_append, ih]
    simp [areDigits, digitChar_isDigit]

theorem value_padded (width n : Nat) : value (padded width n) = n % 10 ^ width := by
  induction width generalizing n with
  | zero => simp [padded, value, Nat.mod_one]
  | succ width ih =>
    rw [padded, value_append_singleton, ih, digitValue_digitChar, Nat.pow_succ', Nat.mod_mul]
    ring

theorem takePadded_padded {width n : Nat} (h : n < 10 ^ width) (rest : List Char) :
    takePadded width (padded width n ++ rest) = some (n, rest) := by
  have hlength := padded_length width n
  have htake : (padded width n ++ rest).take width = padded width n := by
    rw [List.take_append_of_le_length hlength.ge, List.take_of_length_le hlength.le]
  have hdrop : (padded width n ++ rest).drop width = rest := by
    rw [List.drop_append_of_le_length hlength.ge, List.drop_of_length_le hlength.le,
      List.nil_append]
  simp [takePadded, htake, hdrop, padded_areDigits, value_padded, Nat.mod_eq_of_lt h]

/-- A row of places is what is left without the zeros at its end, and these. -/
theorem trimmed_append_zeros (cs : List Char) :
    ∃ zeros, cs = (cs.reverse.dropWhile (· = '0')).reverse ++ List.replicate zeros '0' := by
  have hzeros : cs.reverse.takeWhile (· = '0') =
      List.replicate (cs.reverse.takeWhile (· = '0')).length '0' := by
    refine List.eq_replicate_of_mem fun c hc => ?_
    simpa using List.mem_takeWhile_imp hc
  refine ⟨(cs.reverse.takeWhile (· = '0')).length, ?_⟩
  calc cs
      = (cs.reverse.takeWhile (· = '0') ++ cs.reverse.dropWhile (· = '0')).reverse := by
        rw [List.takeWhile_append_dropWhile, List.reverse_reverse]
    _ = (cs.reverse.dropWhile (· = '0')).reverse ++ (cs.reverse.takeWhile (· = '0')).reverse :=
        List.reverse_append
    _ = _ := by
        conv_lhs => rw [hzeros, List.reverse_replicate]

theorem padded_eq_fractionDigits (width n : Nat) :
    ∃ zeros, padded width n = fractionDigits width n ++ List.replicate zeros '0' :=
  trimmed_append_zeros (padded width n)

theorem fractionDigits_areDigits (width n : Nat) : areDigits (fractionDigits width n) = true := by
  obtain ⟨zeros, hpadded⟩ := padded_eq_fractionDigits width n
  have hall := padded_areDigits width n
  rw [hpadded, areDigits_append, Bool.and_eq_true] at hall
  exact hall.1

theorem fractionDigits_length_le (width n : Nat) : (fractionDigits width n).length ≤ width := by
  obtain ⟨zeros, hpadded⟩ := padded_eq_fractionDigits width n
  have hlength := congrArg List.length hpadded
  rw [padded_length, List.length_append] at hlength
  omega

theorem fractionValue_fractionDigits {width n : Nat} (h : n < 10 ^ width) :
    fractionValue width (fractionDigits width n) = n := by
  obtain ⟨zeros, hpadded⟩ := padded_eq_fractionDigits width n
  have hlength := congrArg List.length hpadded
  rw [padded_length, List.length_append, List.length_replicate] at hlength
  have hzeros : width - (fractionDigits width n).length = zeros := by omega
  unfold fractionValue
  rw [List.take_of_length_le (fractionDigits_length_le width n), hzeros, Nat.pow_eq,
    ← value_append_zeros, ← hpadded, value_padded, Nat.mod_eq_of_lt h]

theorem fractionDigits_ne_nil {width n : Nat} (h : n < 10 ^ width) (hn : n ≠ 0) :
    fractionDigits width n ≠ [] := by
  intro hnil
  have hvalue := fractionValue_fractionDigits h
  rw [hnil] at hvalue
  simp [fractionValue, value] at hvalue
  omega

theorem isDigit_bounds {c : Char} (h : c.isDigit = true) : 48 ≤ c.toNat ∧ c.toNat ≤ 57 := by
  simp only [Char.isDigit, Bool.and_eq_true, decide_eq_true_eq] at h
  exact h

theorem forall_digit {P : Char → Prop}
    (h : ∀ n < 0x80, (Char.ofNat n).isDigit = true → P (Char.ofNat n)) {c : Char}
    (hc : c.isDigit = true) : P c :=
  Text.forall_ascii (P := fun c => c.isDigit = true → P c) h
    (Nat.lt_of_le_of_lt (isDigit_bounds hc).2 (by decide)) hc

theorem digitValue_lt {c : Char} (h : c.isDigit = true) : digitValue c < 10 := by
  have hbounds := isDigit_bounds h
  simp only [digitValue, Char.reduceToNat]
  omega

/-- The last digit of a number and the number before it. -/
theorem split_last {c : Char} (h : c.isDigit = true) (n : Nat) :
    (10 * n + digitValue c) / 10 = n ∧ digitChar (10 * n + digitValue c) = c := by
  have hvalue := digitValue_lt h
  have hpoint : '0'.toNat + digitValue c = c.toNat := Nat.add_sub_cancel' (isDigit_bounds h).1
  refine ⟨by omega, ?_⟩
  rw [digitChar, Nat.mul_add_mod, Nat.mod_eq_of_lt hvalue, hpoint, Char.ofNat_toNat]

/-- Digits are the ones of their number behind some zeros. -/
theorem eq_zeros_append_digits {cs : List Char} (h : areDigits cs = true) (hne : cs ≠ []) :
    ∃ zeros, cs = List.replicate zeros '0' ++ digits (value cs) := by
  induction cs using List.reverseRecOn with
  | nil => exact absurd rfl hne
  | append_singleton ds c ih =>
    rw [areDigits_append, Bool.and_eq_true] at h
    have hc : c.isDigit = true := isDigit_of_areDigits h.2 c List.mem_cons_self
    obtain ⟨hfront, hlast⟩ := split_last hc (value ds)
    rw [value_append_singleton]
    by_cases hzero : value ds = 0
    · -- Before the last digit stand zeros, if anything.
      have hsingle : digits (digitValue c) = [c] := by
        rw [hzero, Nat.mul_zero, Nat.zero_add] at hlast
        rw [digits, if_pos (digitValue_lt hc), hlast]
      rw [hzero, Nat.mul_zero, Nat.zero_add, hsingle]
      by_cases hds : ds = []
      · exact ⟨0, by rw [hds]; rfl⟩
      · obtain ⟨zeros, heq⟩ := ih h.1 hds
        have hdigits : digits 0 = ['0'] := by
          rw [digits]
          rfl
        rw [hzero, hdigits] at heq
        exact ⟨zeros + 1, by rw [heq, List.replicate_succ']⟩
    · have hds : ds ≠ [] := fun hnil => hzero (hnil ▸ rfl)
      obtain ⟨zeros, heq⟩ := ih h.1 hds
      refine ⟨zeros, ?_⟩
      rw [digits, if_neg (by omega), hfront, hlast, ← List.append_assoc, ← heq]

theorem eq_padded {cs : List Char} (h : areDigits cs = true) : cs = padded cs.length (value cs) := by
  induction cs using List.reverseRecOn with
  | nil => rfl
  | append_singleton ds c ih =>
    rw [areDigits_append, Bool.and_eq_true] at h
    have hc : c.isDigit = true := isDigit_of_areDigits h.2 c List.mem_cons_self
    obtain ⟨hfront, hlast⟩ := split_last hc (value ds)
    rw [value_append_singleton, List.length_append, List.length_singleton, padded, hfront, hlast,
      ← ih h.1]

theorem areDigits_zeros (count : Nat) : areDigits (List.replicate count '0') = true := by
  rw [areDigits, List.all_eq_true]
  intro c hc
  rw [List.eq_of_mem_replicate hc]
  rfl

/-- Places behind the point are the ones of their value and some zeros behind them. -/
theorem eq_fractionDigits_append_zeros {width : Nat} {cs : List Char} (h : areDigits cs = true)
    (hlength : cs.length ≤ width) :
    ∃ zeros, cs = fractionDigits width (fractionValue width cs) ++ List.replicate zeros '0' := by
  have hfilled : padded width (fractionValue width cs) =
      cs ++ List.replicate (width - cs.length) '0' := by
    have hall : areDigits (cs ++ List.replicate (width - cs.length) '0') = true := by
      rw [areDigits_append, h, areDigits_zeros]
      rfl
    have hpadded := eq_padded hall
    rw [value_append_zeros, List.length_append, List.length_replicate,
      Nat.add_sub_cancel' hlength] at hpadded
    rw [fractionValue, List.take_of_length_le hlength, Nat.pow_eq, ← hpadded]
  have htrimmed : fractionDigits width (fractionValue width cs) =
      (cs.reverse.dropWhile (· = '0')).reverse := by
    rw [fractionDigits, hfilled, List.reverse_append, List.reverse_replicate,
      List.dropWhile_append_of_pos fun c hc => by simp [List.eq_of_mem_replicate hc]]
  rw [htrimmed]
  exact trimmed_append_zeros cs

end ScopedStore.Decimal

import ScopedStore.Proofs.Time.Texts

/-! The spellings of a length of time. Zeros in front of the seconds and behind the places, and a
point without places, do not count. The text that is written has none of these, so that it is the
only shortest one. -/
namespace ScopedStore.Duration

/-- The digits before the point and the places behind it denote this length of time. -/
structure Denotes (whole fraction : List Char) (d : Duration) : Prop where
  whole_ne_nil : whole ≠ []
  whole_digits : Decimal.areDigits whole = true
  fraction_digits : Decimal.areDigits fraction = true
  fraction_length : fraction.length ≤ 9
  whole_value : Decimal.value whole = d.seconds.toNat
  fraction_value : Decimal.fractionValue 9 fraction = d.nanos

theorem ofDigits?_eq_some_iff {whole fraction : List Char} {d : Duration} :
    ofDigits? whole fraction = some d ↔ Denotes whole fraction d := by
  constructor
  · intro h
    unfold ofDigits? at h
    dsimp only at h
    split at h
    next hdigits =>
      obtain ⟨hne, hwhole, hfraction, hlength⟩ := hdigits
      split at h
      next hfits =>
        cases h
        exact ⟨hne, hwhole, hfraction, hlength, (UInt64.toNat_ofNat_of_lt' hfits.1).symm, rfl⟩
      · cases h
    · cases h
  · rintro ⟨hne, hwhole, hfraction, hlength, hseconds, hnanos⟩
    have hfits : d.seconds.toNat < UInt64.size ∧ d.nanos < nanosPerSecond :=
      ⟨d.seconds.toNat_lt, d.nanos_lt⟩
    simp [ofDigits?, hne, hwhole, hfraction, hlength, hseconds, hnanos, hfits]

/-- A text is accepted just if it consists of such digits, with a point before places, and ends
with the letter `s`. -/
theorem ofChars?_eq_some_iff {cs : List Char} {d : Duration} :
    ofChars? cs = some d ↔ ∃ whole fraction, Denotes whole fraction d ∧
      (cs = whole ++ '.' :: fraction ++ ['s'] ∨ fraction = [] ∧ cs = whole ++ ['s']) := by
  constructor
  · intro h
    by_cases hlast : cs.getLast? = some 's'
    · obtain ⟨front, rfl⟩ := List.getLast?_eq_some_iff.mp hlast
      by_cases hpoint : '.' ∈ front
      · obtain ⟨whole, fraction, rfl, hwhole⟩ := List.eq_append_cons_of_mem hpoint
        rw [ofChars?_point hwhole, ofDigits?_eq_some_iff] at h
        exact ⟨whole, fraction, h, .inl rfl⟩
      · rw [ofChars?_whole hpoint, ofDigits?_eq_some_iff] at h
        exact ⟨front, [], h, .inr ⟨rfl, rfl⟩⟩
    · rw [ofChars?, if_neg hlast] at h
      cases h
  · rintro ⟨whole, fraction, hdenotes, rfl | ⟨rfl, rfl⟩⟩
    · rw [ofChars?_point (point_notMem hdenotes.whole_digits)]
      exact ofDigits?_eq_some_iff.mpr hdenotes
    · rw [ofChars?_whole (point_notMem hdenotes.whole_digits)]
      exact ofDigits?_eq_some_iff.mpr hdenotes

/-- A spelling is no shorter than the text that is written, and differs from it only if longer. -/
theorem chars_shortest {cs : List Char} {d : Duration} (h : ofChars? cs = some d) :
    d.chars.length ≤ cs.length ∧ (cs.length = d.chars.length → cs = d.chars) := by
  obtain ⟨whole, fraction, hdenotes, hcs⟩ := ofChars?_eq_some_iff.mp h
  obtain ⟨zeros, hwhole⟩ :=
    Decimal.eq_zeros_append_digits hdenotes.whole_digits hdenotes.whole_ne_nil
  obtain ⟨trailing, hfraction⟩ :=
    Decimal.eq_fractionDigits_append_zeros hdenotes.fraction_digits hdenotes.fraction_length
  rw [hdenotes.whole_value] at hwhole
  rw [hdenotes.fraction_value] at hfraction
  have hnothing : Decimal.fractionDigits 9 0 = [] := by decide
  unfold chars
  dsimp only
  by_cases hnanos : d.nanos = 0
  · rw [hnanos, hnothing, List.nil_append] at hfraction
    rw [if_pos hnanos, List.append_nil]
    rcases hcs with rfl | ⟨-, rfl⟩
    · rw [hwhole]
      simp only [List.length_append, List.length_cons, List.length_replicate, List.length_nil]
      exact ⟨by omega, fun hlength => by omega⟩
    · rw [hwhole]
      simp only [List.length_append, List.length_cons, List.length_replicate, List.length_nil]
      refine ⟨by omega, fun hlength => ?_⟩
      obtain rfl : zeros = 0 := by omega
      rfl
  · rw [if_neg hnanos]
    have hplaces : Decimal.fractionDigits 9 d.nanos ≠ [] :=
      Decimal.fractionDigits_ne_nil (lt_of_lt_of_eq d.nanos_lt (by norm_num [nanosPerSecond]))
        hnanos
    rcases hcs with rfl | ⟨hnil, -⟩
    · rw [hwhole, hfraction]
      simp only [List.length_append, List.length_cons, List.length_replicate, List.length_nil]
      refine ⟨by omega, fun hlength => ?_⟩
      obtain ⟨rfl, rfl⟩ : zeros = 0 ∧ trailing = 0 := by omega
      simp
    · rw [hnil] at hfraction
      exact absurd (List.append_eq_nil_iff.mp hfraction.symm).1 hplaces

/-- Writing and reading a length of time are inverse, and of all texts that are read as one length
of time the one that is written is the shortest, all others being longer. -/
theorem text_canonical :
    (∀ d : Duration, parse? d.text = some d) ∧
      ∀ (t : String) (d : Duration), parse? t = some d →
        parse? d.text = some d ∧ d.text.length ≤ t.length ∧
          ∀ other, parse? other = some d →
            d.text.length ≤ other.length ∧ (other ≠ d.text → d.text.length < other.length) := by
  have hshortest (t : String) (d : Duration) (h : parse? t = some d) :
      d.text.length ≤ t.length ∧ (t ≠ d.text → d.text.length < t.length) := by
    obtain ⟨hle, heq⟩ := chars_shortest h
    rw [String.length_toList] at hle heq
    have hlength : d.text.length = d.chars.length := by
      rw [text, String.length_ofList]
    rw [hlength]
    refine ⟨hle, fun hne => lt_of_le_of_ne hle fun hsame => hne ?_⟩
    rw [text, ← heq hsame.symm, String.ofList_toList]
  refine ⟨parse?_text, fun t d h => ?_⟩
  exact ⟨parse?_text d, (hshortest t d h).1, fun other hother => hshortest other d hother⟩

/-- Seven and a half seconds in a long spelling. -/
theorem text_canonical_respelled :
    parse? "007.50s" = some ⟨7, 500000000, by decide⟩ ∧
      parse? "7.500s" = some ⟨7, 500000000, by decide⟩ ∧
      (Duration.mk 7 500000000 (by decide)).text = "7.5s" ∧
      (Duration.mk 7 500000000 (by decide)).text.length < "7.500s".length := by
  have hlong : parse? "007.50s" = some ⟨7, 500000000, by decide⟩ := by decide +kernel
  have hother : parse? "7.500s" = some ⟨7, 500000000, by decide⟩ := by decide +kernel
  refine ⟨hlong, hother, by decide +kernel, ?_⟩
  exact ((text_canonical.2 "007.50s" _ hlong).2.2 "7.500s" hother).2 (by decide +kernel)

end ScopedStore.Duration

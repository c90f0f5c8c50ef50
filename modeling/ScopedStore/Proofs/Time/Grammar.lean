import ScopedStore.Proofs.Time.Durations

/-! The grammar of the texts of lengths of time, told without a reader: which texts stand for how
many seconds and nanoseconds, and in which ways a text fails to. -/
namespace ScopedStore

namespace Decimal

/-- Digits as they are written. -/
def written (ds : List (Fin 10)) : List Char := ds.map fun d : Fin 10 => digitChar d

/-- The number that digits denote, the last of them counting ones. -/
def number (ds : List (Fin 10)) : Nat := Nat.ofDigits 10 (ds.map Fin.val).reverse

/-- Places behind the point, with zeros behind them up to a width. -/
def filled (width : Nat) (places : List (Fin 10)) : List (Fin 10) :=
  places ++ List.replicate (width - places.length) 0

theorem written_length (ds : List (Fin 10)) : (written ds).length = ds.length := List.length_map _

theorem written_append (ds es : List (Fin 10)) : written (ds ++ es) = written ds ++ written es :=
  List.map_append

theorem written_ne_nil {ds : List (Fin 10)} : written ds ≠ [] ↔ ds ≠ [] :=
  not_congr List.map_eq_nil_iff

theorem isDigit_of_mem_written {ds : List (Fin 10)} {c : Char} (h : c ∈ written ds) :
    c.isDigit = true := by
  obtain ⟨d, -, rfl⟩ := List.mem_map.mp h
  exact digitChar_isDigit d

theorem written_areDigits (ds : List (Fin 10)) : areDigits (written ds) = true :=
  List.all_eq_true.mpr fun _ => isDigit_of_mem_written

theorem exists_written {cs : List Char} (h : areDigits cs = true) : ∃ ds, cs = written ds := by
  induction cs with
  | nil => exact ⟨[], rfl⟩
  | cons c cs ih =>
    have hall := isDigit_of_areDigits h
    have hc : c.isDigit = true := hall c List.mem_cons_self
    have hchar : digitChar (10 * 0 + digitValue c) = c := (split_last hc 0).2
    rw [Nat.mul_zero, Nat.zero_add] at hchar
    obtain ⟨ds, rfl⟩ := ih (List.all_eq_true.mpr fun d hd => hall d (List.mem_cons_of_mem _ hd))
    exact ⟨⟨digitValue c, digitValue_lt hc⟩ :: ds, congrArg (· :: written ds) hchar.symm⟩

theorem number_append_singleton (ds : List (Fin 10)) (d : Fin 10) :
    number (ds ++ [d]) = 10 * number ds + d := by
  rw [number, List.map_append, List.map_singleton, List.reverse_append, List.reverse_singleton,
    List.singleton_append, Nat.ofDigits_cons, Nat.add_comm, number]

theorem number_lt (ds : List (Fin 10)) : number ds < 10 ^ ds.length := by
  have hdigits : ∀ d ∈ (ds.map Fin.val).reverse, d < 10 := by
    intro d hd
    obtain ⟨d, -, rfl⟩ := List.mem_map.mp (List.mem_reverse.mp hd)
    exact d.isLt
  have hlt := Nat.ofDigits_lt_base_pow_length (by norm_num) hdigits
  rwa [List.length_reverse, List.length_map] at hlt

theorem value_written (ds : List (Fin 10)) : value (written ds) = number ds := by
  induction ds using List.reverseRecOn with
  | nil => rfl
  | append_singleton ds d ih =>
    have hlast : digitValue (digitChar d) = d := by
      rw [digitValue_digitChar, Nat.mod_eq_of_lt d.isLt]
    have hsingle : written [d] = [digitChar d] := rfl
    rw [written_append, hsingle, value_append_singleton, ih, hlast, number_append_singleton]

theorem fractionValue_written {width : Nat} {places : List (Fin 10)}
    (h : places.length ≤ width) :
    fractionValue width (written places) = number (filled width places) := by
  have hzeros : written (List.replicate (width - places.length) 0) =
      List.replicate (width - places.length) '0' := List.map_replicate
  rw [fractionValue, List.take_of_length_le (by rwa [written_length]), Nat.pow_eq,
    ← value_append_zeros, written_length, ← hzeros, ← written_append, value_written, filled]

theorem number_filled_lt {width : Nat} {places : List (Fin 10)} (h : places.length ≤ width) :
    number (filled width places) < 10 ^ width := by
  have hlength : (filled width places).length = width := by
    rw [filled, List.length_append, List.length_replicate, Nat.add_sub_cancel' h]
  exact lt_of_lt_of_eq (number_lt _) (by rw [hlength])

end Decimal

namespace Duration

open Decimal (written number filled)

/-- Texts, and the seconds and nanoseconds that they stand for. -/
inductive Spells : List Char → Nat → Nat → Prop where
  | whole {ds : List (Fin 10)} (hne : ds ≠ []) (hfits : number ds < 2 ^ 64) :
      Spells (written ds ++ ['s']) (number ds) 0
  | point {ds places : List (Fin 10)} (hne : ds ≠ []) (hfits : number ds < 2 ^ 64)
      (hplaces : places.length ≤ 9) :
      Spells (written ds ++ '.' :: written places ++ ['s']) (number ds) (number (filled 9 places))

/-- Texts that stand for no length of time. -/
inductive Misspelt : List Char → Prop where
  | unended {cs : List Char} (h : cs.getLast? ≠ some 's') : Misspelt cs
  /-- Signs, blanks, letters and the digits of other scripts. -/
  | foreign {front : List Char} {c : Char} (hc : c ∈ front) (hdigit : c.isDigit = false)
      (hpoint : c ≠ '.') : Misspelt (front ++ ['s'])
  | points {front : List Char} (h : 2 ≤ front.count '.') : Misspelt (front ++ ['s'])
  | unstarted {front : List Char} (h : ∀ c ∈ front.head?, c = '.') : Misspelt (front ++ ['s'])
  | overlong {ds : List (Fin 10)} {places : List Char} (h : 9 < places.length) :
      Misspelt (written ds ++ '.' :: places ++ ['s'])
  | large {ds : List (Fin 10)} {rest : List Char} (h : 2 ^ 64 ≤ number ds)
      (hrest : ∀ c ∈ rest.head?, c = '.') : Misspelt (written ds ++ rest ++ ['s'])

theorem denotes_written {ds places : List (Fin 10)} {d : Duration} :
    Denotes (written ds) (written places) d ↔
      ds ≠ [] ∧ places.length ≤ 9 ∧ number ds = d.seconds.toNat ∧
        number (filled 9 places) = d.nanos := by
  constructor
  · intro h
    have hplaces : places.length ≤ 9 := by
      rw [← Decimal.written_length]
      exact h.fraction_length
    refine ⟨Decimal.written_ne_nil.mp h.whole_ne_nil, hplaces, ?_, ?_⟩
    · rw [← Decimal.value_written, h.whole_value]
    · rw [← Decimal.fractionValue_written hplaces, h.fraction_value]
  · rintro ⟨hne, hplaces, hseconds, hnanos⟩
    exact
      { whole_ne_nil := Decimal.written_ne_nil.mpr hne
        whole_digits := Decimal.written_areDigits ds
        fraction_digits := Decimal.written_areDigits places
        fraction_length := by rwa [Decimal.written_length]
        whole_value := by rw [Decimal.value_written, hseconds]
        fraction_value := by rw [Decimal.fractionValue_written hplaces, hnanos] }

theorem Spells.bounds {cs : List Char} {seconds nanos : Nat} (h : Spells cs seconds nanos) :
    seconds < 2 ^ 64 ∧ nanos < nanosPerSecond := by
  cases h with
  | whole _ hfits => exact ⟨hfits, by decide⟩
  | point _ hfits hplaces => exact ⟨hfits, Decimal.number_filled_lt hplaces⟩

theorem ofChars?_eq_some_iff_spells {cs : List Char} {d : Duration} :
    ofChars? cs = some d ↔ Spells cs d.seconds.toNat d.nanos := by
  rw [ofChars?_eq_some_iff]
  constructor
  · rintro ⟨whole, fraction, hdenotes, hcs⟩
    obtain ⟨ds, rfl⟩ := Decimal.exists_written hdenotes.whole_digits
    obtain ⟨places, rfl⟩ := Decimal.exists_written hdenotes.fraction_digits
    obtain ⟨hne, hplaces, hseconds, hnanos⟩ := denotes_written.mp hdenotes
    have hfits : number ds < 2 ^ 64 := lt_of_eq_of_lt hseconds d.seconds.toNat_lt
    rw [← hseconds, ← hnanos]
    rcases hcs with rfl | ⟨hnil, rfl⟩
    · exact .point hne hfits hplaces
    · obtain rfl : places = [] := List.map_eq_nil_iff.mp hnil
      exact .whole hne hfits
  · -- `cases` needs the two numbers as variables.
    generalize hseconds : d.seconds.toNat = seconds
    generalize hnanos : d.nanos = nanos
    intro h
    cases h with
    | whole hne _ =>
      have hdenotes : Denotes _ (written []) d :=
        denotes_written.mpr ⟨hne, Nat.zero_le 9, hseconds.symm, hnanos.symm⟩
      exact ⟨_, _, hdenotes, .inr ⟨rfl, rfl⟩⟩
    | point hne _ hplaces =>
      exact ⟨_, _, denotes_written.mpr ⟨hne, hplaces, hseconds.symm, hnanos.symm⟩, .inl rfl⟩

theorem Spells.read {cs : List Char} {seconds nanos : Nat} (h : Spells cs seconds nanos) :
    ∃ d, ofChars? cs = some d ∧ d.seconds.toNat = seconds ∧ d.nanos = nanos := by
  obtain ⟨hseconds, hnanos⟩ := h.bounds
  have htoNat : (UInt64.ofNat seconds).toNat = seconds := UInt64.toNat_ofNat_of_lt' hseconds
  refine ⟨⟨.ofNat seconds, nanos, hnanos⟩, ofChars?_eq_some_iff_spells.mpr ?_, htoNat, rfl⟩
  rwa [htoNat]

theorem exists_digits {front : List Char} (hplain : ∀ c ∈ front, c.isDigit = false → c = '.') :
    ∃ ds rest, front = written ds ++ rest ∧ ∀ c ∈ rest.head?, c = '.' := by
  have hall : Decimal.areDigits (front.takeWhile Char.isDigit) = true := List.all_takeWhile
  obtain ⟨ds, hds⟩ := Decimal.exists_written hall
  refine ⟨ds, front.dropWhile Char.isDigit, ?_, fun c hc => ?_⟩
  · rw [← hds, List.takeWhile_append_dropWhile]
  · have hmem : c ∈ front := (List.dropWhile_sublist _).subset (List.mem_of_mem_head? hc)
    have hdigit := List.head?_dropWhile_not Char.isDigit front
    rw [Option.mem_def.mp hc] at hdigit
    exact hplain c hmem hdigit

/-- Followed from the left, a text is spelled or comes to one of the faults. -/
theorem spells_or_misspelt (cs : List Char) :
    (∃ seconds nanos, Spells cs seconds nanos) ∨ Misspelt cs := by
  by_cases hlast : cs.getLast? = some 's'
  swap
  · exact .inr (.unended hlast)
  obtain ⟨front, rfl⟩ := List.getLast?_eq_some_iff.mp hlast
  by_cases hplain : ∀ c ∈ front, c.isDigit = false → c = '.'
  swap
  · push Not at hplain
    obtain ⟨c, hc, hdigit, hne⟩ := hplain
    exact .inr (.foreign hc hdigit hne)
  obtain ⟨ds, rest, rfl, hrest⟩ := exists_digits hplain
  by_cases hne : ds = []
  · subst hne
    exact .inr (.unstarted hrest)
  rcases Nat.lt_or_ge (number ds) (2 ^ 64) with hfits | hlarge
  swap
  · exact .inr (.large hlarge hrest)
  cases rest with
  | nil =>
    rw [List.append_nil]
    exact .inl ⟨_, _, .whole hne hfits⟩
  | cons point fraction =>
    obtain rfl : point = '.' := hrest point rfl
    by_cases hagain : '.' ∈ fraction
    · have hcount : 0 < fraction.count '.' := List.count_pos_iff.mpr hagain
      refine .inr (.points ?_)
      rw [List.count_append, List.count_cons_self]
      omega
    have hdigits : Decimal.areDigits fraction = true := by
      refine List.all_eq_true.mpr fun c hc => ?_
      by_contra hdigit
      have hmem : c ∈ written ds ++ '.' :: fraction :=
        List.mem_append_right _ (List.mem_cons_of_mem _ hc)
      exact hagain (hplain c hmem (Bool.eq_false_iff.mpr hdigit) ▸ hc)
    obtain ⟨places, rfl⟩ := Decimal.exists_written hdigits
    rcases Nat.lt_or_ge 9 places.length with hlong | hplaces
    · exact .inr (.overlong (by rwa [Decimal.written_length]))
    · exact .inl ⟨_, _, .point hne hfits hplaces⟩

theorem point_notMem_written (ds : List (Fin 10)) : '.' ∉ written ds :=
  point_notMem (Decimal.written_areDigits ds)

section Front
variable {front : List Char} {seconds nanos : Nat} (h : Spells (front ++ ['s']) seconds nanos)
include h

/-- What stands before the last letter of a text that is spelled. -/
theorem Spells.parts : ∃ ds rest, front = written ds ++ rest ∧ ds ≠ [] ∧
    (rest = [] ∨ ∃ places, rest = '.' :: written places) := by
  generalize hcs : front ++ ['s'] = cs at h
  cases h with
  | @whole ds hne _ =>
    exact ⟨ds, [], (List.append_cancel_right hcs).trans (List.append_nil _).symm, hne, .inl rfl⟩
  | @point ds places hne _ _ =>
    exact ⟨ds, _, List.append_cancel_right hcs, hne, .inr ⟨places, rfl⟩⟩

theorem Spells.plain {c : Char} (hc : c ∈ front) : c.isDigit = true ∨ c = '.' := by
  obtain ⟨ds, rest, rfl, -, hrest⟩ := h.parts
  rcases List.mem_append.mp hc with hwhole | hc
  · exact .inl (Decimal.isDigit_of_mem_written hwhole)
  rcases hrest with rfl | ⟨places, rfl⟩
  · cases hc
  · rcases List.mem_cons.mp hc with rfl | hplaces
    · exact .inr rfl
    · exact .inl (Decimal.isDigit_of_mem_written hplaces)

theorem Spells.count_point_le : front.count '.' ≤ 1 := by
  obtain ⟨ds, rest, rfl, -, hrest⟩ := h.parts
  rw [List.count_append, List.count_eq_zero.mpr (point_notMem_written ds), Nat.zero_add]
  rcases hrest with rfl | ⟨places, rfl⟩
  · exact Nat.zero_le 1
  · rw [List.count_cons_self, List.count_eq_zero.mpr (point_notMem_written places)]

theorem Spells.exists_first : ∃ c ∈ front.head?, c.isDigit = true := by
  obtain ⟨ds, rest, rfl, hne, -⟩ := h.parts
  obtain ⟨d, ds, rfl⟩ := List.exists_cons_of_ne_nil hne
  exact ⟨_, rfl, Decimal.digitChar_isDigit d⟩

end Front

theorem Denotes.number_lt {ds : List (Fin 10)} {fraction : List Char} {d : Duration}
    (h : Denotes (written ds) fraction d) : number ds < 2 ^ 64 := by
  rw [← Decimal.value_written, h.whole_value]
  exact d.seconds.toNat_lt

theorem Misspelt.ofChars?_eq_none {cs : List Char} (h : Misspelt cs) : ofChars? cs = none := by
  rw [Option.eq_none_iff_forall_ne_some]
  intro d hread
  have hspells := ofChars?_eq_some_iff_spells.mp hread
  cases h with
  | unended hlast =>
    rw [ofChars?, if_neg hlast] at hread
    cases hread
  | foreign hc hdigit hne =>
    rcases hspells.plain hc with hisDigit | hpoint
    · exact Bool.false_ne_true (hdigit.symm.trans hisDigit)
    · exact hne hpoint
  | points hcount => exact Nat.not_lt.mpr hspells.count_point_le hcount
  | unstarted hhead =>
    obtain ⟨c, hc, hdigit⟩ := hspells.exists_first
    obtain rfl : c = '.' := hhead c hc
    cases hdigit
  | @overlong ds places hlong =>
    rw [ofChars?_point (point_notMem_written ds), ofDigits?_eq_some_iff] at hread
    exact Nat.not_le.mpr hlong hread.fraction_length
  | @large ds rest hlarge hrest =>
    refine Nat.not_lt.mpr hlarge ?_
    cases rest with
    | nil =>
      rw [List.append_nil, ofChars?_whole (point_notMem_written ds), ofDigits?_eq_some_iff] at hread
      exact hread.number_lt
    | cons point fraction =>
      obtain rfl : point = '.' := hrest point rfl
      rw [ofChars?_point (point_notMem_written ds), ofDigits?_eq_some_iff] at hread
      exact hread.number_lt

/-- A text is read as the seconds and nanoseconds that it spells, and refused just if it is
misspelt. -/
theorem read_exactly_as_spelled (t : String) :
    (∀ seconds nanos : Nat,
      (parse? t).map (fun d => (d.seconds.toNat, d.nanos)) = some (seconds, nanos) ↔
        Spells t.toList seconds nanos) ∧
      (parse? t = none ↔ Misspelt t.toList) := by
  refine ⟨fun seconds nanos => ⟨fun h => ?_, fun h => ?_⟩, fun h => ?_, fun h => ?_⟩
  · obtain ⟨d, hread, hparts⟩ := Option.map_eq_some_iff.mp h
    cases hparts
    exact ofChars?_eq_some_iff_spells.mp hread
  · obtain ⟨d, hread, rfl, rfl⟩ := h.read
    rw [parse?, hread, Option.map_some]
  · rcases spells_or_misspelt t.toList with ⟨seconds, nanos, hspells⟩ | hmisspelt
    · obtain ⟨d, hread, -, -⟩ := hspells.read
      cases h.symm.trans hread
    · exact hmisspelt
  · exact h.ofChars?_eq_none

/-- A point without places adds nothing. -/
example : parse? "007.s" = some ⟨7, 0, by decide⟩ := by decide +kernel

end Duration

end ScopedStore

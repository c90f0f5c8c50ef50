import ScopedStore.Proofs.Url.Hosts

/-! The texts of numeric addresses read back as the addresses. A dotted one is written with all four
bytes in decimal; of a colon one the first longest run of zeros is left out and put back. -/
namespace ScopedStore.Url

section Split
variable {separator : Char} {part : List Char}

theorem splitOn_of_forall (h : ∀ c ∈ part, c ≠ separator) : splitOn separator part = [part] := by
  induction part with
  | nil => rfl
  | cons c rest ih =>
    obtain ⟨hc, hrest⟩ := List.forall_mem_cons.mp h
    rw [splitOn, if_neg hc, ih hrest]

theorem splitOn_append (h : ∀ c ∈ part, c ≠ separator) (rest : List Char) :
    splitOn separator (part ++ separator :: rest) = part :: splitOn separator rest := by
  induction part with
  | nil => simp [splitOn]
  | cons c part ih =>
    obtain ⟨hc, hpart⟩ := List.forall_mem_cons.mp h
    rw [List.cons_append, splitOn, if_neg hc, ih hpart]

end Split

theorem ofBase?_append_singleton (base : Nat) (cs : List Char) (c : Char) :
    ofBase? base (cs ++ [c]) = (ofBase? base cs).bind fun n =>
      (hexValue? c).bind fun digit => if digit < base then some (n * base + digit) else none := by
  unfold ofBase?
  rw [List.foldlM_append]
  congr 1
  funext n
  rw [List.foldlM_cons]
  cases hexValue? c with
  | none => rfl
  | some digit =>
    dsimp only [Option.bind_some]
    split <;> rfl

theorem ofBase?_lt {base : Nat} {cs : List Char} {n : Nat} (h : ofBase? base cs = some n) :
    n < base ^ cs.length := by
  induction cs using List.reverseRecOn generalizing n with
  | nil =>
    cases h
    exact Nat.one_pos
  | append_singleton cs c ih =>
    rw [ofBase?_append_singleton] at h
    obtain ⟨m, hm, h⟩ := Option.bind_eq_some_iff.mp h
    obtain ⟨digit, _, h⟩ := Option.bind_eq_some_iff.mp h
    split at h
    next hdigit =>
      cases h
      rw [List.length_append, List.length_singleton, pow_succ]
      calc m * base + digit
          < m * base + base := Nat.add_lt_add_left hdigit _
        _ = (m + 1) * base := by ring
        _ ≤ base ^ cs.length * base := Nat.mul_le_mul_right _ (ih hm)
    · cases h

namespace Ipv4

theorem digits_ne_point {n : Nat} : ∀ c ∈ Decimal.digits n, c ≠ '.' := fun c hc =>
  bne_iff_ne.mp
    (Decimal.ne_of_isDigit (Decimal.isDigit_of_areDigits (Decimal.digits_areDigits n) c hc) rfl)

theorem part?_digits {n : Nat} (h : n < 256) : part? (Decimal.digits n) = some n := by
  have hall : ∀ n < 256, part? (Decimal.digits n) = some n := by decide +kernel
  exact hall n h

theorem splitOn_chars (address : Nat) :
    splitOn '.' (chars address) =
      [Decimal.digits (address / 2 ^ 24 % 256), Decimal.digits (address / 2 ^ 16 % 256),
        Decimal.digits (address / 2 ^ 8 % 256), Decimal.digits (address % 256)] := by
  unfold chars
  simp only [List.append_assoc, List.cons_append, Nat.shiftRight_eq_div_pow]
  rw [splitOn_append digits_ne_point, splitOn_append digits_ne_point,
    splitOn_append digits_ne_point, splitOn_of_forall digits_ne_point]

theorem parts_chars (address : Nat) : parts (chars address) = splitOn '.' (chars address) := by
  unfold parts
  refine if_neg ?_
  rw [splitOn_chars]
  simp [Decimal.digits_ne_nil]

theorem chars_ne_nil (address : Nat) : chars address ≠ [] := by
  simp [chars]

theorem looksNumeric_chars (address : Nat) : looksNumeric (chars address) = true := by
  unfold looksNumeric
  rw [parts_chars, splitOn_chars]
  simp [Decimal.digits_ne_nil, Decimal.digits_areDigits]

theorem parse?_chars {address : Nat} (h : address < 2 ^ 32) :
    parse? (chars address) = some address := by
  have hbyte (n : Nat) : part? (Decimal.digits (n % 256)) = some (n % 256) :=
    part?_digits (Nat.mod_lt n (by decide))
  have hnumbers : (parts (chars address)).mapM part? =
      some [address / 2 ^ 24 % 256, address / 2 ^ 16 % 256, address / 2 ^ 8 % 256,
        address % 256] := by
    rw [parts_chars, splitOn_chars]
    simp [hbyte]
  unfold parse?
  rw [hnumbers]
  simp
  omega

end Ipv4

theorem hexValue?_digitChar {d : Nat} (h : d < 16) : hexValue? d.digitChar = some d := by
  interval_cases d <;> decide

namespace Ipv6

theorem pieceChars_ne {piece : Nat} {c : Char} (hc : c ∉ hexChars) : ∀ d ∈ pieceChars piece, d ≠ c :=
  fun _ hd hsame => hc (hsame ▸ mem_pieceChars hd)

theorem ofBase?_pieceChars (piece : Nat) : ofBase? 16 (pieceChars piece) = some piece := by
  unfold pieceChars
  induction piece using Nat.strong_induction_on with
  | _ piece ih =>
    have hlast : piece % 16 < 16 := Nat.mod_lt _ (by decide)
    by_cases hlt : piece < 16
    · rw [Nat.toDigits_of_lt_base hlt]
      simp [ofBase?, hexValue?_digitChar hlt, hlt]
    · rw [Nat.toDigits_of_base_le (by decide) (Nat.le_of_not_lt hlt), ofBase?_append_singleton,
        ih (piece / 16) (by omega), Option.bind_some, hexValue?_digitChar hlast, Option.bind_some,
        if_pos hlast, Nat.mul_comm, Nat.div_add_mod]

theorem length_pieceChars_le {piece width : Nat} (h : piece < 16 ^ (width + 1)) :
    (pieceChars piece).length ≤ width + 1 := by
  unfold pieceChars
  induction width generalizing piece with
  | zero =>
    rw [Nat.toDigits_of_lt_base (by simpa using h), List.length_singleton]
  | succ width ih =>
    by_cases hlt : piece < 16
    · rw [Nat.toDigits_of_lt_base hlt, List.length_singleton]
      omega
    · have hrest : piece / 16 < 16 ^ (width + 1) := by
        rw [Nat.div_lt_iff_lt_mul (by decide), ← pow_succ]
        exact h
      rw [Nat.toDigits_of_base_le (by decide) (Nat.le_of_not_lt hlt), List.length_append,
        List.length_singleton]
      exact Nat.succ_le_succ (ih hrest)

theorem piece?_pieceChars {piece : Nat} (h : piece < 65536) :
    piece? (pieceChars piece) = some piece := by
  have hwidth : piece < 16 ^ (3 + 1) := h
  have hlength : (pieceChars piece).length ≤ 4 := length_pieceChars_le hwidth
  rw [piece?, if_neg (by simp [pieceChars_ne_nil, hlength]), ofBase?_pieceChars]

theorem piece?_lt {cs : List Char} {piece : Nat} (h : piece? cs = some piece) : piece < 65536 := by
  unfold piece? at h
  split at h
  · cases h
  next hfits =>
    have hlength : cs.length ≤ 4 := by
      simp only [not_or, not_lt] at hfits
      exact hfits.2
    calc piece < 16 ^ cs.length := ofBase?_lt h
      _ ≤ 16 ^ 4 := Nat.pow_le_pow_right (by decide) hlength
      _ = 65536 := by norm_num

theorem row?_pieces {pieces : List Nat} (h : ∀ piece ∈ pieces, piece < 65536) (mayEndDotted : Bool) :
    row? mayEndDotted (pieces.map pieceChars) = some pieces := by
  induction pieces with
  | nil => rfl
  | cons piece rest ih =>
    obtain ⟨hpiece, hrest⟩ := List.forall_mem_cons.mp h
    cases rest with
    | nil =>
      have hpoint : '.' ∉ pieceChars piece := fun hmem =>
        pieceChars_ne (c := '.') (by decide) '.' hmem rfl
      simp [row?, hpoint, piece?_pieceChars hpiece]
    | cons next rest =>
      have htail := ih hrest
      simp only [List.map_cons] at htail ⊢
      rw [row?, piece?_pieceChars hpiece, htail]
      · rfl
      · simp

theorem byte?_le {cs : List Char} {byte : Nat} (h : byte? cs = some byte) : byte ≤ 255 := by
  unfold byte? at h
  split at h
  · cases h
  · dsimp only at h
    split at h
    next hle =>
      cases h
      exact hle
    · cases h

theorem mapM_byte?_le {parts : List (List Char)} {bytes : List Nat}
    (h : parts.mapM byte? = some bytes) : ∀ byte ∈ bytes, byte ≤ 255 := by
  induction parts generalizing bytes with
  | nil =>
    cases h
    exact List.forall_mem_nil _
  | cons part rest ih =>
    rw [List.mapM_cons] at h
    obtain ⟨first, hfirst, h⟩ := Option.bind_eq_some_iff.mp h
    obtain ⟨later, hlater, h⟩ := Option.bind_eq_some_iff.mp h
    cases h
    exact List.forall_mem_cons.mpr ⟨byte?_le hfirst, ih hlater⟩

theorem dotted?_lt {cs : List Char} {row : List Nat} (h : dotted? cs = some row) :
    ∀ piece ∈ row, piece < 65536 := by
  obtain ⟨bytes, hbytes, h⟩ := Option.bind_eq_some_iff.mp h
  have hle := mapM_byte?_le hbytes
  split at h
  · cases h
    simp only [List.forall_mem_cons] at hle ⊢
    exact ⟨by omega, by omega, List.forall_mem_nil _⟩
  · cases h

theorem row?_lt {mayEndDotted : Bool} {parts : List (List Char)} {row : List Nat}
    (h : row? mayEndDotted parts = some row) : ∀ piece ∈ row, piece < 65536 := by
  induction parts generalizing row with
  | nil =>
    cases h
    exact List.forall_mem_nil _
  | cons first rest ih =>
    cases rest with
    | nil =>
      rw [row?] at h
      split at h
      · exact dotted?_lt h
      · obtain ⟨piece, hpiece, rfl⟩ := Option.map_eq_some_iff.mp h
        exact List.forall_mem_singleton.mpr (piece?_lt hpiece)
    | cons next rest =>
      rw [row?] at h
      · obtain ⟨piece, hpiece, h⟩ := Option.bind_eq_some_iff.mp h
        obtain ⟨later, hlater, h⟩ := Option.bind_eq_some_iff.mp h
        cases h
        exact List.forall_mem_cons.mpr ⟨piece?_lt hpiece, ih hlater⟩
      · simp

theorem parse?_lt {cs : List Char} {pieces : List Nat} (h : parse? cs = some pieces) :
    ∀ piece ∈ pieces, piece < 65536 := by
  unfold parse? at h
  split at h
  · obtain ⟨row, hrow, h⟩ := Option.bind_eq_some_iff.mp h
    split at h
    · cases h
      exact row?_lt hrow
    · cases h
  · obtain ⟨left, hleft, h⟩ := Option.bind_eq_some_iff.mp h
    obtain ⟨right, hright, h⟩ := Option.bind_eq_some_iff.mp h
    split at h
    · cases h
      intro piece hpiece
      rw [List.mem_append, List.mem_append] at hpiece
      rcases hpiece with (hmem | hzero) | hmem
      · exact row?_lt hleft piece hmem
      · rw [List.eq_of_mem_replicate hzero]
        decide
      · exact row?_lt hright piece hmem
    · cases h

theorem rowChars_ne_nil (piece : Nat) (rest : List Nat) : rowChars (piece :: rest) ≠ [] := by
  cases rest with
  | nil => simp [pieceChars_ne_nil]
  | cons next rest => simp [rowChars_cons_cons]

theorem cells_rowChars (pieces : List Nat) : cells (rowChars pieces) = pieces.map pieceChars := by
  have hcolon (piece : Nat) : ∀ c ∈ pieceChars piece, c ≠ ':' := pieceChars_ne (by decide)
  have hsplit (piece : Nat) (rest : List Nat) :
      splitOn ':' (rowChars (piece :: rest)) = (piece :: rest).map pieceChars := by
    induction rest generalizing piece with
    | nil => rw [rowChars_singleton, splitOn_of_forall (hcolon piece), List.map_singleton]
    | cons next rest ih =>
      rw [rowChars_cons_cons, splitOn_append (hcolon piece), ih]
      rfl
  cases pieces with
  | nil => rfl
  | cons piece rest =>
    rw [cells, if_neg (rowChars_ne_nil piece rest), hsplit]

theorem splitGap_append {cs : List Char} (h : ∀ c ∈ cs, c ≠ ':') (rest : List Char) :
    splitGap (cs ++ rest) = (splitGap rest).map fun (before, behind) => (cs ++ before, behind) := by
  induction cs with
  | nil => simp
  | cons c cs ih =>
    obtain ⟨hc, hcs⟩ := List.forall_mem_cons.mp h
    rw [List.cons_append, splitGap, ih hcs, Option.map_map]
    · rfl
    · rintro other rfl
      exact absurd rfl hc

theorem splitGap_colon {c : Char} (hc : c ≠ ':') (rest : List Char) :
    splitGap (':' :: c :: rest) =
      (splitGap (c :: rest)).map fun (before, behind) => (':' :: before, behind) := by
  rw [splitGap]
  intro other _ hother
  exact hc (List.cons.inj hother).1

/-- In a row there is no gap, so that the first one stands behind it. -/
theorem splitGap_rowChars (pieces : List Nat) (rest : List Char) :
    splitGap (rowChars pieces ++ rest) =
      (splitGap rest).map fun (before, behind) => (rowChars pieces ++ before, behind) := by
  have hcolon (piece : Nat) : ∀ c ∈ pieceChars piece, c ≠ ':' := pieceChars_ne (by decide)
  induction pieces with
  | nil => simp
  | cons piece later ih =>
    cases later with
    | nil => rw [rowChars_singleton, splitGap_append (hcolon piece)]
    | cons next later =>
      obtain ⟨c, cs, hcs⟩ : ∃ c cs, rowChars (next :: later) ++ rest = c :: cs :=
        List.exists_cons_of_ne_nil (by simp [rowChars_ne_nil])
      have hc : c ≠ ':' := fun hsame => rowChars_ne_colon next later rest cs (hsame ▸ hcs)
      rw [rowChars_cons_cons, List.append_assoc, splitGap_append (hcolon piece), List.cons_append,
        hcs, splitGap_colon hc, ← hcs, ih, Option.map_map, Option.map_map]
      congr 1
      funext ⟨before, behind⟩
      simp

/-- A text without a colon is no address of pieces. -/
theorem parse?_of_forall {cs : List Char} (h : ∀ c ∈ cs, c ≠ ':') : parse? cs = none := by
  have hgap : splitGap cs = none := by
    have happend := splitGap_append h []
    rwa [List.append_nil] at happend
  have hfew {row : List Nat} (hrow : row? true (cells cs) = some row) :
      row.length ≤ 2 := by
    by_cases hempty : cs = []
    · rw [hempty] at hrow
      cases hrow
      decide
    · rw [cells, if_neg hempty, splitOn_of_forall h, row?] at hrow
      split at hrow
      · obtain ⟨bytes, -, hrow⟩ := Option.bind_eq_some_iff.mp hrow
        split at hrow
        · cases hrow
          exact le_rfl
        · cases hrow
      · obtain ⟨piece, -, rfl⟩ := Option.map_eq_some_iff.mp hrow
        exact one_le_two
  unfold parse?
  rw [hgap]
  dsimp only
  cases hrow : row? true (cells cs) with
  | none => rfl
  | some row =>
    have hlength := hfew hrow
    exact if_neg (by omega)

theorem runs_drop (pieces : List Nat) (start : Nat) :
    runs (pieces.drop start) = (runs pieces).drop start := by
  induction pieces generalizing start with
  | nil => simp [runs]
  | cons piece rest ih =>
    cases start with
    | zero => rfl
    | succ start =>
      rw [List.drop_succ_cons, ih]
      rfl

/-- Of the runs of zeros the first longest one starts at its place and is as long as said. -/
theorem drop_longest (pieces : List Nat) (h : 2 ≤ (runs pieces).foldl max 0) :
    (pieces.drop ((runs pieces).idxOf ((runs pieces).foldl max 0))).take
        ((runs pieces).foldl max 0) =
      List.replicate ((runs pieces).foldl max 0) 0 := by
  have hmem : (runs pieces).foldl max 0 ∈ runs pieces := by
    rw [List.foldl_max] at h ⊢
    cases hmax : (runs pieces).max? with
    | none => simp [hmax] at h
    | some longest => simpa [hmax] using List.max?_mem hmax
  generalize (runs pieces).foldl max 0 = longest at *
  have hhead : ((runs pieces).drop ((runs pieces).idxOf longest)).headD 0 = longest := by
    rw [List.drop_eq_getElem_cons (List.idxOf_lt_length_iff.mpr hmem), List.headD_cons,
      List.getElem_idxOf]
  have hzeros := take_runs (pieces.drop ((runs pieces).idxOf longest))
  rwa [runs_drop, hhead] at hzeros

theorem parse?_chars {pieces : List Nat} (hlength : pieces.length = 8)
    (h : ∀ piece ∈ pieces, piece < 65536) : parse? (chars pieces) = some pieces := by
  unfold chars
  dsimp only
  split
  next hlong =>
    have hzeros := drop_longest pieces hlong
    generalize (runs pieces).idxOf ((runs pieces).foldl max 0) = start at *
    generalize (runs pieces).foldl max 0 = longest at *
    have hgap : splitGap (rowChars (pieces.take start) ++ [':', ':'] ++
        rowChars (pieces.drop (start + longest))) =
        some (rowChars (pieces.take start), rowChars (pieces.drop (start + longest))) := by
      rw [List.append_assoc, splitGap_rowChars]
      simp [splitGap]
    have hcount : longest ≤ 8 - start := by
      have hlen := congrArg List.length hzeros
      rw [List.length_take, List.length_drop, hlength, List.length_replicate] at hlen
      omega
    have hleft : row? false ((pieces.take start).map pieceChars) = some (pieces.take start) :=
      row?_pieces (fun piece hp => h piece (List.mem_of_mem_take hp)) false
    have hright : row? true ((pieces.drop (start + longest)).map pieceChars) =
        some (pieces.drop (start + longest)) :=
      row?_pieces (fun piece hp => h piece (List.mem_of_mem_drop hp)) true
    unfold parse?
    rw [hgap]
    dsimp only
    rw [cells_rowChars, cells_rowChars, hleft, hright]
    simp only [Option.bind_eq_bind, Option.bind_some, List.length_take, List.length_drop, hlength]
    have hmissing : 8 - min start 8 - (8 - (start + longest)) = longest := by omega
    rw [if_pos (by omega), hmissing, ← hzeros, List.append_assoc, ← List.drop_drop,
      List.take_append_drop, List.take_append_drop]
  · have hrow := row?_pieces h true
    have hgap : splitGap (rowChars pieces) = none := by
      have hnone := splitGap_rowChars pieces []
      rwa [List.append_nil] at hnone
    unfold parse?
    rw [hgap]
    dsimp only
    rw [cells_rowChars, hrow]
    exact if_pos hlength

end Ipv6
end ScopedStore.Url

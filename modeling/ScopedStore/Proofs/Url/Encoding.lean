import ScopedStore.Proofs.Url.Texts

/-! What is encoded stays as it is when it is encoded again, and no dots come of it. -/
namespace ScopedStore.Url

section Encoding
variable {set : EncodeSet} {cs : List Char}

/-- A row of characters none of which has to be encoded. -/
def Encoded (set : EncodeSet) (cs : List Char) : Prop := ∀ c ∈ cs, mustEncode set c = false

theorem Encoded.encode_eq (h : Encoded set cs) : encode set cs = cs := by
  unfold encode
  induction cs with
  | nil => rfl
  | cons c rest ih =>
    obtain ⟨hc, hrest⟩ := List.forall_mem_cons.mp h
    rw [List.flatMap_cons, ih hrest, encodeChar, hc]
    rfl

theorem Encoded.ne_of_mem (h : Encoded set cs) {d : Char} (hd : d ∈ set) : ∀ c ∈ cs, c ≠ d := by
  rintro c hc rfl
  have hplain := h c hc
  simp only [mustEncode, Bool.or_eq_false_iff, List.contains_eq_mem, decide_eq_false_iff_not] at hplain
  exact hplain.2 hd

theorem Encoded.visible (h : Encoded set cs) (hset : ' ' ∈ set) : ∀ c ∈ cs, 0x20 < c.toNat := by
  intro c hc
  have hplain := h c hc
  simp only [mustEncode, Bool.or_eq_false_iff, decide_eq_false_iff_not] at hplain
  have hne : c.toNat ≠ 0x20 := fun hsame => h.ne_of_mem hset c hc (Char.toNat_inj.mp hsame)
  omega

/-- The characters that stand for a byte. -/
def escapeChars : List Char :=
  ['%', '0', '1', '2', '3', '4', '5', '6', '7', '8', '9', 'A', 'B', 'C', 'D', 'E', 'F']

theorem mem_encodeByte {b : UInt8} : ∀ c ∈ encodeByte b, c ∈ escapeChars := by
  have hdigit : ∀ n < 16, hexDigit n ∈ escapeChars := by decide
  have hb : b.toNat < 256 := b.toNat_lt
  intro c hc
  simp only [encodeByte, List.mem_cons, List.not_mem_nil, or_false] at hc
  rcases hc with rfl | rfl | rfl
  · decide
  · exact hdigit _ (by omega)
  · exact hdigit _ (by omega)

theorem encode_encoded (hset : escapeChars.any (mustEncode set) = false) (cs : List Char) :
    Encoded set (encode set cs) := by
  intro c hc
  obtain ⟨d, -, hd⟩ := List.mem_flatMap.mp hc
  unfold encodeChar at hd
  split at hd
  · obtain ⟨b, -, hb⟩ := List.mem_flatMap.mp hd
    exact Bool.not_eq_true _ ▸ List.any_eq_false.mp hset c (mem_encodeByte c hb)
  next hplain =>
    rw [List.mem_singleton.mp hd]
    exact Bool.not_eq_true _ ▸ hplain

theorem encoded_text (hset : escapeChars.any (mustEncode set) = false) (cs : List Char) :
    Encoded set (String.ofList (encode set cs)).toList := by
  rw [String.toList_ofList]
  exact encode_encoded hset cs

theorem mem_encode : ∀ c ∈ encode set cs, c ∈ cs ∨ c ∈ escapeChars := by
  intro c hc
  obtain ⟨d, hmem, hd⟩ := List.mem_flatMap.mp hc
  unfold encodeChar at hd
  split at hd
  · obtain ⟨b, -, hb⟩ := List.mem_flatMap.mp hd
    exact .inr (mem_encodeByte c hb)
  · rw [List.mem_singleton.mp hd]
    exact .inl hmem

theorem encodeChar_ne_nil (set : EncodeSet) (c : Char) : encodeChar set c ≠ [] := by
  unfold encodeChar
  split
  · rw [Text.toBytes_singleton]
    obtain ⟨b, tail, hbytes⟩ := List.exists_cons_of_ne_nil (String.utf8EncodeChar_ne_nil (c := c))
    rw [hbytes]
    exact List.cons_ne_nil _ _
  · exact List.cons_ne_nil _ _

theorem encode_eq_nil_iff : encode set cs = [] ↔ cs = [] := by
  cases cs with
  | nil => exact iff_of_true rfl rfl
  | cons c rest => simp [encode, encodeChar_ne_nil]

end Encoding

theorem dropDot_eq_some_iff {cs rest : List Char} :
    dropDot cs = some rest ↔
      cs = '.' :: rest ∨ cs = '%' :: '2' :: 'e' :: rest ∨ cs = '%' :: '2' :: 'E' :: rest := by
  unfold dropDot
  split <;> simp_all

theorem encode_cons_inv {c : Char} {cs rest : List Char} (hc : c ≠ '%')
    (h : encode pathSet cs = c :: rest) : ∃ left, cs = c :: left ∧ rest = encode pathSet left := by
  cases cs with
  | nil => cases h
  | cons d left =>
    rw [encode, List.flatMap_cons, encodeChar] at h
    split at h
    · obtain ⟨b, tail, hbytes⟩ := List.exists_cons_of_ne_nil (String.utf8EncodeChar_ne_nil (c := d))
      rw [Text.toBytes_singleton, hbytes] at h
      exact absurd (List.cons.inj h).1.symm hc
    · obtain ⟨rfl, rfl⟩ := List.cons.inj h
      exact ⟨left, rfl, rfl⟩

theorem eq_point_of_encodeByte {b : UInt8} {e : Char} (he : e = 'e' ∨ e = 'E')
    (h : encodeByte b = ['%', '2', e]) : b = 0x2E := by
  have hhigh : ∀ n < 16, hexDigit n = '2' → n = 2 := by decide
  have hlow : ∀ n < 16, hexDigit n ≠ 'e' ∧ (hexDigit n = 'E' → n = 14) := by decide
  have hb : b.toNat < 256 := b.toNat_lt
  simp only [encodeByte, List.cons.injEq, true_and, and_true] at h
  have htwo := hhigh _ (by omega) h.1
  have hfourteen : b.toNat % 16 = 14 := by
    rcases he with rfl | rfl
    · exact absurd h.2 (hlow _ (by omega)).1
    · exact (hlow _ (by omega)).2 h.2
  apply UInt8.toNat_inj.mp
  change b.toNat = 46
  omega

/-- The only byte that is encoded like a point is the one of a point, which is never encoded. -/
theorem encode_escape_inv {e : Char} {cs rest : List Char} (he : e = 'e' ∨ e = 'E')
    (h : encode pathSet cs = '%' :: '2' :: e :: rest) :
    ∃ left, cs = '%' :: '2' :: e :: left ∧ rest = encode pathSet left := by
  cases cs with
  | nil => cases h
  | cons d behind =>
    rw [encode, List.flatMap_cons, encodeChar] at h
    split at h
    next hmust =>
      obtain ⟨b, tail, hbytes⟩ := List.exists_cons_of_ne_nil (String.utf8EncodeChar_ne_nil (c := d))
      have hpoint : b = 0x2E := by
        apply eq_point_of_encodeByte he
        rw [Text.toBytes_singleton, hbytes, List.flatMap_cons, encodeByte] at h
        obtain ⟨-, h⟩ := List.cons.inj h
        obtain ⟨hhigh, h⟩ := List.cons.inj h
        obtain ⟨hlow, -⟩ := List.cons.inj h
        rw [encodeByte, hhigh, hlow]
      have hd : d = '.' := Text.eq_point_of_encodeChar (hpoint ▸ hbytes)
      rw [hd] at hmust
      cases hmust
    · obtain ⟨rfl, hbehind⟩ := List.cons.inj h
      have hne : e ≠ '%' := by
        rcases he with rfl | rfl <;> decide
      obtain ⟨after, rfl, hafter⟩ := encode_cons_inv (by decide) hbehind
      obtain ⟨left, rfl, hrest⟩ := encode_cons_inv hne hafter.symm
      exact ⟨left, rfl, hrest⟩

theorem dropDot_of_encode {cs rest : List Char} (h : dropDot (encode pathSet cs) = some rest) :
    ∃ left, dropDot cs = some left ∧ rest = encode pathSet left := by
  rcases dropDot_eq_some_iff.mp h with h | h | h
  · obtain ⟨left, rfl, hrest⟩ := encode_cons_inv (by decide) h
    exact ⟨left, rfl, hrest⟩
  · obtain ⟨left, rfl, hrest⟩ := encode_escape_inv (.inl rfl) h
    exact ⟨left, rfl, hrest⟩
  · obtain ⟨left, rfl, hrest⟩ := encode_escape_inv (.inr rfl) h
    exact ⟨left, rfl, hrest⟩

theorem isSingleDot_encode {cs : List Char} (h : isSingleDot cs = false) :
    isSingleDot (encode pathSet cs) = false := by
  rw [isSingleDot, decide_eq_false_iff_not] at h ⊢
  intro hdot
  obtain ⟨left, hleft, hnil⟩ := dropDot_of_encode hdot
  rw [encode_eq_nil_iff.mp hnil.symm] at hleft
  exact h hleft

theorem isDoubleDot_encode {cs : List Char} (h : isDoubleDot cs = false) :
    isDoubleDot (encode pathSet cs) = false := by
  rw [isDoubleDot, decide_eq_false_iff_not] at h ⊢
  intro hdots
  obtain ⟨rest, hrest, hdot⟩ := Option.bind_eq_some_iff.mp hdots
  obtain ⟨middle, hmiddle, rfl⟩ := dropDot_of_encode hrest
  obtain ⟨left, hleft, hnil⟩ := dropDot_of_encode hdot
  rw [encode_eq_nil_iff.mp hnil.symm] at hleft
  exact h (Option.bind_eq_some_iff.mpr ⟨middle, hmiddle, hleft⟩)

end ScopedStore.Url

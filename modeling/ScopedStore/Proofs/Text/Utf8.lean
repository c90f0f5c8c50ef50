import ScopedStore.Proofs.Text.ByteOrder

/-! The bytes of a text are read back as its characters, without any gap. -/
namespace ScopedStore.Text

def continuation (payload : Nat) : UInt8 := UInt8.ofNat (payload + 128)

theorem tail?_continuation {payload : Nat} (h : payload < 64) :
    tail? (continuation payload) = some payload := by
  have hvalue : (continuation payload).toNat = payload + 128 :=
    UInt8.toNat_ofNat_of_lt' (by simp only [UInt8.size]; omega)
  have hrange : 0x80 ≤ continuation payload ∧ continuation payload < 0xC0 := by
    rw [UInt8.le_iff_toNat_le, UInt8.lt_iff_toNat_lt, hvalue]
    simp only [UInt8.reduceToNat]
    omega
  rw [tail?, if_pos hrange, hvalue, Nat.add_sub_cancel]

theorem tails_continuation {payloads : List Nat} (h : ∀ payload ∈ payloads, payload < 64) :
    (payloads.map continuation).mapM tail? = some payloads := by
  induction payloads with
  | nil => rfl
  | cons payload rest ih =>
    obtain ⟨hfirst, hrest⟩ := List.forall_mem_cons.mp h
    rw [List.map_cons, List.mapM_cons, tail?_continuation hfirst, ih hrest]
    rfl

/-- A lead byte and its continuations give the character whose code point they join to. -/
theorem longChar_continuation {c : Char} {least lead : Nat} {payloads : List Nat}
    (h : ∀ payload ∈ payloads, payload < 64) (hpoint : join lead payloads = c.toNat)
    (hleast : least ≤ c.toNat) (rest : Bytes) :
    longChar payloads.length least lead (payloads.map continuation ++ rest) =
      (some c, payloads.length) := by
  have htake : (payloads.map continuation ++ rest).take payloads.length =
      payloads.map continuation := List.take_left' (List.length_map ..)
  have hvalid : c.toNat.isValidChar := c.valid
  rw [longChar, htake, tails_continuation h]
  simp [hpoint, hleast, hvalid]

theorem decodeBytes_lead {b : UInt8} {c : Char} {used : Nat} {tail rest : Bytes}
    (h : firstChar b (tail ++ rest) = (some c, used)) (hused : used = tail.length) :
    decodeBytes (b :: tail ++ rest) = some c :: decodeBytes rest := by
  rw [List.cons_append, decodeBytes, h, hused]
  simp

theorem decodeBytes_long {b : UInt8} {c : Char} (least lead : Nat) (payloads : List Nat)
    (hlead : ∀ rest, firstChar b rest = longChar payloads.length least lead rest)
    (hpayloads : ∀ payload ∈ payloads, payload < 64) (hpoint : join lead payloads = c.toNat)
    (hleast : least ≤ c.toNat) (rest : Bytes) :
    decodeBytes (b :: payloads.map continuation ++ rest) = some c :: decodeBytes rest := by
  refine decodeBytes_lead ?_ (List.length_map _).symm
  rw [hlead, longChar_continuation hpayloads hpoint hleast]

theorem decodeBytes_encodeChar (c : Char) (rest : Bytes) :
    decodeBytes (String.utf8EncodeChar c ++ rest) = some c :: decodeBytes rest := by
  have hlast : c.toNat < 0x110000 := by
    have hvalid : c.toNat.isValidChar := c.valid
    unfold Nat.isValidChar at hvalid
    omega
  have hlead {n : Nat} (h : n < 256) : (UInt8.ofNat n).toNat = n := UInt8.toNat_ofNat_of_lt' h
  have hpoint : c.val.toNat = c.toNat := rfl
  unfold String.utf8EncodeChar
  dsimp only
  rw [hpoint]
  -- One case for each number of bytes, told apart by the lead byte.
  split_ifs with hone htwo hthree
  · refine @decodeBytes_lead _ c 0 [] rest ?_ rfl
    rw [firstChar, hlead (by omega), if_pos (by omega), Char.ofNat_toNat]
  · refine decodeBytes_long 0x80 (c.toNat / 64 % 32) [c.toNat % 64] (fun rest => ?_) ?_ ?_ ?_ rest
    · rw [firstChar, hlead (by omega), if_neg (by omega), if_neg (by omega), if_pos (by omega),
        Nat.add_sub_cancel]
      rfl
    · simp
      omega
    · simp [join]
      omega
    · omega
  · refine decodeBytes_long 0x800 (c.toNat / 4096 % 16) [c.toNat / 64 % 64, c.toNat % 64]
      (fun rest => ?_) ?_ ?_ ?_ rest
    · rw [firstChar, hlead (by omega), if_neg (by omega), if_neg (by omega), if_neg (by omega),
        if_pos (by omega),
        Nat.add_sub_cancel]
      rfl
    · simp
      omega
    · simp [join]
      omega
    · omega
  · refine decodeBytes_long 0x10000 (c.toNat / 262144 % 8)
      [c.toNat / 4096 % 64, c.toNat / 64 % 64, c.toNat % 64] (fun rest => ?_) ?_ ?_ ?_ rest
    · rw [firstChar, hlead (by omega), if_neg (by omega), if_neg (by omega), if_neg (by omega),
        if_neg (by omega), if_pos (by omega),
        Nat.add_sub_cancel]
      rfl
    · simp
      omega
    · simp [join]
      omega
    · omega

theorem toBytes_singleton (c : Char) : toBytes (String.singleton c) = String.utf8EncodeChar c := by
  rw [toBytes_eq]
  simp

/-- A point is the only character whose bytes start with its byte. -/
theorem eq_point_of_encodeChar {c : Char} {tail : Bytes} (h : String.utf8EncodeChar c = 0x2E :: tail) :
    c = '.' := by
  have hread := decodeBytes_encodeChar c []
  have hpoint : decodeBytes (0x2E :: tail) = some '.' :: decodeBytes tail := by
    rw [decodeBytes]
    rfl
  rw [List.append_nil, h, hpoint] at hread
  exact Option.some.inj (List.cons.inj hread).1.symm

theorem decodeBytes_toBytes (text : String) :
    decodeBytes (toBytes text) = text.toList.map some := by
  rw [toBytes_eq]
  induction text.toList with
  | nil => simp [decodeBytes]
  | cons c rest ih => rw [List.flatMap_cons, decodeBytes_encodeChar, ih, List.map_cons]

end ScopedStore.Text

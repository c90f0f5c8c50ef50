import Mathlib
import ScopedStore.Text.Utf8

/-! Texts in the order of their bytes. UTF-8 keeps the order of code points: of two characters the
smaller one has the smaller bytes, and neither starts like the other to its end. So comparing texts
character by character is comparing their bytes. -/
namespace ScopedStore.Text

/-- The bytes differ before either ends, and there the first ones are smaller. -/
def Parts : Bytes → Bytes → Prop
  | x :: xs, y :: ys => x < y ∨ x = y ∧ Parts xs ys
  | _, _ => False

/-- What follows does not matter then. -/
theorem Parts.append_lt {xs ys : Bytes} (h : Parts xs ys) (xs' ys' : Bytes) :
    xs ++ xs' < ys ++ ys' := by
  induction xs generalizing ys with
  | nil => exact h.elim
  | cons x xs ih =>
    cases ys with
    | nil => exact h.elim
    | cons y ys =>
      apply List.cons_lt_cons_iff.mpr
      rcases h with hlt | ⟨heq, hparts⟩
      · exact .inl hlt
      · exact .inr ⟨heq, ih hparts⟩

theorem parts_cons {x y : UInt8} {xs ys : Bytes} :
    Parts (x :: xs) (y :: ys) ↔ x < y ∨ x = y ∧ Parts xs ys := Iff.rfl

theorem not_parts_nil (xs : Bytes) : ¬ Parts xs [] := by
  cases xs <;> exact id

theorem parts_ofNat {a b : Nat} {xs ys : Bytes} (ha : a < 256) (hb : b < 256) :
    Parts (UInt8.ofNat a :: xs) (UInt8.ofNat b :: ys) ↔ a < b ∨ a = b ∧ Parts xs ys := by
  rw [parts_cons, UInt8.lt_iff_toNat_lt, ← UInt8.toNat_inj, UInt8.toNat_ofNat_of_lt' ha,
    UInt8.toNat_ofNat_of_lt' hb]

/-- A character of more bytes has a larger lead byte; among those of as many bytes the digits of the
code point decide, the most significant first. -/
theorem encodeChar_parts {c d : Char} (h : c < d) :
    Parts (String.utf8EncodeChar c) (String.utf8EncodeChar d) := by
  have hlt : c.val.toNat < d.val.toNat := h
  have hlast : d.val.toNat < 0x110000 := by
    have hvalid := d.valid
    unfold UInt32.isValidChar Nat.isValidChar at hvalid
    omega
  unfold String.utf8EncodeChar
  dsimp only
  generalize c.val.toNat = v at hlt
  generalize d.val.toNat = w at hlt hlast
  -- Each digit is a remainder of the quotient that the digit before it leaves.
  have hdigits (n : Nat) : n / 4096 = n / 64 / 64 ∧ n / 262144 = n / 64 / 64 / 64 := by
    simp [Nat.div_div_eq_div_mul]
  simp only [(hdigits v).1, (hdigits v).2, (hdigits w).1, (hdigits w).2]
  -- One case for each pair of lengths; where the first is longer, the bounds contradict each other.
  split_ifs
  all_goals
    simp (disch := omega) only [parts_ofNat, not_parts_nil, and_false, or_false]
    omega

theorem encodeChars_lt {cs ds : List Char} (h : cs < ds) :
    cs.flatMap String.utf8EncodeChar < ds.flatMap String.utf8EncodeChar := by
  induction h with
  | @nil d ds =>
    rw [List.flatMap_nil, List.flatMap_cons]
    cases he : String.utf8EncodeChar d with
    | nil => exact absurd he String.utf8EncodeChar_ne_nil
    | cons => exact List.nil_lt_cons _ _
  | @rel c cs d ds hlt =>
    rw [List.flatMap_cons, List.flatMap_cons]
    exact (encodeChar_parts hlt).append_lt _ _
  | @cons c cs ds htail ih =>
    rw [List.flatMap_cons, List.flatMap_cons]
    exact List.append_left_lt ih

/-- Reading an array of bytes one by one. -/
theorem toList_loop (bytes : ByteArray) (i : Nat) (done : Bytes) :
    ByteArray.toList.loop bytes i done = done.reverse ++ bytes.data.toList.drop i := by
  fun_induction ByteArray.toList.loop bytes i done with
  | case1 i done hlt ih =>
    have hlength : i < bytes.data.toList.length := by simpa using hlt
    have hget : bytes.get! i = bytes.data.toList[i] := by
      rw [Array.getElem_toList]
      exact getElem!_pos bytes.data i hlt
    rw [ih, List.drop_eq_getElem_cons hlength, hget]
    simp
  | case2 i done hge =>
    rw [List.drop_eq_nil_of_le (by simpa using Nat.le_of_not_lt hge), List.append_nil]

theorem toBytes_eq (text : String) : toBytes text = text.toList.flatMap String.utf8EncodeChar := by
  have hencode : text.toUTF8 = (text.toList.flatMap String.utf8EncodeChar).toByteArray :=
    String.utf8Encode_toList.symm
  unfold toBytes
  rw [hencode, ByteArray.toList, toList_loop]
  exact List.toList_data_toByteArray

theorem toBytes_lt {a b : String} (h : a < b) : toBytes a < toBytes b := by
  rw [toBytes_eq, toBytes_eq]
  exact encodeChars_lt h

end ScopedStore.Text

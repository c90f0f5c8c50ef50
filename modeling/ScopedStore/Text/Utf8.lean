/-!
UTF-8: bytes as characters. A byte that belongs to no character is kept as a gap, so that what
follows it is still read.
-/

namespace ScopedStore.Text

abbrev Bytes := List UInt8

/-- What holds of the characters of ASCII one by one holds of all of them. -/
theorem forall_ascii {P : Char → Prop} (h : ∀ n < 0x80, P (Char.ofNat n)) {c : Char}
    (hc : c.toNat < 0x80) : P c := by
  have hn := h c.toNat hc
  rwa [Char.ofNat_toNat] at hn

/-- The payload of a continuation byte. -/
def tail? (b : UInt8) : Option Nat :=
  if 0x80 ≤ b ∧ b < 0xC0 then some (b.toNat - 0x80) else none

def join (lead : Nat) (tails : List Nat) : Nat :=
  tails.foldl (fun n t => n * 64 + t) lead

/-- A character of several bytes, from the payload of its lead byte and the bytes that follow.
Long forms of small code points, surrogates and numbers beyond the last code point are no
characters. -/
def longChar (count least lead : Nat) (rest : Bytes) : Option Char × Nat :=
  match (rest.take count).mapM tail? with
  | none => (none, 0)
  | some tails =>
    let point := join lead tails
    if tails.length = count ∧ least ≤ point ∧ point.isValidChar then
      (some (Char.ofNat point), count)
    else (none, 0)

/-- The character that starts with a byte and how many of the following bytes belong to it. -/
def firstChar (b : UInt8) (rest : Bytes) : Option Char × Nat :=
  let lead := b.toNat
  if lead < 0x80 then (some (Char.ofNat lead), 0)
  else if lead < 0xC0 then (none, 0)
  else if lead < 0xE0 then longChar 1 0x80 (lead - 0xC0) rest
  else if lead < 0xF0 then longChar 2 0x800 (lead - 0xE0) rest
  else if lead < 0xF8 then longChar 3 0x10000 (lead - 0xF0) rest
  else (none, 0)

def decodeBytes : Bytes → List (Option Char)
  | [] => []
  | b :: rest =>
    let (c, used) := firstChar b rest
    c :: decodeBytes (rest.drop used)
termination_by bytes => bytes.length
decreasing_by exact Nat.lt_succ_of_le (List.drop_sublist _ _).length_le

/-- The text of bytes that are UTF-8 throughout. -/
def ofBytes? (bytes : Bytes) : Option String :=
  ((decodeBytes bytes).mapM id).map String.ofList

def toBytes (text : String) : Bytes := text.toUTF8.toList

end ScopedStore.Text

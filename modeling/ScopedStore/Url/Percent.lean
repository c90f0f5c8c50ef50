import ScopedStore.Text.Utf8

/-!
Percent encoding. A set names the ASCII characters that one part of a URL has to encode; controls
and characters beyond ASCII are encoded everywhere.
-/

namespace ScopedStore.Url

/-- The printable ASCII characters that have to be encoded. -/
abbrev EncodeSet := List Char

def querySet : EncodeSet := [' ', '"', '#', '<', '>']

def specialQuerySet : EncodeSet := '\'' :: querySet

def fragmentSet : EncodeSet := [' ', '"', '<', '>', '\x60']

def pathSet : EncodeSet := ['#', '?', '\x7b', '\x7d'] ++ fragmentSet

def userInfoSet : EncodeSet := ['/', ':', ';', '=', '@', '[', '\\', ']', '^', '|'] ++ pathSet

def hexDigit (n : Nat) : Char :=
  Char.ofNat (if n < 10 then '0'.toNat + n else 'A'.toNat + (n - 10))

def encodeByte (b : UInt8) : List Char :=
  ['%', hexDigit (b.toNat / 16), hexDigit (b.toNat % 16)]

def mustEncode (set : EncodeSet) (c : Char) : Bool :=
  c.toNat < 0x20 || 0x7F ≤ c.toNat || set.contains c

def encodeChar (set : EncodeSet) (c : Char) : List Char :=
  if mustEncode set c then (Text.toBytes (String.singleton c)).flatMap encodeByte else [c]

def encode (set : EncodeSet) (cs : List Char) : List Char := cs.flatMap (encodeChar set)

def hexValue? (c : Char) : Option Nat :=
  if c.isDigit then some (c.toNat - '0'.toNat)
  else if 'a' ≤ c ∧ c ≤ 'f' then some (c.toNat - 'a'.toNat + 10)
  else if 'A' ≤ c ∧ c ≤ 'F' then some (c.toNat - 'A'.toNat + 10)
  else none

def pair? (high low : Char) : Option UInt8 :=
  match hexValue? high, hexValue? low with
  | some h, some l => some (UInt8.ofNat (h * 16 + l))
  | _, _ => none

/-- Decodes what is encoded; a percent sign without two digits stands for itself. -/
def decode : List Char → Text.Bytes
  | [] => []
  | '%' :: high :: low :: rest =>
    match pair? high low with
    | some b => b :: decode rest
    | none => UInt8.ofNat '%'.toNat :: decode (high :: low :: rest)
  | c :: rest => Text.toBytes (String.singleton c) ++ decode rest

end ScopedStore.Url

/-!
Natural numbers as decimal digits: plain, padded to a width, and as the places behind a point.
-/

namespace ScopedStore.Decimal

def digitChar (n : Nat) : Char := Char.ofNat ('0'.toNat + n % 10)

def digitValue (c : Char) : Nat := c.toNat - '0'.toNat

/-- The digits of a number without leading zeros. -/
def digits (n : Nat) : List Char :=
  if n < 10 then [digitChar n] else digits (n / 10) ++ [digitChar n]
termination_by n

/-- The last `width` digits of a number, with leading zeros. -/
def padded : Nat → Nat → List Char
  | 0, _ => []
  | width + 1, n => padded width (n / 10) ++ [digitChar n]

/-- The number that a row of digits denotes. -/
def value (cs : List Char) : Nat :=
  cs.foldl (fun n c => 10 * n + digitValue c) 0

def areDigits (cs : List Char) : Bool := cs.all Char.isDigit

/-- The value of a row of places behind the point, counted in units of the last of `width`
places; places beyond are cut off. -/
def fractionValue (width : Nat) (cs : List Char) : Nat :=
  value (cs.take width) * Nat.pow 10 (width - cs.length)

/-- The places behind the point without trailing zeros. -/
def fractionDigits (width n : Nat) : List Char :=
  ((padded width n).reverse.dropWhile (· = '0')).reverse

/-- Reads exactly `width` digits. -/
def takePadded (width : Nat) (cs : List Char) : Option (Nat × List Char) :=
  let taken := cs.take width
  if taken.length = width ∧ areDigits taken then some (value taken, cs.drop width) else none

end ScopedStore.Decimal

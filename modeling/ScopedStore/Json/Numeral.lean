import ScopedStore.Decimal.Shortest

/-!
Number literals as numbers. A literal without a point or an exponent that fits 64 bits is an
integer. Any other is a binary fraction, made from at most 64 bits of significand and one
multiplication or division by a power of ten for each 308 decimal places.
-/

namespace ScopedStore.Json

inductive Numeral where
  | int (value : Int)
  | float (value : Float)

namespace Numeral

/-- The largest significand. -/
private def limit : Nat := UInt64.size - 1

private def digitValue (c : Char) : Nat := c.toNat - '0'.toNat

/-- Takes digits into a significand while it fits. -/
private def takeDigits : List Char → Nat → Nat → Nat × Nat × List Char
  | [], significand, taken => (significand, taken, [])
  | c :: rest, significand, taken =>
    let next := significand * 10 + digitValue c
    if c.isDigit ∧ next ≤ limit then takeDigits rest next (taken + 1)
    else (significand, taken, c :: rest)

private def scale (exponent : Nat) : Float := Float.ofScientific 1 false exponent

/-- Moves the point of a number by `exponent` places, at most `fuel` times 308 of them. `none`
stands for a number out of range. -/
private def shift : Nat → Float → Int → Option Float
  | 0, x, _ => some x
  | fuel + 1, x, exponent =>
    if exponent.natAbs ≤ 308 then
      if 0 ≤ exponent then
        let x := x * scale exponent.natAbs
        if x.isInf then none else some x
      else some (x / scale exponent.natAbs)
    else if x == 0 then some x
    else if 0 ≤ exponent then none
    else shift fuel (x / scale 308) (exponent + 308)

private def ofParts (isNegative : Bool) (significand : Nat) (exponent : Int) : Option Numeral :=
  (shift 6 (UInt64.ofNat significand).toFloat exponent).map fun x =>
    float (if isNegative then -x else x)

/-- The number with what is left of its literal, at most an exponent. -/
private def withExponent (isNegative : Bool) (significand : Nat) (exponent : Int)
    (rest : List Char) : Option Numeral :=
  match rest with
  | [] => ofParts isNegative significand exponent
  | _ :: rest =>
    let (isDown, digits) :=
      match rest with
      | '-' :: digits => (true, digits)
      | '+' :: digits => (false, digits)
      | digits => (false, digits)
    let places := digits.foldl (fun n c => n * 10 + digitValue c) 0
    if 0x80000000 ≤ places then
      if significand ≠ 0 ∧ !isDown then none else some (float (if isNegative then -0.0 else 0.0))
    else ofParts isNegative significand (if isDown then exponent - places else exponent + places)

/-- The number with what is left behind the whole digits that were taken. Whole digits that did
not fit count as places; fraction digits that do not fit are dropped. -/
private def withFraction (isNegative : Bool) (significand : Nat) (rest : List Char) :
    Option Numeral :=
  let dropped := (rest.takeWhile Char.isDigit).length
  match rest.dropWhile Char.isDigit with
  | '.' :: fraction =>
    let (significand, taken, rest) := takeDigits fraction significand 0
    withExponent isNegative significand ((dropped : Int) - taken)
      (rest.dropWhile Char.isDigit)
  | rest => withExponent isNegative significand dropped rest

private def ofUnsigned (isNegative : Bool) (chars : List Char) : Option Numeral :=
  match takeDigits chars 0 0 with
  | (significand, _, []) =>
    if !isNegative then some (int significand)
    else if 0 < significand ∧ significand ≤ 0x8000000000000000 then
      some (int (-(significand : Int)))
    else some (float (-(UInt64.ofNat significand).toFloat))
  | (significand, _, rest) => withFraction isNegative significand rest

/-- Reads a number literal; `none` if it is too large for a number. -/
def ofLiteral (literal : String) : Option Numeral :=
  match literal.toList with
  | '-' :: chars => ofUnsigned true chars
  | chars => ofUnsigned false chars

/-- The places of positional notation: above the fifth place behind the point, and up to sixteen
places in front of it. -/
private def isPositional (digits : Nat) (exponent : Int) : Bool :=
  let top := digits + exponent
  (-5 < top ∧ top ≤ 16)

/-- Decimal text of a positive number. It has a point or an exponent, so that it does not read
back as an integer. -/
def scientificText (d : Decimal.Scientific) : String :=
  let digits := Nat.toDigits 10 d.digits
  let top := digits.length + d.exponent
  let text :=
    if isPositional digits.length d.exponent then
      if 0 ≤ d.exponent then
        digits ++ List.replicate d.exponent.toNat '0' ++ ['.', '0']
      else if 0 < top then
        digits.take top.toNat ++ '.' :: digits.drop top.toNat
      else ['0', '.'] ++ List.replicate (-top).toNat '0' ++ digits
    else
      let mantissa :=
        match digits with
        | [digit] => [digit]
        | first :: rest => first :: '.' :: rest
        | [] => []
      mantissa ++ 'e' :: (toString (top - 1)).toList
  String.ofList text

def text : Numeral → String
  | int value => toString value
  | float x =>
    let sign := if 0x8000000000000000 ≤ x.toBits.toNat then "-" else ""
    if x == 0 then sign ++ "0.0" else sign ++ scientificText (Decimal.shortest x.abs)

end Numeral

end ScopedStore.Json

import ScopedStore.Json.Basic
import ScopedStore.Decimal.Digits
import ScopedStore.Time.Calendar
import ScopedStore.Url.Address

/-!
Unquoted values of TOML: truth values, numbers, dates and times. Underscores may part the digits of
a number.
-/

namespace ScopedStore.Toml.Scalar

open Decimal

/-- The digits between single underscores. -/
def groups? (isDigit : Char → Bool) (cs : List Char) : Option (List Char) :=
  let parts := Url.splitOn '_' cs
  if parts.all fun part => part != [] && part.all isDigit then some parts.flatten else none

private def isHexDigit (c : Char) : Bool := (Url.hexValue? c).isSome

private def isBelow (base : Nat) (c : Char) : Bool := c.isDigit && digitValue c < base

/-- A sign, which is no digit, and the rest. -/
private def splitSign : List Char → Bool × List Char
  | '-' :: rest => (true, rest)
  | '+' :: rest => (false, rest)
  | cs => (false, cs)

/-- Decimal digits without a leading zero. -/
private def whole? (cs : List Char) : Option (List Char) :=
  (groups? Char.isDigit cs).filter fun digits => digits.length = 1 || digits.head? != some '0'

def integer? (cs : List Char) : Option Int :=
  let ofBase (base : Nat) (digits : Option (List Char)) : Option Int :=
    (digits.bind (Url.ofBase? base)).map Int.ofNat
  match cs with
  | '0' :: 'x' :: rest => ofBase 16 (groups? isHexDigit rest)
  | '0' :: 'o' :: rest => ofBase 8 (groups? (isBelow 8) rest)
  | '0' :: 'b' :: rest => ofBase 2 (groups? (isBelow 2) rest)
  | _ =>
    let (isNegative, digits) := splitSign cs
    (whole? digits).map fun digits => if isNegative then -(value digits : Int) else value digits

/-- The integers that any reader of a document can take. -/
def isInRange (n : Int) : Bool := -(1 <<< 127 : Nat) ≤ n && n < (1 <<< 128 : Nat)

/-- Whether `digits · 10 ^ exponent` rounds to a finite binary fraction of 64 bits. -/
def isFinite (digits : List Char) (exponent : Int) : Bool :=
  let digits := digits.dropWhile (· = '0')
  let top := digits.length + exponent
  if digits = [] ∨ top < 300 then true
  else if 310 < top then false
  else
    value digits * Nat.pow 10 exponent.toNat <
      (1 <<< 1024 - 1 <<< 970) * Nat.pow 10 (-exponent).toNat

/-- A number with a fraction, an exponent or both; `none` also where it is too large. The result
is its literal without underscores. -/
def float? (cs : List Char) : Option String := do
  let isMark (c : Char) : Bool := c = 'e' || c = 'E'
  let (isNegative, unsigned) := splitSign cs
  let mantissa := unsigned.takeWhile fun c => !isMark c
  let front ← whole? (mantissa.takeWhile (· != '.'))
  let fraction ←
    match mantissa.dropWhile (· != '.') with
    | [] => some []
    | _ :: places => groups? Char.isDigit places
  let exponent ←
    match unsigned.dropWhile fun c => !isMark c with
    | [] => if fraction = [] then none else some 0
    | _ :: rest =>
      let (isDown, digits) := splitSign rest
      (groups? Char.isDigit digits).map fun digits =>
        if isDown then -(value digits : Int) else value digits
  if isFinite (front ++ fraction) (exponent - fraction.length) then
    let point := if fraction = [] then [] else '.' :: fraction
    some (String.ofList ((if isNegative then ['-'] else []) ++ front ++ point ++
      'e' :: (toString exponent).toList))
  else none

private def isSpecialFloat (cs : List Char) : Bool :=
  let unsigned := (splitSign cs).2
  unsigned = ['i', 'n', 'f'] || unsigned = ['n', 'a', 'n']

/-- What is left behind a date, if the text starts with one. -/
def afterDate? (cs : List Char) : Option (List Char) := do
  let (year, cs) ← takePadded 4 cs
  let (month, cs) ←
    match cs with
    | '-' :: cs => takePadded 2 cs
    | _ => none
  let (day, cs) ←
    match cs with
    | '-' :: cs => takePadded 2 cs
    | _ => none
  if 1 ≤ month ∧ month ≤ 12 ∧ 1 ≤ day ∧ day ≤ Calendar.daysInMonth year month then some cs
  else none

/-- What is left behind a fraction of a second, if there is one. -/
private def afterFraction? : List Char → Option (List Char)
  | '.' :: places =>
    if (places.takeWhile Char.isDigit) = [] then none else some (places.dropWhile Char.isDigit)
  | cs => some cs

/-- What is left behind a time of day. Seconds may be missing, and their fraction with them. -/
def afterTime? (cs : List Char) : Option (List Char) := do
  let (hour, cs) ← takePadded 2 cs
  let (minute, cs) ←
    match cs with
    | ':' :: cs => takePadded 2 cs
    | _ => none
  if 23 < hour ∨ 59 < minute then none
  else
    match cs with
    | ':' :: cs => do
      let (second, cs) ← takePadded 2 cs
      if 60 < second then none else afterFraction? cs
    | _ => some cs

/-- Whether a text is nothing or an offset from universal time. -/
def isOffset : List Char → Bool
  | [] => true
  | ['z'] | ['Z'] => true
  | sign :: rest =>
    match takePadded 2 rest with
    | some (hours, ':' :: rest) =>
      match takePadded 2 rest with
      | some (minutes, []) => (sign = '+' || sign = '-') && hours ≤ 23 && minutes ≤ 59
      | _ => false
    | _ => false

/-- Whether a text is a date, a time, or both with or without an offset. -/
def isDateTime (cs : List Char) : Bool :=
  match afterDate? cs with
  | some [] => true
  | some (separator :: rest) =>
    (separator = 'T' || separator = 't' || separator = ' ') &&
      (afterTime? rest).elim false isOffset
  | none => afterTime? cs = some []

/-- The key under which a date or time stands where a table is wanted. -/
def dateTimeKey : String := "$__toml_private_datetime"

/-- The value of an unquoted text. Infinite numbers stand for nothing that a setting could be. -/
def read? (cs : List Char) : Option Json :=
  if cs = "true".toList then some (.bool true)
  else if cs = "false".toList then some (.bool false)
  else if isSpecialFloat cs then some .garbled
  else
    match integer? cs with
    | some n => if isInRange n then some (.ofInt n) else none
    | none =>
      match float? cs with
      | some literal => some (.number literal)
      | none =>
        if isDateTime cs then some (.ofFields [(dateTimeKey, .string (String.ofList cs))])
        else none

end ScopedStore.Toml.Scalar

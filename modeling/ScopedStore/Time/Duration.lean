import ScopedStore.Decimal.Digits

/-!
Lengths of time and their text, decimal seconds followed by `s`.
-/

namespace ScopedStore

def nanosPerSecond : Nat := 1000000000

structure Duration where
  seconds : UInt64
  nanos : Nat := 0
  nanos_lt : nanos < nanosPerSecond := by decide
  deriving DecidableEq

namespace Duration

def ofSeconds (seconds : UInt64) : Duration := { seconds := seconds }

/-- The shortest text of a length of time. -/
def chars (d : Duration) : List Char :=
  let fraction := if d.nanos = 0 then [] else '.' :: Decimal.fractionDigits 9 d.nanos
  Decimal.digits d.seconds.toNat ++ fraction ++ ['s']

def text (d : Duration) : String := String.ofList d.chars

/-- The whole digits and the places behind the first point. -/
def splitPoint (cs : List Char) : List Char × List Char :=
  (cs.takeWhile (· != '.'), (cs.dropWhile (· != '.')).drop 1)

def ofDigits? (whole fraction : List Char) : Option Duration :=
  let seconds := Decimal.value whole
  let nanos := Decimal.fractionValue 9 fraction
  if whole ≠ [] ∧ Decimal.areDigits whole ∧ Decimal.areDigits fraction ∧ fraction.length ≤ 9 then
    if h : seconds < UInt64.size ∧ nanos < nanosPerSecond then
      some { seconds := UInt64.ofNat seconds, nanos := nanos, nanos_lt := h.2 }
    else none
  else none

/-- Reads a length of time: digits, at most nine places behind a point, and the letter `s`. -/
def ofChars? (cs : List Char) : Option Duration :=
  if cs.getLast? = some 's' then
    let (whole, fraction) := splitPoint cs.dropLast
    ofDigits? whole fraction
  else none

def parse? (text : String) : Option Duration := ofChars? text.toList

end Duration

end ScopedStore

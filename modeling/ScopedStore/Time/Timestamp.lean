import ScopedStore.Decimal.Digits
import ScopedStore.Time.Calendar
import ScopedStore.Time.Duration

/-!
Points in time with the offset of their place, and their RFC 3339 text.
-/

namespace ScopedStore

/-- A local date and time with its offset from universal time in minutes. -/
structure Timestamp where
  year : Nat
  month : Nat
  day : Nat
  hour : Nat
  minute : Nat
  second : Nat
  nanos : Nat
  offset : Int
  year_lt : year < 10000
  month_mem : 1 ≤ month ∧ month ≤ 12
  day_mem : 1 ≤ day ∧ day ≤ Calendar.daysInMonth year month
  hour_lt : hour < 24
  minute_lt : minute < 60
  second_lt : second < 60
  nanos_lt : nanos < 1000000000
  offset_mem : -1440 < offset ∧ offset < 1440
  deriving DecidableEq

namespace Timestamp

/-- Minutes from 1970 in universal time. -/
def universalMinutes (t : Timestamp) : Int :=
  Calendar.dayNumber t.year t.month t.day * 1440 + t.hour * 60 + t.minute - t.offset

/-- Seconds from 1970, rounded down. -/
def unixSeconds (t : Timestamp) : Int := t.universalMinutes * 60 + t.second

/-- Nanoseconds from 1970. -/
def unixNanos (t : Timestamp) : Int := t.unixSeconds * nanosPerSecond + t.nanos

/-- Whether a leap second can stand in this minute: the last minute of a month in universal
time. -/
def isMonthEnd (t : Timestamp) : Bool :=
  t.universalMinutes % 1440 = 1439 &&
    Calendar.isMonthEnd t.year (t.universalMinutes / 1440)

def offsetChars (offset : Int) : List Char :=
  if offset = 0 then ['Z']
  else
    (if offset < 0 then '-' else '+') ::
      Decimal.padded 2 (offset.natAbs / 60) ++ ':' :: Decimal.padded 2 (offset.natAbs % 60)

def chars (t : Timestamp) : List Char :=
  let fraction := if t.nanos = 0 then [] else '.' :: Decimal.fractionDigits 9 t.nanos
  Decimal.padded 4 t.year ++ '-' :: Decimal.padded 2 t.month ++ '-' :: Decimal.padded 2 t.day ++
    'T' :: Decimal.padded 2 t.hour ++ ':' :: Decimal.padded 2 t.minute ++
    ':' :: Decimal.padded 2 t.second ++ fraction ++ offsetChars t.offset

def text (t : Timestamp) : String := String.ofList t.chars

/-- Reads one given character. -/
def expect (c : Char) : List Char → Option (List Char)
  | [] => none
  | d :: rest => if d = c then some rest else none

/-- Reads any one ASCII character. -/
def skipOne : List Char → Option (List Char)
  | [] => none
  | c :: rest => if c.toNat < 128 then some rest else none

/-- The nanoseconds and what follows them; places beyond the ninth are cut off. -/
def readFraction : List Char → Option (Nat × List Char)
  | '.' :: rest =>
    let places := rest.takeWhile Char.isDigit
    if places = [] then none
    else some (Decimal.fractionValue 9 places, rest.dropWhile Char.isDigit)
  | rest => some (0, rest)

/-- The offset that ends a text. -/
def readOffset : List Char → Option Int
  | ['z'] | ['Z'] => some 0
  | sign :: rest => do
    let (hours, rest) ← Decimal.takePadded 2 rest
    let (minutes, rest) ← Decimal.takePadded 2 (← expect ':' rest)
    if rest ≠ [] ∨ 23 < hours ∨ 59 < minutes then none
    else if sign = '+' then some (hours * 60 + minutes : Nat)
    else if sign = '-' then some (-(hours * 60 + minutes : Nat))
    else none
  | [] => none

/-- The local time with these fields, if there is one. A leap second stands for the last
nanosecond before it. -/
def ofFields? (year month day hour minute second nanos : Nat) (offset : Int) : Option Timestamp :=
  let isLeap := second = 60
  let second := if isLeap then 59 else second
  let nanos := if isLeap then nanosPerSecond - 1 else nanos
  if h : year < 10000 ∧ (1 ≤ month ∧ month ≤ 12) ∧
      (1 ≤ day ∧ day ≤ Calendar.daysInMonth year month) ∧ hour < 24 ∧ minute < 60 ∧
      second < 60 ∧ nanos < nanosPerSecond ∧ (-1440 < offset ∧ offset < 1440) then
    let t : Timestamp :=
      { year, month, day, hour, minute, second, nanos, offset
        year_lt := h.1
        month_mem := h.2.1
        day_mem := h.2.2.1
        hour_lt := h.2.2.2.1
        minute_lt := h.2.2.2.2.1
        second_lt := h.2.2.2.2.2.1
        nanos_lt := h.2.2.2.2.2.2.1
        offset_mem := h.2.2.2.2.2.2.2 }
    if isLeap ∧ !t.isMonthEnd then none else some t
  else none

def ofChars? (cs : List Char) : Option Timestamp := do
  let (year, cs) ← Decimal.takePadded 4 cs
  let (month, cs) ← Decimal.takePadded 2 (← expect '-' cs)
  let (day, cs) ← Decimal.takePadded 2 (← expect '-' cs)
  let (hour, cs) ← Decimal.takePadded 2 (← skipOne cs)
  let (minute, cs) ← Decimal.takePadded 2 (← expect ':' cs)
  let (second, cs) ← Decimal.takePadded 2 (← expect ':' cs)
  let (nanos, cs) ← readFraction cs
  ofFields? year month day hour minute second nanos (← readOffset cs)

def parse? (text : String) : Option Timestamp := ofChars? text.toList

end Timestamp

end ScopedStore

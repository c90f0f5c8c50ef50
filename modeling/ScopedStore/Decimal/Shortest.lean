/-!
The shortest decimal that reads back as a given binary fraction. The reals that round to
`m · 2 ^ q` form an interval; the result is a point of the coarsest decimal grid that has one in
it, the nearest where there are two.
-/

namespace ScopedStore.Decimal

/-- The decimal `digits · 10 ^ exponent`. -/
structure Scientific where
  digits : Nat
  exponent : Int
  deriving DecidableEq

/-- Drops trailing zeros of the digits, at most `fuel` of them. -/
private def trimZeros : Nat → Scientific → Scientific
  | 0, d => d
  | fuel + 1, d =>
    if d.digits ≠ 0 ∧ d.digits % 10 = 0 then trimZeros fuel ⟨d.digits / 10, d.exponent + 1⟩ else d

/-- Counts the tenfold steps that take `num / den` to one or above, at most `fuel` of them. -/
private def stepsToOne : Nat → Nat → Nat → Nat
  | 0, _, _ => 0
  | fuel + 1, num, den => if den ≤ num then 0 else stepsToOne fuel (num * 10) den + 1

/-- The decimal exponent just above the leading digit of `num / den`. -/
def decade (num den : Nat) : Int :=
  if den ≤ num then (Nat.toDigits 10 (num / den)).length
  else 1 - (stepsToOne 400 num den : Int)

/-- The reals that round to `num / den`: those from `low / den` to `high / den`, the ends
included or not. -/
structure Interval where
  low : Nat
  num : Nat
  high : Nat
  den : Nat
  hasEnds : Bool

namespace Interval

/-- The interval around `m · 2 ^ q`; its lower half is half as wide where `m` is the least
significand of its exponent. -/
def around (m : Nat) (q : Int) (isLeast : Bool) : Interval :=
  let up := 1 <<< (q - 2).toNat
  { low := (4 * m - if isLeast then 1 else 2) * up
    num := 4 * m * up
    high := (4 * m + 2) * up
    den := 1 <<< (2 - q).toNat
    hasEnds := m % 2 = 0 }

/-- Whether `digits · 10 ^ exponent` is in the interval. -/
def contains (range : Interval) (d : Scientific) : Bool :=
  let point := d.digits * Nat.pow 10 d.exponent.toNat * range.den
  let scale := Nat.pow 10 (-d.exponent).toNat
  if range.hasEnds then range.low * scale ≤ point ∧ point ≤ range.high * scale
  else range.low * scale < point ∧ point < range.high * scale

/-- The point of the grid `10 ^ exponent` that is in the interval, the nearer of two, and of two
equally near the even one. -/
def hit? (range : Interval) (exponent : Int) : Option Scientific :=
  let num := range.num * Nat.pow 10 (-exponent).toNat
  let den := range.den * Nat.pow 10 exponent.toNat
  let below : Scientific := ⟨num / den, exponent⟩
  let above : Scientific := ⟨num / den + 1, exponent⟩
  match range.contains below, range.contains above with
  | true, false => some below
  | false, true => some above
  | false, false => none
  | true, true =>
    let rest := num % den
    if 2 * rest < den ∨ (2 * rest = den ∧ below.digits % 2 = 0) then some below else some above

/-- The hit of the coarsest grid with at most seventeen digits. -/
def shortest (range : Interval) : Scientific :=
  let top := decade range.num range.den
  let hit := (List.range 17).findSome? fun (n : Nat) => range.hit? (top - 1 - (n : Int))
  trimZeros 20 (hit.getD ⟨range.num / range.den, 0⟩)

end Interval

/-- The shortest decimal that reads back as a positive finite number. -/
def shortest (x : Float) : Scientific :=
  let bits := x.toBits.toNat
  let exponent : Nat := (bits >>> 52) % 2048
  let fraction : Nat := bits % (1 <<< 52)
  let range :=
    if exponent = 0 then Interval.around fraction (-1074) false
    else
      Interval.around ((1 <<< 52) + fraction) ((exponent : Int) - 1075)
        (fraction = 0 && exponent ≠ 1)
  range.shortest

end ScopedStore.Decimal

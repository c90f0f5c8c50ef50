/-!
Lifetimes and absolute expiries. Expiries are signed 64-bit seconds, lifetimes unsigned 32-bit
seconds; both conversions clamp at the end of the narrower range.
-/

namespace ScopedStore.Expiry

/-- The last second that a stored expiry can name. -/
def lastSecond : Int := 0x7fffffffffffffff

/-- The longest lifetime that can be reported. -/
def longest : Nat := 0xffffffff

/-- The expiry of a value written at `now`; a lifetime of zero never expires. -/
def ofTtl (ttl : UInt32) (now : Int) : Option Int :=
  if ttl = 0 then none else some (min (now + ttl.toNat) lastSecond)

/-- The lifetime left at `now`, `none` once the expiry is reached. A value without an expiry
reports zero. -/
def remaining (expiresAt : Option Int) (now : Int) : Option UInt32 :=
  match expiresAt with
  | none => some 0
  | some at_ =>
    if at_ ≤ now then none else some (UInt32.ofNat (min (at_ - now).toNat longest))

/-- A row is expired once its expiry is at or before `now`. -/
def isExpired (expiresAt : Option Int) (now : Int) : Bool :=
  match expiresAt with
  | none => false
  | some at_ => decide (at_ ≤ now)

theorem remaining_eq_none_iff {expiresAt : Option Int} {now : Int} :
    remaining expiresAt now = none ↔ isExpired expiresAt now = true := by
  cases expiresAt with
  | none => simp [remaining, isExpired]
  | some at_ => by_cases h : at_ ≤ now <;> simp [remaining, isExpired, h]

end ScopedStore.Expiry

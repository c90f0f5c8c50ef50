/-!
The wall clock, read in whole seconds since 1970.
-/

namespace ScopedStore

/-- An instant, `seconds` rounded down and `nanos` below a thousand million. -/
structure Clock where
  seconds : Int
  nanos : Nat
  deriving DecidableEq

namespace Clock

/-- Whole seconds since 1970; a clock before 1970 reads zero. -/
def unixSeconds (clock : Clock) : Int := max clock.seconds 0

theorem unixSeconds_nonneg (clock : Clock) : 0 ≤ clock.unixSeconds :=
  Int.le_max_right _ _

def advance (clock : Clock) (seconds : Int) : Clock :=
  { clock with seconds := clock.seconds + seconds }

/-- Moves the clock to the start of a second. -/
def atSecond (seconds : Int) : Clock := ⟨seconds, 0⟩

end Clock

end ScopedStore

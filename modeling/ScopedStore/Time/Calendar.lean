/-!
The Gregorian calendar, extended to all years: months and days as day numbers from 1970.
-/

namespace ScopedStore.Calendar

def isLeap (year : Int) : Bool := year % 4 = 0 && (year % 100 != 0 || year % 400 = 0)

def daysInMonth (year : Int) (month : Nat) : Nat :=
  match month with
  | 2 => if isLeap year then 29 else 28
  | 4 | 6 | 9 | 11 => 30
  | _ => 31

/-- Days of the year before the given month. -/
def daysBeforeMonth (year : Int) (month : Nat) : Nat :=
  (List.range (month - 1)).foldl (fun days earlier => days + daysInMonth year (earlier + 1)) 0

/-- Days from the first day of year 0 to the first day of a year. -/
def daysBeforeYear (year : Int) : Int :=
  let last := year - 1
  365 * year + (last / 4 - last / 100 + last / 400) + 1

/-- The number of a day, counted from the first of January 1970. -/
def dayNumber (year : Int) (month day : Nat) : Int :=
  daysBeforeYear year - daysBeforeYear 1970 + daysBeforeMonth year month + day - 1

/-- Whether a day number is the last of its month. The month that ends with a day is the one whose
following first has the next number; `year` is near the day. -/
def isMonthEnd (year number : Int) : Bool :=
  [year - 1, year, year + 1].any fun y =>
    (List.range 12).any fun m => dayNumber y (m + 1) 1 = number + 1

end ScopedStore.Calendar

/-!
The Gregorian calendar, extended in both directions: days are counted from 1 January 1970. The
year is taken to begin in March, so that the leap day is its last day and the months before it
have lengths that repeat every five months; 400 years are 146097 days.
-/

namespace Docroot

structure Date where
  year : Int
  month : Nat
  day : Nat
deriving DecidableEq, Repr

namespace Date

/-- The days from 1 March of the year 0 to 1 January 1970. -/
def epochShift : Int := 719468

/-- The years that are over when `n` days of a cycle of 400 years have passed. -/
def yearOfCycle (n : Int) : Int := (n - n / 1460 + n / 36524 - n / 146096) / 365

/-- The days of the first `y` years of a cycle. -/
def daysOfYears (y : Int) : Int := 365 * y + y / 4 - y / 100

def ofDays (days : Int) : Date :=
  let n := days + epochShift
  let cycle := n / 146097
  let y := yearOfCycle (n % 146097)
  let dayOfYear := n % 146097 - daysOfYears y
  let m := (5 * dayOfYear + 2) / 153
  { year := 400 * cycle + y + (if m < 10 then 0 else 1)
    month := (if m < 10 then m + 3 else m - 9).toNat
    day := (dayOfYear - (153 * m + 2) / 5 + 1).toNat }

/-- The day of a date. A day past the end of its month counts on into the next one. -/
def toDays (d : Date) : Int :=
  let y := d.year - (if d.month ≤ 2 then 1 else 0)
  let m : Int := if d.month ≤ 2 then d.month + 9 else d.month - 3
  146097 * (y / 400) + daysOfYears (y % 400) + (153 * m + 2) / 5 + d.day - 1 - epochShift

/-- The day of the week, 0 for Sunday. -/
def weekday (days : Int) : Nat := ((days + 4) % 7).toNat

end Date

end Docroot

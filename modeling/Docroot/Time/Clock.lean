import Docroot.Time.Timestamp

/-!
Readings of a clock that shows local time. In a leap second the clock shows the sixtieth second of
its minute: the second before is shown as it was, and its nanoseconds go on beyond the thousand
millions.
-/

namespace Docroot

structure Clock where
  /-- Seconds since the beginning of 1970, leap seconds not counted. -/
  seconds : Int
  nanos : Nat := 0
  /-- How many seconds local time is ahead of UTC. -/
  offset : Int := 0
deriving DecidableEq, Repr

namespace Clock

/-- The point in time at which a clock in UTC shows what this one does. -/
def start (c : Clock) : Timestamp := Timestamp.ofSeconds (c.seconds + c.offset)

def date (c : Clock) : Date := c.start.date

/-- The second of its minute, 60 in a leap second. -/
def second (c : Clock) : Nat := c.start.second + c.nanos / 1000000000

/-- The nanoseconds since that second began. -/
def subsecond (c : Clock) : Nat := c.nanos % 1000000000

end Clock

end Docroot

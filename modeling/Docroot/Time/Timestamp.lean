import Docroot.Time.Calendar

/-!
Points in time, in nanoseconds from the beginning of 1970 UTC, and the date and time of day that
a point shows.
-/

namespace Docroot

structure Timestamp where
  nanos : Int
deriving DecidableEq, Repr

namespace Timestamp

def seconds (t : Timestamp) : Int := t.nanos / 1000000000

/-- The nanoseconds since that second began. -/
def subsecond (t : Timestamp) : Nat := (t.nanos % 1000000000).toNat

/-- Whole seconds since 1970; a point before that counts as 1970. -/
def epochSeconds (t : Timestamp) : Nat := t.seconds.toNat

/-- Whole milliseconds since 1970; a point before that counts as 1970. -/
def epochMillis (t : Timestamp) : Nat := (t.nanos / 1000000).toNat

def ofSeconds (s : Int) : Timestamp := ⟨s * 1000000000⟩

def dayNumber (t : Timestamp) : Int := t.seconds / 86400

def date (t : Timestamp) : Date := Date.ofDays t.dayNumber

def secondOfDay (t : Timestamp) : Nat := (t.seconds % 86400).toNat

def hour (t : Timestamp) : Nat := t.secondOfDay / 3600

def minute (t : Timestamp) : Nat := t.secondOfDay / 60 % 60

def second (t : Timestamp) : Nat := t.secondOfDay % 60

@[simp] theorem seconds_ofSeconds (s : Int) : (ofSeconds s).seconds = s := by
  simp [ofSeconds, seconds]

end Timestamp

end Docroot

import Docroot.Time.Timestamp
import Docroot.Text.Blank
import Docroot.Text.Numeral

/-!
Dates in header fields. One form is written, `Sun, 06 Nov 1994 08:49:37 GMT`; three are read. A
date that is read must exist: its weekday must be the one that the calendar gives.
-/

namespace Docroot.HttpDate

def dayNames : List Text :=
  ["Sun".toList, "Mon".toList, "Tue".toList, "Wed".toList, "Thu".toList, "Fri".toList,
    "Sat".toList]

def longDayNames : List Text :=
  ["Sunday".toList, "Monday".toList, "Tuesday".toList, "Wednesday".toList, "Thursday".toList,
    "Friday".toList, "Saturday".toList]

def monthNames : List Text :=
  ["Jan".toList, "Feb".toList, "Mar".toList, "Apr".toList, "May".toList, "Jun".toList,
    "Jul".toList, "Aug".toList, "Sep".toList, "Oct".toList, "Nov".toList, "Dec".toList]

def dayName (weekday : Nat) : Text := dayNames.getD weekday []

/-- The name of a month, 1 for January. -/
def monthName (month : Nat) : Text := monthNames.getD (month - 1) []

/-- The first second of the year 10000, which the written form has no room for. -/
def endOfYears : Nat := 253402300800

/-- `08:49:37` -/
def timeOfDay (t : Timestamp) : Text :=
  Text.padded 2 t.hour ++ ':' :: (Text.padded 2 t.minute ++ ':' :: Text.padded 2 t.second)

/-- The written form of a point of the years 1970 to 9999, to the second. -/
def format? (t : Timestamp) : Option Text :=
  if t.nanos < 0 ∨ endOfYears ≤ t.epochSeconds then none
  else some <|
    dayName (Date.weekday t.dayNumber) ++ ", ".toList ++
    Text.padded 2 t.date.day ++ ' ' :: (monthName t.date.month ++ ' ' ::
    (Text.padded 4 t.date.year.toNat ++ ' ' :: (timeOfDay t ++ " GMT".toList)))

/-- The parts of a date as they are written. -/
structure Written where
  weekday : Nat
  year : Nat
  month : Nat
  day : Nat
  hour : Nat
  minute : Nat
  second : Nat
deriving DecidableEq

/-- The second since 1970 that the parts give. -/
def Written.seconds (w : Written) : Int :=
  Date.toDays ⟨w.year, w.month, w.day⟩ * 86400 + (3600 * w.hour + 60 * w.minute + w.second : Nat)

/-- The parts are in range and are those of the second that they give. -/
def Written.exists (w : Written) : Bool :=
  let t := Timestamp.ofSeconds w.seconds
  decide (w.second < 60) && decide (w.minute < 60) && decide (w.hour < 24) &&
  decide (1970 ≤ w.year) && decide (w.year ≤ 9999) &&
  decide (t.date = ⟨w.year, w.month, w.day⟩) && Date.weekday t.dayNumber == w.weekday

/-- Reads one of some names; the answer is its place in the list. -/
def name? : List Text → Text → Option (Nat × Text)
  | [], _ => none
  | n :: ns, s =>
    match Text.after? n s with
    | some r => some (0, r)
    | none => (name? ns s).map fun p => (p.1 + 1, p.2)

/-- Reads a numeral of exactly `width` digits. -/
def number? (width : Nat) (s : Text) : Option (Nat × Text) :=
  if width ≤ s.length then (Text.digits? (s.take width)).map fun n => (n, s.drop width) else none

/-- Reads `08:49:37`. -/
def timeOfDay? (s : Text) : Option ((Nat × Nat × Nat) × Text) := do
  let (hour, s) ← number? 2 s
  let s ← Text.after? [':'] s
  let (minute, s) ← number? 2 s
  let s ← Text.after? [':'] s
  let (second, s) ← number? 2 s
  pure ((hour, minute, second), s)

/-- `Sun, 06 Nov 1994 08:49:37 GMT` -/
def fixed? (s : Text) : Option Written := do
  let (weekday, s) ← name? dayNames s
  let s ← Text.after? ", ".toList s
  let (day, s) ← number? 2 s
  let s ← Text.after? [' '] s
  let (month, s) ← name? monthNames s
  let s ← Text.after? [' '] s
  let (year, s) ← number? 4 s
  let s ← Text.after? [' '] s
  let ((hour, minute, second), s) ← timeOfDay? s
  if s = " GMT".toList then some ⟨weekday, year, month + 1, day, hour, minute, second⟩ else none

/-- `Sunday, 06-Nov-94 08:49:37 GMT`: the years run from 1970 to 2069, and any character may
stand between the date and the time. -/
def twoDigitYear? (s : Text) : Option Written := do
  let (weekday, s) ← name? longDayNames s
  let s ← Text.after? ", ".toList s
  let (day, s) ← number? 2 s
  let s ← Text.after? ['-'] s
  let (month, s) ← name? monthNames s
  let s ← Text.after? ['-'] s
  let (year, s) ← number? 2 s
  let ((hour, minute, second), s) ← timeOfDay? (s.drop 1)
  let year := if year < 70 then year + 2000 else year + 1900
  if s = " GMT".toList then some ⟨weekday, year, month + 1, day, hour, minute, second⟩ else none

/-- The day of a month in two places, a blank or a zero before a single digit. -/
def dayOfMonth? : Text → Option (Nat × Text)
  | ' ' :: s => number? 1 s
  | s => number? 2 s

/-- `Sun Nov  6 08:49:37 1994` -/
def yearLast? (s : Text) : Option Written := do
  let (weekday, s) ← name? dayNames s
  let s ← Text.after? [' '] s
  let (month, s) ← name? monthNames s
  let s ← Text.after? [' '] s
  let (day, s) ← dayOfMonth? s
  let s ← Text.after? [' '] s
  let ((hour, minute, second), s) ← timeOfDay? s
  let s ← Text.after? [' '] s
  let (year, s) ← number? 4 s
  if s = [] then some ⟨weekday, year, month + 1, day, hour, minute, second⟩ else none

def isAscii (s : Text) : Bool := s.all fun c => c.toNat < 128

/-- The point that a date in one of the three forms gives, blanks around it aside. -/
def parse? (s : Text) : Option Timestamp :=
  let s := Text.trim s
  if isAscii s then
    (((fixed? s).or (twoDigitYear? s)).or (yearLast? s)).bind fun w =>
      if w.exists then some (Timestamp.ofSeconds w.seconds) else none
  else none

end Docroot.HttpDate

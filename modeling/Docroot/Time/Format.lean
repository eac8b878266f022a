import Docroot.Time.Clock
import Docroot.Time.HttpDate

/-!
How a point in time is written in listings, in UTC, and the reading of a clock in logs. There are
dates for the years -262143 to 262142 alone.
-/

namespace Docroot.Timestamp

/-- A year in four digits; one outside 0 to 9999 has a sign. -/
def yearText (y : Int) : Text :=
  if 0 ≤ y ∧ y ≤ 9999 then Text.padded 4 y.toNat
  else (if y < 0 then '-' else '+') :: Text.padded 4 y.natAbs

/-- `1994-11-06` -/
def dateForm (d : Date) : Text :=
  yearText d.year ++ '-' :: (Text.padded 2 d.month ++ '-' :: Text.padded 2 d.day)

/-- The fraction of a second: nothing for none, else 3, 6 or 9 digits, the fewest that do. -/
def fraction (n : Nat) : Text :=
  if n = 0 then []
  else if n % 1000000 = 0 then '.' :: Text.padded 3 (n / 1000000)
  else if n % 1000 = 0 then '.' :: Text.padded 6 (n / 1000)
  else '.' :: Text.padded 9 n

/-- There is a date for the point. -/
def OnCalendar (t : Timestamp) : Prop := -262143 ≤ t.date.year ∧ t.date.year ≤ 262142

instance (t : Timestamp) : Decidable t.OnCalendar :=
  inferInstanceAs (Decidable (-262143 ≤ t.date.year ∧ t.date.year ≤ 262142))

/-- `1994-11-06 08:49` -/
def minuteForm (t : Timestamp) : Text :=
  dateForm t.date ++ ' ' :: (Text.padded 2 t.hour ++ ':' :: Text.padded 2 t.minute)

def minuteForm? (t : Timestamp) : Option Text := if t.OnCalendar then some t.minuteForm else none

end Docroot.Timestamp

namespace Docroot.Clock

/-- `08:49:37` -/
def timeOfDay (c : Clock) : Text :=
  Text.padded 2 c.start.hour ++ ':' :: (Text.padded 2 c.start.minute ++ ':' ::
  Text.padded 2 c.second)

/-- `+0000`, with what separates hours and minutes. An offset is rounded to minutes. -/
def offsetForm (separator : Text) (c : Clock) : Text :=
  let minutes := (c.offset.natAbs + 30) / 60
  (if c.offset < 0 then '-' else '+') :: (Text.padded 2 (minutes / 60) ++ separator ++
    Text.padded 2 (minutes % 60))

/-- `06/Nov/1994:08:49:37 +0000` -/
def logForm (c : Clock) : Text :=
  Text.padded 2 c.date.day ++ '/' :: (HttpDate.monthName c.date.month ++ '/' ::
  (Timestamp.yearText c.date.year ++ ':' :: (c.timeOfDay ++ ' ' :: c.offsetForm [])))

/-- `1994-11-06T08:49:37.500+00:00` -/
def isoForm (c : Clock) : Text :=
  Timestamp.dateForm c.date ++ 'T' :: (c.timeOfDay ++ Timestamp.fraction c.subsecond ++
    c.offsetForm [':'])

end Docroot.Clock

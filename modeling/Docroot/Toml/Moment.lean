import Docroot.Settings.Value
import Docroot.Text.Numeral
import Docroot.Toml.Space

/-!
Dates and times of a TOML document. They are kept as the text that names them in the one regular
form: a `T` before the time, no more than nine places of a second and no zeros at their end.

While a document is read a date-time is a table whose first member has a name kept for this and
names the date-time. A table that is written so in the document is a date-time as well.
-/

namespace Docroot.Toml

open Settings (Value)

/-- Reads a number of exactly `count` digits within bounds, and keeps its digits. -/
def field? (count low high : Nat) (s : Text) : Option (Text × Text) :=
  let ds := s.take count
  let n := Text.digitsValue ds
  if ds.length = count ∧ ds.all Char.isDigit ∧ low ≤ n ∧ n ≤ high then some (ds, s.drop count)
  else none

def isLeapYear (y : Nat) : Bool := y % 4 == 0 && (y % 100 != 0 || y % 400 == 0)

def daysIn (year month : Nat) : Nat :=
  if month = 2 then (if isLeapYear year then 29 else 28)
  else if month = 4 ∨ month = 6 ∨ month = 9 ∨ month = 11 then 30
  else 31

/-- Reads `1979-05-27`. -/
def date? (s : Text) : Option (Text × Text) := do
  let (year, r) ← field? 4 0 9999 s
  let r ← Text.after? ['-'] r
  let (month, r) ← field? 2 1 12 r
  let r ← Text.after? ['-'] r
  let (day, r) ← field? 2 1 (daysIn (Text.digitsValue year) (Text.digitsValue month)) r
  pure (year ++ '-' :: (month ++ '-' :: day), r)

/-- Reads the places of a second, if there are any. -/
def fraction? : Text → Option (Text × Text)
  | '.' :: r =>
    let ds := r.takeWhile Char.isDigit
    let kept := Text.dropEndWhile (· == '0') (ds.take 9)
    if ds.isEmpty then none
    else some (if kept.isEmpty then [] else '.' :: kept, r.dropWhile Char.isDigit)
  | r => some ([], r)

/-- Reads `07:32:00.5`. -/
def time? (s : Text) : Option (Text × Text) := do
  let (hour, r) ← field? 2 0 23 s
  let r ← Text.after? [':'] r
  let (minute, r) ← field? 2 0 59 r
  let r ← Text.after? [':'] r
  let (second, r) ← field? 2 0 60 r
  let (fraction, r) ← fraction? r
  pure (hour ++ ':' :: (minute ++ ':' :: (second ++ fraction)), r)

/-- Reads the difference to universal time, if there is one. No difference has a plus sign. -/
def offset? : Text → Option (Text × Text)
  | c :: r =>
    if c = 'Z' ∨ c = 'z' then some (['Z'], r)
    else if c = '+' ∨ c = '-' then do
      let (hour, r) ← field? 2 0 23 r
      let r ← Text.after? [':'] r
      let (minute, r) ← field? 2 0 59 r
      let isZero := Text.digitsValue hour = 0 ∧ Text.digitsValue minute = 0
      pure ((if isZero then '+' else c) :: (hour ++ ':' :: minute), r)
    else some ([], c :: r)
  | [] => some ([], [])

def hasTime : Text → Bool
  | c :: r => (c == 'T' || c == 't' || c == ' ') &&
      ((field? 2 0 23 r).bind fun x => Text.after? [':'] x.2).isSome
  | [] => false

/-- Reads a date, with a time or without one. -/
def dateTime? (s : Text) : Option (Text × Text) := do
  let (date, r) ← date? s
  if hasTime r then
    let (time, r) ← time? (r.drop 1)
    let (offset, r) ← offset? r
    pure (date ++ 'T' :: (time ++ offset), r)
  else pure (date, r)

def startsDate (s : Text) : Bool := ((field? 4 0 9999 s).bind fun x => Text.after? ['-'] x.2).isSome

def startsTime (s : Text) : Bool := ((field? 2 0 23 s).bind fun x => Text.after? [':'] x.2).isSome

/-- The regular form of the date, the time or the two of them that a text names. -/
def moment? (s : Text) : Option Text := do
  let (t, r) ← if startsTime s then time? s else dateTime? s
  if r.isEmpty then some t else none

/-- The name of the member that makes a date-time of a table. -/
def momentName : Text := "$__toml_private_datetime".toList

/-- The table that a date-time is while its document is read. -/
def momentTable (t : Text) : Value := .table [(momentName, .text t)]

mutual

/-- The value with the texts of date-times in place of the tables. It is an error if the member
that makes a date-time of a table names none; what further members the table has does not matter. -/
def resolve? : Value → Option Value
  | .table [] => some (.table [])
  | .table ((name, v) :: ms) =>
    if name = momentName then
      match v with
      | .text t => (moment? t).map .text
      | _ => none
    else do
      let v ← resolve? v
      let ms ← resolveMembers? ms
      pure (.table ((name, v) :: ms))
  | .array vs => (resolveElements? vs).map .array
  | v => some v

def resolveMembers? : List (Text × Value) → Option (List (Text × Value))
  | [] => some []
  | (name, v) :: ms => do
    let v ← resolve? v
    let ms ← resolveMembers? ms
    pure ((name, v) :: ms)

def resolveElements? : List Value → Option (List Value)
  | [] => some []
  | v :: vs => do
    let v ← resolve? v
    let vs ← resolveElements? vs
    pure (v :: vs)

end

end Docroot.Toml

import Docroot.Text.Blank
import Docroot.Text.Split
import Docroot.Text.Numeral

/-!
Lists whose elements carry a quality between 0 and 1, such as `gzip;q=0.5, br`. Qualities are
kept in thousandths.
-/

namespace Docroot.Quality

/-- The pieces between the commas that are not inside quotes. -/
def pieces : Bool → Text → List Text
  | _, [] => [[]]
  | inQuotes, c :: r =>
    if c = ',' ∧ inQuotes = false then [] :: pieces inQuotes r
    else match pieces (if c = '"' then !inQuotes else inQuotes) r with
      | [] => [[c]]
      | p :: ps => (c :: p) :: ps

def elements (value : Text) : List Text :=
  ((pieces false value).map Text.trim).filter fun s => !s.isEmpty

structure Item where
  token : Text
  quality : Nat
deriving DecidableEq, Repr

/-- The thousandths that up to three digits after the point stand for. -/
def thousandths? (fraction : Text) : Option Nat :=
  if fraction.length ≤ 3 ∧ fraction.all Char.isDigit = true then
    some (Text.digitsValue (fraction ++ List.replicate (3 - fraction.length) '0'))
  else none

/-- A quality: 0 or 1, with up to three digits after a point, and at most 1. -/
def weight? (s : Text) : Option Nat :=
  let (whole, fraction) := (Text.cutAt '.' s).getD (s, [])
  (thousandths? fraction).bind fun n =>
    if whole = ['0'] then some n
    else if whole = ['1'] ∧ n = 0 then some 1000
    else none

/-- The quality after a parameter: `q` sets it, to 0 when it is malformed. -/
def applyParameter (quality : Nat) (parameter : Text) : Nat :=
  match Text.cutAt '=' parameter with
  | some (name, value) =>
    if Text.sameLetters (Text.trim name) ['q'] then (weight? (Text.trim value)).getD 0 else quality
  | none => quality

/-- One element; an element without a token says nothing. -/
def item? (element : Text) : Option Item :=
  match Text.splitOn ';' element with
  | [] => none
  | first :: parameters =>
    let token := Text.lower (Text.strip (· == '"') (Text.trim first))
    if token.isEmpty then none else some ⟨token, parameters.foldl applyParameter 1000⟩

def parse (value : Text) : List Item := (elements value).filterMap item?

end Docroot.Quality

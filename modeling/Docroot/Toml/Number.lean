import Docroot.Double.Basic
import Docroot.Settings.Value
import Docroot.Text.Numeral

/-!
Numbers of a TOML document. Digits may be parted by single underscores; a whole number has no
leading zeros and fits into 64 bits with its sign.
-/

namespace Docroot.Toml

open Settings (Value)

/-- Reads digits, with an underscore between two of them allowed. -/
def digits (isDigit : Char → Bool) : Text → Text × Text
  | '_' :: d :: r =>
    if isDigit d then
      let x := digits isDigit r
      (d :: x.1, x.2)
    else ([], '_' :: d :: r)
  | c :: r =>
    if isDigit c then
      let x := digits isDigit r
      (c :: x.1, x.2)
    else ([], c :: r)
  | [] => ([], [])

/-- Reads digits of which there is at least one; the first is no underscore. -/
def digits? (isDigit : Char → Bool) : Text → Option (Text × Text)
  | c :: r => if isDigit c then some (digits isDigit (c :: r)) else none
  | [] => none

def valueIn (base : Nat) (ds : Text) : Nat :=
  ds.foldl (fun n c => base * n + (Text.hexDigit? c).getD 0) 0

/-- The bounds of a whole number. -/
def integer? (i : Int) : Option Value :=
  if -9223372036854775808 ≤ i ∧ i ≤ 9223372036854775807 then some (.integer i) else none

def based? (base : Nat) (isDigit : Char → Bool) (s : Text) : Option (Value × Text) := do
  let (ds, r) ← digits? isDigit s
  let v ← integer? (valueIn base ds)
  pure (v, r)

def isOctal (c : Char) : Bool := '0' ≤ c && c ≤ '7'

def isBinary (c : Char) : Bool := c == '0' || c == '1'

def sign : Text → Bool × Text
  | '-' :: r => (true, r)
  | '+' :: r => (false, r)
  | r => (false, r)

/-- Reads the digits before a point; a zero stands alone. -/
def wholeDigits? : Text → Option (Text × Text)
  | '0' :: r => some (['0'], r)
  | s => digits? Char.isDigit s

def power? : Text → Option (Int × Text)
  | c :: r =>
    if c = 'e' ∨ c = 'E' then do
      let (negative, r) := sign r
      let (ds, r) ← digits? Char.isDigit r
      let n := Text.digitsValue ds
      pure (if negative then -(n : Int) else n, r)
    else some (0, c :: r)
  | [] => some (0, [])

def whole? (negative : Bool) (ds : Text) : Option Value :=
  let n : Int := Text.digitsValue ds
  integer? (if negative then -n else n)

/-- A number of double precision; too great a one is refused. -/
def float? (negative : Bool) (ds : Text) (power : Int) : Option Value :=
  match Double.ofDecimal negative (Text.digitsValue ds) power with
  | .infinite false => none
  | x => some (.float x)

/-- Reads what follows the digits before the point. -/
def decimal? (negative : Bool) (whole : Text) : Text → Option (Value × Text)
  | '.' :: r => do
    let (part, r) ← digits? Char.isDigit r
    let (power, r) ← power? r
    let v ← float? negative (whole ++ part) (power - part.length)
    pure (v, r)
  | c :: r =>
    if c = 'e' ∨ c = 'E' then do
      let (power, r) ← power? (c :: r)
      let v ← float? negative whole power
      pure (v, r)
    else (whole? negative whole).map fun v => (v, c :: r)
  | [] => (whole? negative whole).map fun v => (v, [])

def unsigned? (negative : Bool) : Text → Option (Value × Text)
  | 'i' :: 'n' :: 'f' :: r => some (.float (.infinite negative), r)
  | 'n' :: 'a' :: 'n' :: r => some (.float .nan, r)
  | s => do
    let (whole, r) ← wholeDigits? s
    decimal? negative whole r

def number? : Text → Option (Value × Text)
  | '0' :: 'x' :: r => based? 16 (fun c => (Text.hexDigit? c).isSome) r
  | '0' :: 'o' :: r => based? 8 isOctal r
  | '0' :: 'b' :: r => based? 2 isBinary r
  | s => unsigned? (sign s).1 (sign s).2

end Docroot.Toml

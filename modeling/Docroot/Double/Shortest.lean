import Docroot.Double.Basic

/-!
The shortest text of a number of double precision: the fewest digits that lie nearer to it than to
any other such number, and of those the ones nearest to it. No power of ten is written.
-/

namespace Docroot.Double

/-- The bounds within which a decimal stands for a value, over one denominator. -/
structure Bounds where
  low : Nat
  value : Nat
  high : Nat
  den : Nat
  /-- Whether a decimal at one of the bounds stands for the value, too. -/
  closed : Bool
deriving DecidableEq, Repr

/-- The bounds lie halfway to the neighbours; below a power of two the neighbour is nearer. -/
def bounds (mantissa : Nat) (exponent : Int) : Bounds :=
  let x := Decimal.scale mantissa 1 exponent
  let unit := (Decimal.scale 1 1 exponent).num
  let below := if mantissa = Nat.pow 2 52 ∧ minExponent < exponent then unit else 2 * unit
  ⟨4 * x.num - below, 4 * x.num, 4 * x.num + 2 * unit, 4 * x.den, mantissa % 2 == 0⟩

/-- Whether a fraction stands for the value. -/
def Bounds.admits (b : Bounds) (x : Decimal.Ratio) : Bool :=
  if b.closed then b.low * x.den ≤ x.num * b.den && x.num * b.den ≤ b.high * x.den
  else b.low * x.den < x.num * b.den && x.num * b.den < b.high * x.den

/-- A row of digits and the power of ten that the last one counts. -/
structure Digits where
  digits : Nat
  power : Int
deriving DecidableEq, Repr

def scaleTen (n d : Nat) (power : Int) : Decimal.Ratio :=
  if 0 ≤ power then ⟨n * Nat.pow 10 power.toNat, d⟩ else ⟨n, d * Nat.pow 10 (-power).toNat⟩

/-- The power of ten that is the least one above `n / d`. -/
def magnitude (n d : Nat) : Int :=
  if d ≤ n then (Text.decimal (n / d)).length
  else 1 - (Text.decimal ((d - 1) / n)).length

/-- The digits, at a power of ten, that stand for the value: of two neighbours the nearer one, and
the upper one when they are equally near. -/
def at? (b : Bounds) (power : Int) : Option Digits :=
  let x := scaleTen b.value b.den (-power)
  let lower := x.num / x.den
  let upperIsNearer := x.den ≤ 2 * (x.num % x.den)
  let fits (k : Nat) : Bool := b.admits (scaleTen k 1 power)
  -- the nearer one may miss the bounds where they lie at unequal distances
  if fits (lower + 1) && (upperIsNearer || !fits lower) then some ⟨lower + 1, power⟩
  else if fits lower then some ⟨lower, power⟩
  else none

/-- The fewest digits that stand for the value; `left` digits may still be added. -/
def search (b : Bounds) (power : Int) : (left : Nat) → Digits
  | 0 => ⟨0, 0⟩
  | left + 1 => (at? b power).getD (search b (power - 1) left)

/-- A last digit zero is left out: it comes of ten at the first digit. -/
def Digits.trim (x : Digits) : Digits :=
  if x.digits % 10 = 0 then ⟨x.digits / 10, x.power + 1⟩ else x

/-- The digits with a point, or with zeros, where the power of ten puts them. -/
def Digits.write (x : Digits) : Text :=
  let digits := Text.decimal x.digits
  if 0 ≤ x.power then digits ++ List.replicate x.power.toNat '0'
  else
    let behind := (-x.power).toNat
    if behind < digits.length then
      digits.take (digits.length - behind) ++ '.' :: digits.drop (digits.length - behind)
    else '0' :: '.' :: (List.replicate (behind - digits.length) '0' ++ digits)

/-- Seventeen digits always suffice. -/
def shortest (mantissa : Nat) (exponent : Int) : Digits :=
  let b := bounds mantissa exponent
  (search b (magnitude b.value b.den - 1) 17).trim

def write : Double → Text
  | nan => "NaN".toList
  | infinite negative => if negative then "-inf".toList else "inf".toList
  | finite negative mantissa exponent =>
    (if negative then ['-'] else []) ++
      (if mantissa = 0 then ['0'] else (shortest mantissa exponent).write)

end Docroot.Double

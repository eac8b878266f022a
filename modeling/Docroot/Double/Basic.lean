import Docroot.Decimal
import Docroot.Text.Numeral

/-!
Numbers of double precision: the values that 53 bits and a power of two make, the two infinite
ones, and the value that is no number.
-/

namespace Docroot

/-- A finite value is `mantissa * 2 ^ exponent`; one that is not the least of its kind has the
highest of its 53 bits set. -/
inductive Double
  | nan
  | infinite (negative : Bool)
  | finite (negative : Bool) (mantissa : Nat) (exponent : Int)
deriving DecidableEq, Repr

namespace Double

def minExponent : Int := -1074

def maxExponent : Int := 971

/-- The value with a mantissa of at most 53 bits, or with the next one, which rounding may give. -/
def assemble (negative : Bool) (mantissa : Nat) (exponent : Int) : Double :=
  let carried := mantissa = Nat.pow 2 53
  let e := if carried then exponent + 1 else exponent
  if maxExponent < e then infinite negative
  else finite negative (if carried then Nat.pow 2 52 else mantissa) e

def nearest (negative : Bool) (n d : Nat) : Double :=
  if n = 0 then finite negative 0 minExponent
  else
    let k := min (Decimal.shiftOf n d) (-minExponent)
    let x := Decimal.scale n d k
    assemble negative (Decimal.roundDiv x.num x.den) (-k)

/-- The value nearest to `digits * 10 ^ exponent`. Numbers far outside the range are told by the
number of their digits. -/
def ofDecimal (negative : Bool) (digits : Nat) (exponent : Int) : Double :=
  let size : Int := (Text.decimal digits).length + exponent
  if digits = 0 ∨ size < -400 then finite negative 0 minExponent
  else if 400 < size then infinite negative
  else if 0 ≤ exponent then nearest negative (digits * Nat.pow 10 exponent.toNat) 1
  else nearest negative digits (Nat.pow 10 (-exponent).toNat)

def isZero : Double → Bool
  | finite _ mantissa _ => mantissa == 0
  | _ => false

/-- The nearest whole number that 64 bits hold, a half going away from zero. -/
def toWord : Double → Nat
  | nan => 0
  | infinite negative => if negative then 0 else Text.maxWord
  | finite negative mantissa exponent =>
    if negative then 0
    else
      let x := Decimal.scale mantissa 1 exponent
      min Text.maxWord ((2 * x.num + x.den) / (2 * x.den))

end Double

end Docroot

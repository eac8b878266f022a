import Docroot.Text.Numeral

/-!
Quotients rounded to 53 significant bits and written in decimal. All rounding is to the nearest
value, and of two nearest ones to the even one.
-/

namespace Docroot.Decimal

def roundDiv (n d : Nat) : Nat :=
  let q := n / d
  let r := n % d
  if 2 * r < d then q else if d < 2 * r then q + 1 else q + q % 2

structure Ratio where
  num : Nat
  den : Nat
deriving DecidableEq, Repr

def scale (n d : Nat) (k : Int) : Ratio :=
  if 0 ≤ k then ⟨n * Nat.pow 2 k.toNat, d⟩ else ⟨n, d * Nat.pow 2 (-k).toNat⟩

/-- How far a positive fraction is to be shifted to have 53 bits before the point. -/
def shiftOf (n d : Nat) : Int :=
  let k : Int := 53 + Nat.log2 d - Nat.log2 n
  let x := scale n d k
  if Nat.pow 2 53 ≤ x.num / x.den then k - 1 else k

/-- The value with 53 significant bits that is nearest to `n / d`. -/
def nearest (n d : Nat) : Ratio :=
  if n = 0 then ⟨0, 1⟩
  else
    let k := shiftOf n d
    let x := scale n d k
    scale (roundDiv x.num x.den) 1 (-k)

/-- The value with `places` digits after the point. -/
def fixed (places : Nat) (x : Ratio) : Text :=
  let unit := Nat.pow 10 places
  let n := roundDiv (x.num * unit) x.den
  Text.decimal (n / unit) ++ '.' :: Text.padded places (n % unit)

/-- A number of millionths, as a value of 53 bits divided by a million. -/
def millionths (n : Nat) : Ratio :=
  let x := nearest n 1
  nearest x.num (x.den * 1000000)

end Docroot.Decimal

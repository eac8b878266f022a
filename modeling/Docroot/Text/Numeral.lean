import Docroot.Text.Basic

/-!
Numerals: how numbers are written (decimal, hexadecimal, with leading zeros) and how a decimal
numeral below a bound is read.
-/

namespace Docroot.Text

def decimal (n : Nat) : Text := Nat.toDigits 10 n

def hexadecimal (n : Nat) : Text := Nat.toDigits 16 n

/-- The decimal numeral of `n`, filled with zeros on the left up to `width` digits. -/
def padded (width n : Nat) : Text := List.leftpad width '0' (decimal n)

def integer (i : Int) : Text := if i < 0 then '-' :: decimal i.natAbs else decimal i.natAbs

def digitsValue (s : Text) : Nat := s.foldl (fun n c => 10 * n + (c.toNat - 48)) 0

def digits? (s : Text) : Option Nat :=
  if s.isEmpty || !s.all Char.isDigit then none else some (digitsValue s)

/-- The greatest number that 64 bits hold. -/
def maxWord : Nat := 18446744073709551615

/-- The value of a decimal numeral of at most 64 bits; one leading plus sign is allowed. -/
def word? (s : Text) : Option Nat :=
  let body := match s with
    | '+' :: r => r
    | _ => s
  (digits? body).filter fun n => decide (n ≤ maxWord)

def hexDigit? (c : Char) : Option Nat :=
  if c.isDigit then some (c.toNat - 48)
  else if 'a' ≤ c ∧ c ≤ 'f' then some (c.toNat - 87)
  else if 'A' ≤ c ∧ c ≤ 'F' then some (c.toNat - 55)
  else none

end Docroot.Text

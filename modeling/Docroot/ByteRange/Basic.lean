import Docroot.Text.Numeral

/-!
Ranges of byte positions, both ends included, and the sum of a list of ranges: ranges that share
a byte are joined, and a joined range stands where the earliest of its parts stood.
-/

namespace Docroot

structure ByteRange where
  first : Nat
  last : Nat
deriving DecidableEq, Repr

namespace ByteRange

def length (r : ByteRange) : Nat := r.last + 1 - r.first

def overlaps (r s : ByteRange) : Bool := r.first ≤ s.last && s.first ≤ r.last

/-- The smallest range that holds both. -/
def hull (r s : ByteRange) : ByteRange := ⟨min r.first s.first, max r.last s.last⟩

/-- `bytes 0-9/100` -/
def contentRange (r : ByteRange) (total : Nat) : Text :=
  "bytes ".toList ++ Text.decimal r.first ++
    '-' :: (Text.decimal r.last ++ '/' :: Text.decimal total)

/-- `bytes */100`, or a star for an unknown length. -/
def unsatisfiedRange (total : Option Nat) : Text :=
  "bytes */".toList ++ (total.map Text.decimal).getD ['*']

/-- Joins `r` with every range that it shares a byte with, the joined range at `place`. A joined
range may reach further ranges; `fuel` counts the ranges that can still be joined. -/
def absorb : Nat → List ByteRange → ByteRange → Option Nat → List ByteRange
  | 0, rs, r, place => rs.insertIdx (place.getD rs.length) r
  | fuel + 1, rs, r, place =>
    match rs.findIdx? (overlaps · r) with
    | none => rs.insertIdx (place.getD rs.length) r
    | some i =>
      absorb fuel (rs.eraseIdx i) (((rs[i]?).map (hull r)).getD r) (some (min (place.getD i) i))

/-- A list of disjoint ranges with one more range. -/
def add (rs : List ByteRange) (r : ByteRange) : List ByteRange := absorb rs.length rs r none

/-- The disjoint ranges that cover the given ones. -/
def sum (rs : List ByteRange) : List ByteRange := rs.foldl add []

end ByteRange

end Docroot

import Docroot.ByteRange.Basic
import Docroot.Text.Blank
import Docroot.Text.Split

/-!
The `Range` header. The entries of all lines with the unit `bytes` are read in order up to the
first malformed one; those that lie past the end are dropped, and what remains is cut off at the
end and joined where it overlaps.
-/

namespace Docroot.ByteRange

/-- What the `Range` lines of a request ask for. -/
inductive Selection
  | whole
  | unsatisfiable
  | parts (ranges : List ByteRange)
deriving DecidableEq, Repr

inductive Entry
  | malformed
  | past
  | range (r : ByteRange)
deriving DecidableEq, Repr

def Entry.range? : Entry → Option ByteRange
  | .range r => some r
  | _ => none

def Entry.wellFormed : Entry → Bool
  | .malformed => false
  | _ => true

def suffixEntry (size count : Nat) : Entry :=
  if count = 0 ∨ size = 0 then .past else .range ⟨size - count, size - 1⟩

def plainEntry (size first : Nat) (last : Option Nat) : Entry :=
  if last.any (fun l => decide (l < first)) then .malformed
  else if size ≤ first then .past
  else .range ⟨first, (last.map (min · (size - 1))).getD (size - 1)⟩

/-- An entry `first-last`, `first-` or `-count` for a content of `size` bytes. -/
def readEntry (size : Nat) (entry : Text) : Entry :=
  match Text.cutAt '-' entry with
  | none => .malformed
  | some (l, r) =>
    let left := Text.trim l
    let right := Text.trim r
    if right.contains '-' then .malformed
    else if left.isEmpty then
      match Text.word? right with
      | some count => suffixEntry size count
      | none => .malformed
    else match Text.word? left with
      | none => .malformed
      | some first =>
        if right.isEmpty then plainEntry size first none
        else match Text.word? right with
          | some last => plainEntry size first (some last)
          | none => .malformed

/-- What follows `bytes=`, in any case, at the beginning of a line. -/
def bytesUnit? (line : Text) : Option Text :=
  let s := Text.trim line
  if Text.sameLetters (s.take 6) "bytes=".toList then some (s.drop 6) else none

def entries (spec : Text) : List Text :=
  ((Text.splitOn ',' spec).map Text.trim).filter fun s => !s.isEmpty

/-- The ranges that the lines with the unit `bytes` ask for, before they are joined. -/
def requested (size : Nat) (specs : List Text) : List ByteRange :=
  (((specs.flatMap entries).map (readEntry size)).takeWhile Entry.wellFormed).filterMap Entry.range?

/-- What the `Range` lines ask for. Of a content of unknown length no part can be sent. -/
def select (lines : List Text) (size : Option Nat) : Selection :=
  match lines.filterMap bytesUnit? with
  | [] => .whole
  | specs =>
    match sum ((size.map fun n => requested n specs).getD []) with
    | [] => .unsatisfiable
    | rs => .parts rs

end Docroot.ByteRange

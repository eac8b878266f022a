import Docroot.Text.Basic

/-!
Blank characters, those with the Unicode property `White_Space`, and trimming.
-/

namespace Docroot.Text

/-- The characters with the property `White_Space`, as closed ranges of code points. -/
def blankRanges : List (Nat × Nat) :=
  [(0x09, 0x0D), (0x20, 0x20), (0x85, 0x85), (0xA0, 0xA0), (0x1680, 0x1680), (0x2000, 0x200A),
    (0x2028, 0x2029), (0x202F, 0x202F), (0x205F, 0x205F), (0x3000, 0x3000)]

def isBlank (c : Char) : Bool := blankRanges.any fun r => r.1 ≤ c.toNat && c.toNat ≤ r.2

def trim (s : Text) : Text := strip isBlank s

/-- A text without blanks at its ends stays as it is. -/
theorem trim_of_ends {c d : Char} (hc : isBlank c = false) (hd : isBlank d = false) (s : Text) :
    trim (c :: (s ++ [d])) = c :: (s ++ [d]) := by
  unfold trim strip dropEndWhile
  rw [List.dropWhile_cons, hc]
  have hr : (c :: (s ++ [d])).reverse = d :: (c :: s).reverse := by simp
  simp only [Bool.false_eq_true, if_false]
  rw [hr, List.dropWhile_cons, hd]
  simp

end Docroot.Text

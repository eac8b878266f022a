/-!
Putting a list in order. Equal elements keep their places: an element goes before the first one
that it must come before.
-/

namespace Docroot.Ordered

variable {α : Type}

/-- Puts `a` before the first element that comes strictly after it. -/
def insert (before : α → α → Bool) (a : α) : List α → List α
  | [] => [a]
  | b :: r => if before b a then b :: insert before a r else a :: b :: r

/-- The elements in order; `before b a` says that `b` comes strictly before `a`. -/
def sort (before : α → α → Bool) : List α → List α
  | [] => []
  | a :: r => insert before a (sort before r)

theorem insert_perm (before : α → α → Bool) (a : α) (l : List α) :
    (insert before a l).Perm (a :: l) := by
  induction l with
  | nil => exact .refl _
  | cons b r ih =>
    rw [insert]
    split
    · exact (ih.cons b).trans (.swap a b r)
    · exact .refl _

theorem sort_perm (before : α → α → Bool) (l : List α) : (sort before l).Perm l := by
  induction l with
  | nil => exact .refl _
  | cons a r ih => exact (insert_perm before a _).trans (ih.cons a)

end Docroot.Ordered

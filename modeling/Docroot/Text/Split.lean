import Docroot.Text.Basic

/-!
Cutting a text at a separator and putting the pieces together again: `joinWith` undoes `splitOn`.
-/

namespace Docroot.Text

/-- The pieces between the occurrences of `sep`; a text without any is one piece. -/
def splitOn (sep : Char) : Text → List Text
  | [] => [[]]
  | c :: r =>
    if c = sep then [] :: splitOn sep r
    else match splitOn sep r with
      | [] => [[c]]
      | piece :: pieces => (c :: piece) :: pieces

/-- The parts before and after the first `sep`. -/
def cutAt (sep : Char) : Text → Option (Text × Text)
  | [] => none
  | c :: r => if c = sep then some ([], r) else (cutAt sep r).map fun p => (c :: p.1, p.2)

def joinWith (sep : Text) : List Text → Text
  | [] => []
  | [s] => s
  | s :: t :: r => s ++ sep ++ joinWith sep (t :: r)

theorem splitOn_cons (sep c : Char) (r : Text) :
    splitOn sep (c :: r) =
      if c = sep then [] :: splitOn sep r
      else match splitOn sep r with
        | [] => [[c]]
        | piece :: pieces => (c :: piece) :: pieces := rfl

theorem cutAt_cons (sep c : Char) (r : Text) :
    cutAt sep (c :: r) =
      if c = sep then some ([], r) else (cutAt sep r).map fun p => (c :: p.1, p.2) := rfl

theorem splitOn_ne_nil (sep : Char) (s : Text) : splitOn sep s ≠ [] := by
  cases s with
  | nil => exact List.cons_ne_nil _ _
  | cons c r =>
    rw [splitOn_cons]
    split
    · simp
    · split <;> simp

theorem joinWith_cons {sep : Text} {s : Text} {r : List Text} (h : r ≠ []) :
    joinWith sep (s :: r) = s ++ sep ++ joinWith sep r := by
  cases r with
  | nil => exact absurd rfl h
  | cons t r => rfl

/-- Pieces put together, each with a separator before it. -/
theorem cons_joinWith {sep : Char} {pieces : List Text} (h : pieces ≠ []) :
    sep :: joinWith [sep] pieces = pieces.flatMap (sep :: ·) := by
  induction pieces with
  | nil => exact absurd rfl h
  | cons s r ih =>
    rcases r with _ | ⟨t, r⟩
    · simp [joinWith]
    · rw [joinWith_cons (List.cons_ne_nil t r), List.flatMap_cons, ← ih (List.cons_ne_nil t r)]
      simp

theorem splitOn_of_not_mem {sep : Char} {s : Text} (h : sep ∉ s) : splitOn sep s = [s] := by
  induction s with
  | nil => rfl
  | cons c r ih =>
    rw [List.mem_cons, not_or] at h
    rw [splitOn_cons, if_neg (Ne.symm h.1), ih h.2]

theorem splitOn_append {sep : Char} {s : Text} (h : sep ∉ s) (r : Text) :
    splitOn sep (s ++ sep :: r) = s :: splitOn sep r := by
  induction s with
  | nil => rw [List.nil_append, splitOn_cons, if_pos rfl]
  | cons c s ih =>
    rw [List.mem_cons, not_or] at h
    rw [List.cons_append, splitOn_cons, if_neg (Ne.symm h.1), ih h.2]

/-- Cutting undoes putting together pieces that do not hold the separator. -/
theorem splitOn_joinWith {sep : Char} {p : List Text} (hp : p ≠ []) (h : ∀ s ∈ p, sep ∉ s) :
    splitOn sep (joinWith [sep] p) = p := by
  induction p with
  | nil => exact absurd rfl hp
  | cons s r ih =>
    have hs := h s List.mem_cons_self
    cases r with
    | nil => exact splitOn_of_not_mem hs
    | cons t r =>
      rw [joinWith_cons (List.cons_ne_nil t r), List.append_assoc]
      show splitOn sep (s ++ sep :: joinWith [sep] (t :: r)) = _
      rw [splitOn_append hs, ih (List.cons_ne_nil t r) fun x hx => h x (List.mem_cons_of_mem s hx)]

/-- No piece holds the separator. -/
theorem not_mem_of_mem_splitOn {sep : Char} {s piece : Text} (h : piece ∈ splitOn sep s) :
    sep ∉ piece := by
  induction s generalizing piece with
  | nil =>
    obtain rfl := List.mem_singleton.1 h
    exact List.not_mem_nil
  | cons c r ih =>
    rw [splitOn_cons] at h
    split at h
    · rcases List.mem_cons.1 h with rfl | h
      · exact List.not_mem_nil
      · exact ih h
    · next hc =>
      split at h
      · next hn => exact absurd hn (splitOn_ne_nil sep r)
      · next first rest heq =>
        rw [heq] at ih
        rcases List.mem_cons.1 h with rfl | h
        · intro hm
          rcases List.mem_cons.1 hm with rfl | hm
          · exact hc rfl
          · exact ih List.mem_cons_self hm
        · exact ih (List.mem_cons_of_mem first h)

theorem cutAt_append {sep : Char} {a : Text} (h : sep ∉ a) (b : Text) :
    cutAt sep (a ++ sep :: b) = some (a, b) := by
  induction a with
  | nil => rw [List.nil_append, cutAt_cons, if_pos rfl]
  | cons c a ih =>
    rw [List.mem_cons, not_or] at h
    rw [List.cons_append, cutAt_cons, if_neg (Ne.symm h.1), ih h.2]
    rfl

theorem cutAt_of_not_mem {sep : Char} {a : Text} (h : sep ∉ a) : cutAt sep a = none := by
  induction a with
  | nil => rfl
  | cons c a ih =>
    rw [List.mem_cons, not_or] at h
    rw [cutAt_cons, if_neg (Ne.symm h.1), ih h.2]
    rfl

theorem cutAt_eq_some {sep : Char} {s a b : Text} (h : cutAt sep s = some (a, b)) :
    s = a ++ sep :: b := by
  induction s generalizing a with
  | nil => cases h
  | cons c r ih =>
    rw [cutAt_cons] at h
    split at h
    · next hc => simp only [Option.some.injEq, Prod.mk.injEq] at h; simp [← h.1, ← h.2, hc]
    · obtain ⟨⟨x, y⟩, hx, hp⟩ := Option.map_eq_some_iff.1 h
      simp only [Prod.mk.injEq] at hp
      rw [← hp.1, ih (by rw [hx, hp.2])]
      rfl

end Docroot.Text

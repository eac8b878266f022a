import Mathlib.Data.List.TakeWhile
import Mathlib.Tactic.Common
import Docroot.Text.Blank
import Docroot.Text.Split

/-!
Trimming and cutting. Blanks at the ends of a text do not change what is left when it is trimmed,
and a piece more at one end of a text changes the first or the last of its pieces only.
-/

namespace Docroot.Text

/-! ### Blanks around a text -/

def Blanks (s : Text) : Prop := ∀ c ∈ s, isBlank c = true

instance (s : Text) : Decidable s.Blanks := List.decidableBAll (fun c => isBlank c = true) s

lemma Blanks.not_mem {s : Text} (h : s.Blanks) {c : Char} (hc : isBlank c = false) : c ∉ s := by
  intro hm
  rw [h c hm] at hc
  cases hc

lemma trim_of_blanks {s : Text} (h : s.Blanks) : trim s = [] := by
  have hfront : s.dropWhile isBlank = [] := List.dropWhile_eq_nil_iff.2 h
  rw [trim, strip, dropEndWhile, hfront]
  rfl

lemma trim_append_left {a : Text} (h : a.Blanks) (s : Text) : trim (a ++ s) = trim s := by
  rw [trim, strip, List.dropWhile_append_of_pos h]
  rfl

lemma trim_append_right {b : Text} (h : b.Blanks) (s : Text) : trim (s ++ b) = trim s := by
  have hback : ∀ t : Text, dropEndWhile isBlank (t ++ b) = dropEndWhile isBlank t := by
    intro t
    have hb : ∀ c ∈ b.reverse, isBlank c = true := fun c hc => h c (List.mem_reverse.1 hc)
    rw [dropEndWhile, List.reverse_append, List.dropWhile_append_of_pos hb]
    rfl
  unfold trim strip
  rw [List.dropWhile_append]
  split
  · next hs =>
    -- the text is nothing but blanks, and so is all of it
    rw [List.isEmpty_iff.1 hs, List.dropWhile_eq_nil_iff.2 h]
  · exact hback _

lemma exists_blanks (s : Text) : ∃ a b : Text, a.Blanks ∧ b.Blanks ∧ s = a ++ (trim s ++ b) := by
  have hsplit : ∀ t : Text, ∃ b : Text, b.Blanks ∧ t = dropEndWhile isBlank t ++ b := by
    intro t
    refine ⟨(t.reverse.takeWhile isBlank).reverse, fun c hc => ?_, ?_⟩
    · exact List.mem_takeWhile_imp (List.mem_reverse.1 hc)
    · rw [dropEndWhile, ← List.reverse_append, List.takeWhile_append_dropWhile,
        List.reverse_reverse]
  obtain ⟨b, hb, hs⟩ := hsplit (s.dropWhile isBlank)
  refine ⟨s.takeWhile isBlank, b, fun c hc => List.mem_takeWhile_imp hc, hb, ?_⟩
  have hall : s = s.takeWhile isBlank ++ s.dropWhile isBlank := List.takeWhile_append_dropWhile.symm
  rw [trim, strip, ← hs]
  exact hall

/-! ### Pieces with something more at one end -/

lemma splitOn_append_left {sep : Char} {a : Text} (h : sep ∉ a) (s : Text) :
    ∃ first rest, splitOn sep s = first :: rest ∧ splitOn sep (a ++ s) = (a ++ first) :: rest := by
  induction a with
  | nil =>
    cases hs : splitOn sep s with
    | nil => exact absurd hs (splitOn_ne_nil sep s)
    | cons first rest => exact ⟨first, rest, rfl, hs⟩
  | cons c a ih =>
    rw [List.mem_cons, not_or] at h
    obtain ⟨first, rest, hs, ha⟩ := ih h.2
    refine ⟨first, rest, hs, ?_⟩
    rw [List.cons_append, splitOn_cons, if_neg (Ne.symm h.1), ha]
    rfl

lemma splitOn_append_right {sep : Char} {b : Text} (h : sep ∉ b) (s : Text) :
    ∃ front last, splitOn sep s = front ++ [last] ∧
      splitOn sep (s ++ b) = front ++ [last ++ b] := by
  induction s with
  | nil => exact ⟨[], [], rfl, splitOn_of_not_mem h⟩
  | cons c s ih =>
    obtain ⟨front, last, hs, hb⟩ := ih
    rw [List.cons_append, splitOn_cons, splitOn_cons, hs, hb]
    by_cases hc : c = sep
    · rw [if_pos hc, if_pos hc]
      exact ⟨[] :: front, last, rfl, rfl⟩
    · rw [if_neg hc, if_neg hc]
      cases front with
      | nil => exact ⟨[], c :: last, rfl, rfl⟩
      | cons p front => exact ⟨(c :: p) :: front, last, rfl, rfl⟩

lemma mem_joinWith {sep : Text} {parts : List Text} {c : Char} (h : c ∈ joinWith sep parts) :
    c ∈ sep ∨ ∃ p ∈ parts, c ∈ p := by
  induction parts with
  | nil => exact absurd h List.not_mem_nil
  | cons p parts ih =>
    cases parts with
    | nil => exact Or.inr ⟨p, List.mem_cons_self, h⟩
    | cons q parts =>
      rw [joinWith_cons (List.cons_ne_nil q parts), List.append_assoc, List.mem_append,
        List.mem_append] at h
      rcases h with h | h | h
      · exact Or.inr ⟨p, List.mem_cons_self, h⟩
      · exact Or.inl h
      · obtain hs | ⟨r, hr, hc⟩ := ih h
        · exact Or.inl hs
        · exact Or.inr ⟨r, List.mem_cons_of_mem p hr, hc⟩

lemma cutAt_append_right {sep : Char} {b : Text} (h : sep ∉ b) (s : Text) :
    cutAt sep (s ++ b) = (cutAt sep s).map fun p => (p.1, p.2 ++ b) := by
  induction s with
  | nil => exact cutAt_of_not_mem h
  | cons c s ih =>
    rw [List.cons_append, cutAt_cons, cutAt_cons, ih]
    split
    · rfl
    · cases cutAt sep s <;> rfl

end Docroot.Text

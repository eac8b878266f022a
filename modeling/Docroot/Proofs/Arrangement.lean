import Mathlib.Tactic.Common
import Docroot.Ordered

/-!
Sorting keeps equal elements in their places. Where `before` tells ranks apart, a sorted list is in
order by rank, and elements of one rank stand as they stood; and to leave some elements out before
the list is sorted is to leave them out behind.
-/

namespace Docroot.Ordered

variable {α β : Type} {before : α → α → Bool}

/-- Elements are told apart by a rank: of two elements one comes before the other at most, and what
does not come before a second that does not come before a third does not come before the third. -/
structure Ranks (before : α → α → Bool) : Prop where
  asymm : ∀ {a b}, before a b = true → before b a = false
  trans : ∀ {a b c}, before a b = false → before b c = false → before a c = false

/-- The element is ranked before the other, or it has the same rank and stands before it. -/
def Precedes (before : α → α → Bool) (stands : α → α → Prop) (a b : α) : Prop :=
  before a b = true ∨ before b a = false ∧ stands a b

lemma Ranks.not_before (h : Ranks before) {stands : α → α → Prop} {a b : α}
    (hab : Precedes before stands a b) : before b a = false :=
  hab.elim h.asymm And.left

lemma insert_cons (before : α → α → Bool) (a b : α) (r : List α) :
    insert before a (b :: r) = if before b a then b :: insert before a r else a :: b :: r := rfl

lemma insert_of_first {a : α} {l : List α} (h : ∀ b ∈ l, before b a = false) :
    insert before a l = a :: l := by
  cases l with
  | nil => rfl
  | cons b r => rw [insert_cons, h b List.mem_cons_self, if_neg Bool.false_ne_true]

/-- What follows an element that does not come before `a` does not come before `a` either. -/
lemma Ranks.first_of_cons (h : Ranks before) {stands : α → α → Prop} {a b : α} {r : List α}
    (hs : (b :: r).Pairwise (Precedes before stands)) (hb : before b a = false) :
    ∀ c ∈ b :: r, before c a = false := by
  rw [List.pairwise_cons] at hs
  rw [List.forall_mem_cons]
  exact ⟨hb, fun c hc => h.trans (h.not_before (hs.1 c hc)) hb⟩

lemma Ranks.pairwise_insert (h : Ranks before) {stands : α → α → Prop} {a : α} {l : List α}
    (hs : l.Pairwise (Precedes before stands)) (ha : ∀ b ∈ l, stands a b) :
    (insert before a l).Pairwise (Precedes before stands) := by
  induction l with
  | nil => exact List.pairwise_singleton _ _
  | cons b r ih =>
    by_cases hb : before b a = true
    · have hr := List.pairwise_cons.1 hs
      have hin := ih hr.2 (List.forall_mem_cons.1 ha).2
      rw [insert_cons, if_pos hb, List.pairwise_cons]
      refine ⟨fun c hc => ?_, hin⟩
      rcases List.mem_cons.1 ((insert_perm before a r).mem_iff.1 hc) with rfl | hc
      · exact Or.inl hb
      · exact hr.1 c hc
    · have hfirst := h.first_of_cons hs (Bool.not_eq_true _ ▸ hb)
      rw [insert_of_first hfirst, List.pairwise_cons]
      exact ⟨fun c hc => Or.inr ⟨hfirst c hc, ha c hc⟩, hs⟩

/-- **A sorted list is in order**, and equal elements stand as they stood. -/
theorem Ranks.pairwise_sort (h : Ranks before) {stands : α → α → Prop} {l : List α}
    (hl : l.Pairwise stands) : (sort before l).Pairwise (Precedes before stands) := by
  induction l with
  | nil => exact List.Pairwise.nil
  | cons a r ih =>
    rw [List.pairwise_cons] at hl
    exact h.pairwise_insert (ih hl.2) fun b hb => hl.1 b ((sort_perm before r).mem_iff.1 hb)

lemma map_sort (f : α → β) (before : β → β → Bool) (l : List α) :
    sort before (l.map f) = (sort (fun a b => before (f a) (f b)) l).map f := by
  have hinsert : ∀ a (l : List α), insert before (f a) (l.map f) =
      (insert (fun a b => before (f a) (f b)) a l).map f := by
    intro a l
    induction l with
    | nil => rfl
    | cons b r ih =>
      rw [List.map_cons, insert_cons, insert_cons, ih]
      split <;> rfl
  induction l with
  | nil => rfl
  | cons a r ih => rw [List.map_cons, sort, ih, hinsert]; rfl

lemma Ranks.filter_insert (h : Ranks before) {stands : α → α → Prop} (p : α → Bool) {a : α}
    {l : List α} (hs : l.Pairwise (Precedes before stands)) :
    (insert before a l).filter p = if p a then insert before a (l.filter p) else l.filter p := by
  induction l with
  | nil => cases hp : p a <;> simp [insert, hp]
  | cons b r ih =>
    by_cases hb : before b a = true
    · have hr := List.pairwise_cons.1 hs
      rw [insert_cons, if_pos hb, List.filter_cons, List.filter_cons, ih hr.2]
      cases p a <;> cases p b <;> simp [insert_cons, hb]
    · have hfirst := h.first_of_cons hs (Bool.not_eq_true _ ▸ hb)
      rw [insert_of_first hfirst, List.filter_cons,
        insert_of_first fun c hc => hfirst c (List.mem_filter.1 hc).1]

/-- **Leaving elements out** and sorting can be done in either order. -/
theorem Ranks.filter_sort (h : Ranks before) (p : α → Bool) (l : List α) :
    (sort before l).filter p = sort before (l.filter p) := by
  induction l with
  | nil => rfl
  | cons a r ih =>
    have hs : (sort before r).Pairwise (Precedes before fun _ _ => True) :=
      h.pairwise_sort (List.pairwise_of_forall fun _ _ => trivial)
    rw [sort, h.filter_insert p hs, ih, List.filter_cons]
    split <;> rfl

end Docroot.Ordered

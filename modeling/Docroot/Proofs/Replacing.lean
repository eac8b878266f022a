import Mathlib.Tactic.Common
import Docroot.Text.Basic

/-!
Replacing one text by another. What is replaced is found from left to right, and what is written for
it is not searched again. A text that can neither begin in what is written nor go on in it stands in
the result only where it stood before.
-/

namespace Docroot.Text

/-- One of the two texts begins with the other. -/
def Meets (s t : Text) : Prop := s <+: t ∨ t <+: s

instance (s t : Text) : Decidable (Meets s t) := inferInstanceAs (Decidable (s <+: t ∨ t <+: s))

lemma Meets.eq_of_cons {c d : Char} {s t : Text} (h : Meets (c :: s) (d :: t)) : c = d := by
  rcases h with h | h
  · exact (List.cons_prefix_cons.1 h).1
  · exact (List.cons_prefix_cons.1 h).1.symm

lemma meets_of_prefix_append {s t r : Text} (h : s <+: t ++ r) : Meets s t :=
  List.prefix_or_prefix_of_prefix h (List.prefix_append t r)

section

variable {old new s : Text}

/-- The rest of an occurrence is passed over. -/
lemma replaceFrom_eq (old new : Text) (skip : Nat) (s : Text) :
    replaceFrom old new skip s = replace old new (s.drop skip) := by
  induction s generalizing skip with
  | nil => cases skip <;> rfl
  | cons c r ih =>
    cases skip with
    | zero => rfl
    | succ skip => exact ih skip

lemma replace_cons (old new : Text) (c : Char) (r : Text) : replace old new (c :: r) =
    if old <+: c :: r then new ++ replace old new (r.drop (old.length - 1))
    else c :: replace old new r := by
  have hcons : replace old new (c :: r) = if old.isPrefixOf (c :: r)
      then new ++ replaceFrom old new (old.length - 1) r else c :: replace old new r := rfl
  rw [hcons, replaceFrom_eq]
  simp only [List.isPrefixOf_iff_prefix]

lemma replace_cons_of_not_begins {c : Char} {r : Text} (h : ¬ old <+: c :: r) :
    replace old new (c :: r) = c :: replace old new r := by
  rw [replace_cons, if_neg h]

lemma replace_append (h : old ≠ []) (s : Text) :
    replace old new (old ++ s) = new ++ replace old new s := by
  cases old with
  | nil => exact absurd rfl h
  | cons c r =>
    rw [List.cons_append, replace_cons, if_pos (by simp)]
    simp

lemma replace_append_of_not_begins {p : Text}
    (h : ∀ x, x <:+ p → x ≠ [] → ¬ old <+: x ++ s) :
    replace old new (p ++ s) = p ++ replace old new s := by
  induction p with
  | nil => rfl
  | cons c p ih =>
    have hfirst : ¬ old <+: c :: (p ++ s) := h (c :: p) List.suffix_rfl (List.cons_ne_nil c p)
    have hrest := ih fun x hx => h x (hx.trans (List.suffix_cons c p))
    rw [List.cons_append, replace_cons_of_not_begins hfirst, hrest]
    rfl

end

/-! ### What stands in the result -/

/-- Behind a text that may have begun with the name, the value neither goes on with it nor begins it
anew, whatever comes next. -/
structure Foreign (name before value : Text) : Prop where
  goesOn : ∀ a b, name = a ++ b → a ≠ [] → b ≠ [] → a <:+ before → ¬ Meets b value
  begins : ∀ x, x <:+ value → x ≠ [] → ¬ Meets name x

/-- The text begins with a character that the other one does not hold. -/
def BeginsOutside (t : Text) : Text → Prop
  | [] => False
  | c :: _ => c ∉ t

instance (t : Text) : ∀ s, Decidable (BeginsOutside t s)
  | [] => inferInstanceAs (Decidable False)
  | c :: _ => inferInstanceAs (Decidable (c ∉ t))

lemma not_meets_of_not_mem {d : Char} {t value x : Text} (hd : d ∉ value) (hx : x <:+ value)
    (hne : x ≠ []) : ¬ Meets (d :: t) x := by
  intro hm
  obtain ⟨e, x, rfl⟩ := List.exists_cons_of_ne_nil hne
  have he : d = e := hm.eq_of_cons
  exact hd (hx.subset (he ▸ List.mem_cons_self))

/-- A value is foreign to a name if it does not hold the first character of the name, nor begins
with another one of it. -/
lemma foreign_of_beginsOutside {d : Char} {t value : Text} (ht : BeginsOutside t value)
    (hd : d ∉ value) (before : Text) : Foreign (d :: t) before value where
  goesOn := by
    intro a b hab ha hb _ hm
    obtain ⟨f, a, rfl⟩ := List.exists_cons_of_ne_nil ha
    obtain ⟨e, b, rfl⟩ := List.exists_cons_of_ne_nil hb
    cases value with
    | nil => exact ht
    | cons c r =>
      have he : e = c := hm.eq_of_cons
      rw [List.cons_append, List.cons.injEq] at hab
      exact ht (by rw [hab.2, ← he]; simp)
  begins := fun _ hx hne => not_meets_of_not_mem hd hx hne

section

variable {name old new s : Text} (h : ∀ before, Foreign name before new)

include h

lemma prefix_of_prefix_replace {b : Text} (hb : b <:+ name.tail)
    (hp : b <+: replace old new s) : b <+: s := by
  induction s generalizing b with
  | nil => exact hp
  | cons c r ih =>
    cases b with
    | nil => exact List.nil_prefix
    | cons d b =>
      rw [replace_cons] at hp
      split at hp
      · -- the name would go on in what has been written
        obtain ⟨a, ha⟩ := hb
        cases name with
        | nil => simp at ha
        | cons e t =>
          have hsplit : e :: t = (e :: a) ++ d :: b := by rw [List.cons_append, ha, List.tail_cons]
          exact absurd (meets_of_prefix_append hp) ((h (e :: a)).goesOn (e :: a) _ hsplit
            (List.cons_ne_nil e a) (List.cons_ne_nil d b) List.suffix_rfl)
      · rw [List.cons_prefix_cons] at hp ⊢
        exact ⟨hp.1, ih ((List.suffix_cons d b).trans hb) hp.2⟩

lemma infix_of_infix_value_append {t : Text} (hi : name <:+: new ++ t) : name <:+: t := by
  obtain ⟨y, hp, x, hx⟩ := List.infix_iff_prefix_suffix.1 hi
  rcases List.append_eq_append_iff.1 hx with ⟨z, hz, rfl⟩ | ⟨z, -, hz⟩
  · cases z with
    | nil => exact List.infix_iff_prefix_suffix.2 ⟨_, hp, List.suffix_rfl⟩
    | cons e z =>
      exact absurd (meets_of_prefix_append hp)
        ((h []).begins _ ⟨x, hz.symm⟩ (List.cons_ne_nil e z))
  · exact List.infix_iff_prefix_suffix.2 ⟨y, hp, z, hz.symm⟩

/-- Where the name stands in the result it stood before, and there was nothing to replace. -/
lemma exists_of_infix_replace (hname : name ≠ []) (hi : name <:+: replace old new s) :
    ∃ y, y <:+ s ∧ name <+: y ∧ ¬ old <+: y := by
  induction hn : s.length using Nat.strongRecOn generalizing s with
  | ind n ih =>
    cases s with
    | nil => exact absurd (List.infix_nil.1 hi) hname
    | cons c r =>
      rw [List.length_cons] at hn
      rw [replace_cons] at hi
      split at hi
      · -- the rest is shorter
        have hrest := infix_of_infix_value_append h hi
        have hlt : (r.drop (old.length - 1)).length < n := by
          rw [List.length_drop]
          omega
        obtain ⟨y, hy, hstands⟩ := ih _ hlt hrest rfl
        exact ⟨y, (hy.trans (List.drop_suffix _ r)).trans (List.suffix_cons c r), hstands⟩
      · next hold =>
        rcases List.infix_cons_iff.1 hi with hp | hi
        · cases name with
          | nil => exact absurd rfl hname
          | cons d t =>
            rw [List.cons_prefix_cons] at hp
            have ht : t <+: r := prefix_of_prefix_replace h List.suffix_rfl hp.2
            exact ⟨c :: r, List.suffix_rfl, List.cons_prefix_cons.2 ⟨hp.1, ht⟩, hold⟩
        · obtain ⟨y, hy, hstands⟩ := ih r.length (by omega) hi rfl
          exact ⟨y, hy.trans (List.suffix_cons c r), hstands⟩

lemma infix_of_infix_replace (hname : name ≠ []) (hi : name <:+: replace old new s) :
    name <:+: s := by
  obtain ⟨y, hy, hp, -⟩ := exists_of_infix_replace h hname hi
  exact List.infix_iff_prefix_suffix.2 ⟨y, hp, hy⟩

lemma not_infix_replace_self (hname : name ≠ []) : ¬ name <:+: replace name new s := by
  intro hi
  obtain ⟨y, -, hp, hold⟩ := exists_of_infix_replace h hname hi
  exact hold hp

end

end Docroot.Text

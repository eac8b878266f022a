import Mathlib.Data.List.Infix
import Mathlib.Tactic.Common
import Docroot.Text.Markup
import Docroot.Text.Numeral

/-!
Texts inside markup. Whatever text is written there, nothing in it begins or ends a tag or a value,
every `&` in it begins an entity, and reading the entities gives the text back.
-/

namespace Docroot.Text

/-- The characters at which a tag or a value begins or ends. -/
def marks : List Char := ['<', '>', '"', '\'']

/-- The texts that stand for the characters with a meaning in markup. -/
def entities : List Text :=
  ["&amp;".toList, "&lt;".toList, "&gt;".toList, "&quot;".toList, "&#39;".toList]

/-- No tag and no value begins or ends in the text. -/
def Unmarked (s : Text) : Prop := ∀ c ∈ s, c ∉ marks

instance (s : Text) : Decidable s.Unmarked := List.decidableBAll (· ∉ marks) s

/-- No character of the text has a meaning in markup. -/
def Bare (s : Text) : Prop := ∀ c ∈ s, c ∉ '&' :: marks

instance (s : Text) : Decidable s.Bare := List.decidableBAll (· ∉ '&' :: marks) s

/-- Every `&` begins an entity. -/
def Escaped (s : Text) : Prop := ∀ r, '&' :: r <:+ s → ∃ e ∈ entities, e <+: '&' :: r

lemma mem_marks_iff {c : Char} :
    c ∈ '&' :: marks ↔ c = '&' ∨ c = '<' ∨ c = '>' ∨ c = '"' ∨ c = '\'' := by
  simp [marks]

/-! ### Texts put together -/

lemma Unmarked.append {s t : Text} (hs : s.Unmarked) (ht : t.Unmarked) : (s ++ t).Unmarked :=
  List.forall_mem_append.2 ⟨hs, ht⟩

lemma Unmarked.filter_eq {s : Text} (h : s.Unmarked) : s.filter (· ∈ marks) = [] :=
  List.filter_eq_nil_iff.2 fun c hc => by simpa using h c hc

lemma escaped_of_not_mem {s : Text} (h : '&' ∉ s) : s.Escaped :=
  fun _ hr => absurd (hr.subset List.mem_cons_self) h

lemma Escaped.append {s t : Text} (hs : s.Escaped) (ht : t.Escaped) : (s ++ t).Escaped := by
  rintro r ⟨x, hx⟩
  rcases List.append_eq_append_iff.1 hx with ⟨y, rfl, hy⟩ | ⟨y, rfl, hy⟩
  · rcases y with _ | ⟨c, y⟩
    · exact ht r ⟨[], hy⟩
    · -- the `&` stands in the first text, and so does the entity
      obtain ⟨rfl, rfl⟩ := List.cons.inj hy
      obtain ⟨e, he, hpre⟩ := hs y (List.suffix_append x _)
      exact ⟨e, he, hpre.trans (List.prefix_append _ t)⟩
  · exact ht r ⟨y, hy.symm⟩

lemma Escaped.cons {c : Char} {s : Text} (hc : c ≠ '&') (hs : s.Escaped) : Escaped (c :: s) :=
  (escaped_of_not_mem fun hm => hc (List.mem_singleton.1 hm).symm).append hs

lemma Escaped.flatMap {α : Type} {f : α → Text} {l : List α} (h : ∀ a ∈ l, (f a).Escaped) :
    Escaped (l.flatMap f) := by
  induction l with
  | nil => exact escaped_of_not_mem List.not_mem_nil
  | cons a l ih =>
    rw [List.forall_mem_cons] at h
    exact h.1.append (ih h.2)

lemma Bare.append {s t : Text} (hs : s.Bare) (ht : t.Bare) : (s ++ t).Bare :=
  List.forall_mem_append.2 ⟨hs, ht⟩

lemma Bare.cons {c : Char} {s : Text} (hc : c ∉ '&' :: marks) (hs : s.Bare) : Bare (c :: s) :=
  List.forall_mem_cons.2 ⟨hc, hs⟩

lemma Bare.unmarked {s : Text} (h : s.Bare) : s.Unmarked :=
  fun c hc hm => h c hc (List.mem_cons_of_mem _ hm)

lemma Bare.escaped {s : Text} (h : s.Bare) : s.Escaped :=
  escaped_of_not_mem fun hm => h _ hm List.mem_cons_self

lemma bare_of_isDigit {s : Text} (h : ∀ c ∈ s, c.isDigit = true) : s.Bare := by
  intro c hc hm
  have hd := h c hc
  rcases mem_marks_iff.1 hm with rfl | rfl | rfl | rfl | rfl <;> cases hd

/-! ### Escaped texts -/

lemma markupChar_cases (c : Char) :
    c ∈ '&' :: marks ∨ c ∉ '&' :: marks ∧ markupChar c = [c] := by
  by_cases h : c ∈ '&' :: marks
  · exact Or.inl h
  · refine Or.inr ⟨h, ?_⟩
    rw [mem_marks_iff, not_or, not_or, not_or, not_or] at h
    obtain ⟨h1, h2, h3, h4, h5⟩ := h
    rw [markupChar, if_neg h1, if_neg h2, if_neg h3, if_neg h4, if_neg h5]

lemma unmarked_markupChar (c : Char) : Unmarked (markupChar c) := by
  rcases markupChar_cases c with h | ⟨h, he⟩
  · rcases mem_marks_iff.1 h with rfl | rfl | rfl | rfl | rfl <;> decide
  · rw [he]
    intro d hd
    obtain rfl := List.mem_singleton.1 hd
    exact fun hm => h (List.mem_cons_of_mem _ hm)

lemma escaped_markupChar (c : Char) : Escaped (markupChar c) := by
  rcases markupChar_cases c with h | ⟨h, he⟩
  · obtain ⟨hmem, htail⟩ : markupChar c ∈ entities ∧ '&' ∉ (markupChar c).tail := by
      rcases mem_marks_iff.1 h with rfl | rfl | rfl | rfl | rfl <;> decide
    rintro r ⟨x, hx⟩
    refine ⟨markupChar c, hmem, ?_⟩
    rcases x with _ | ⟨d, x⟩
    · exact hx ▸ List.prefix_refl _
    · rw [← hx] at htail
      exact absurd (List.mem_append_right x List.mem_cons_self) htail
  · rw [he]
    refine escaped_of_not_mem fun hm => h ?_
    rw [← List.mem_singleton.1 hm]
    exact List.mem_cons_self

lemma unescape_cons_of_ne {c : Char} (h : c ≠ '&') (r : Text) :
    unescape (c :: r) = c :: unescape r := by
  rw [unescape] <;> exact fun _ hc => absurd hc h

lemma unescape_markupChar (c : Char) (r : Text) :
    unescape (markupChar c ++ r) = c :: unescape r := by
  rcases markupChar_cases c with h | ⟨h, he⟩
  · rcases mem_marks_iff.1 h with rfl | rfl | rfl | rfl | rfl <;> rfl
  · rw [he]
    exact unescape_cons_of_ne (fun hc => h (hc ▸ List.mem_cons_self)) r

lemma unmarked_markup (s : Text) : Unmarked (markup s) := fun _ hc =>
  have ⟨c, _, hm⟩ := List.mem_flatMap.1 hc
  unmarked_markupChar c _ hm

lemma escaped_markup (s : Text) : Escaped (markup s) := .flatMap fun c _ => escaped_markupChar c

lemma unescape_markup_append (s t : Text) : unescape (markup s ++ t) = s ++ unescape t := by
  induction s with
  | nil => rfl
  | cons c s ih =>
    show unescape (markupChar c ++ markup s ++ t) = _
    rw [List.append_assoc, unescape_markupChar, ih, List.cons_append]

/-- **Reading the entities** of a text gives the text back. -/
theorem unescape_markup (s : Text) : unescape (markup s) = s := by
  have h := unescape_markup_append s []
  rwa [List.append_nil, unescape, List.append_nil] at h

/-- A text that looks like an entity is not taken for one. -/
example : unescape (markup "&lt; &amp;amp;".toList) = "&lt; &amp;amp;".toList := by decide

end Docroot.Text

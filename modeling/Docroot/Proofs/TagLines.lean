import Mathlib.Data.List.Forall2
import Mathlib.Tactic.Common
import Docroot.Proofs.Judgement
import Docroot.Proofs.TagLists

/-!
A list of tags on several lines. Lines that are put together with a comma between one and the next
hold the elements of all the lines, in the order of the lines, and a line without elements adds
none. So it does not matter over how many lines of a header a list is spread.
-/

namespace Docroot

open Text

namespace EntityTag

variable {g s s' line line' : Text} {tags tags' : List Text}

/-! ### Lists with more around them -/

lemma Lists.gap_append (hg : Gap g) (h : Lists s tags) : Lists (g ++ s) tags := by
  cases h with
  | last hg' he hh =>
    rw [← List.append_assoc]
    exact .last (hg.append hg') he hh
  | cons hg' he hh hc hs =>
    rw [← List.append_assoc]
    exact .cons (hg.append hg') he hh hc hs

lemma Lists.append_gap (h : Lists s tags) (hg : Gap g) : Lists (s ++ g) tags := by
  induction h with
  | last hg' he hh =>
    simp only [List.append_assoc]
    exact .last hg' he (hh.append hg)
  | cons hg' he hh hc _ ih =>
    simp only [List.append_assoc]
    exact .cons hg' he hh hc ih

/-- Two lists with a gap between them that holds a comma are one list. -/
lemma Lists.append (h : Lists s tags) (hg : Gap g) (hc : ',' ∈ g) (h' : Lists s' tags') :
    Lists (s ++ (g ++ s')) (tags ++ tags') := by
  induction h with
  | last hg' he hh =>
    simp only [List.append_assoc, List.singleton_append]
    rw [← List.append_assoc _ g s']
    exact .cons hg' he (hh.append hg) (List.mem_append_right _ hc) h'
  | cons hg' he hh hc' _ ih =>
    simp only [List.append_assoc, List.cons_append]
    exact .cons hg' he hh hc' ih

/-! ### Lines -/

instance (s : Text) : Decidable (Gap s) := List.decidableBAll (fun c => isGap c = true) s

/-- The line is read as these elements, or it is a gap and there are none. -/
def Spells (line : Text) (tags : List Text) : Prop :=
  list? line = some tags ∨ Gap line ∧ tags = []

lemma spells_iff : Spells line tags ↔ Lists line tags ∨ Gap line ∧ tags = [] :=
  or_congr_left list?_eq_some_iff

lemma Spells.lists (h : Spells line tags) (hne : tags ≠ []) : Lists line tags :=
  (spells_iff.1 h).resolve_right fun hgap => hne hgap.2

lemma Spells.append (h : Spells line tags) (h' : Spells line' tags') :
    Spells (line ++ ", ".toList ++ line') (tags ++ tags') := by
  have hcomma : Gap ", ".toList := by decide
  rw [spells_iff] at h h' ⊢
  rw [List.append_assoc]
  rcases h with h | ⟨hg, rfl⟩
  · left
    rcases h' with h' | ⟨hg', rfl⟩
    · exact h.append hcomma (by decide) h'
    · rw [List.append_nil]
      exact h.append_gap (hcomma.append hg')
  · rcases h' with h' | ⟨hg', rfl⟩
    · exact Or.inl ((h'.gap_append hcomma).gap_append hg)
    · exact Or.inr ⟨hg.append (hcomma.append hg'), rfl⟩

lemma Spells.joinWith {lines : List Text} {parts : List (List Text)}
    (h : List.Forall₂ Spells lines parts) (hne : lines ≠ []) :
    Spells (joinWith ", ".toList lines) parts.flatten := by
  induction h with
  | nil => exact absurd rfl hne
  | @cons line tags lines parts hline hlines ih =>
    cases hlines with
    | nil => simpa [Text.joinWith] using hline
    | cons h hs =>
      rw [joinWith_cons (List.cons_ne_nil _ _), List.flatten_cons]
      exact hline.append (ih (List.cons_ne_nil _ _))

/-- **Lists of tags and the lines they are spread over**: a text is read just when it is a list, as
its elements in order; two texts put together are read as the elements of the one and then those of
the other, if there are any; and so are the lines of a header, however many there are. -/
theorem list?_of_lines :
    (∀ v tags, list? v = some tags ↔ Lists v tags) ∧
    (∀ v w tags tags', Spells v tags → Spells w tags' → ¬ (Gap v ∧ Gap w) →
      list? (v ++ ", ".toList ++ w) = some (tags ++ tags')) ∧
    ∀ headers name parts, List.Forall₂ Spells (Headers.lines headers name) parts →
      parts.flatten ≠ [] → ∃ list, Precondition.joined headers name = some list ∧
        list? list = some parts.flatten := by
  refine ⟨fun v tags => list?_eq_some_iff, fun v w tags tags' hv hw hgap => ?_,
    fun headers name parts h hne => ?_⟩
  · have hne : tags ++ tags' ≠ [] := by
      intro hnil
      obtain ⟨rfl, rfl⟩ := List.append_eq_nil_iff.1 hnil
      have hv' := (spells_iff.1 hv).resolve_left fun hl => hl.ne_nil rfl
      have hw' := (spells_iff.1 hw).resolve_left fun hl => hl.ne_nil rfl
      exact hgap ⟨hv'.1, hw'.1⟩
    exact list?_eq_some_iff.2 ((hv.append hw).lists hne)
  · have hlines : headers.lines name ≠ [] := by
      intro hnil
      rw [hnil, List.forall₂_nil_left_iff] at h
      exact hne (by rw [h]; rfl)
    exact ⟨_, Precondition.joined_of_ne_nil hlines,
      list?_eq_some_iff.2 ((Spells.joinWith h hlines).lists hne)⟩

theorem list?_of_lines_sample :
    list? "\"a, b\",".toList = some ["\"a, b\"".toList] ∧ Gap " ,".toList ∧
      list? "*".toList = some [['*']] ∧
      ∃ list, Precondition.joined
          [(HeaderName.ifNoneMatch, utf8 "\"a, b\",".toList),
            (HeaderName.ifNoneMatch, utf8 " ,".toList), (HeaderName.ifNoneMatch, utf8 "*".toList)]
          HeaderName.ifNoneMatch = some list ∧
        list? list = some ["\"a, b\"".toList, ['*']] := by
  have hfirst : list? "\"a, b\",".toList = some ["\"a, b\"".toList] := by decide
  have hgap : Gap " ,".toList := by decide
  have hlast : list? "*".toList = some [['*']] := by decide
  refine ⟨hfirst, hgap, hlast, ?_⟩
  exact list?_of_lines.2.2 _ _ [["\"a, b\"".toList], [], [['*']]]
    (.cons (Or.inl hfirst) (.cons (Or.inr ⟨hgap, rfl⟩) (.cons (Or.inl hlast) .nil))) (by decide)

end EntityTag

end Docroot

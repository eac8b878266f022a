import Mathlib.Tactic.Common
import Docroot.AccessLog
import Docroot.Proofs.Visible

/-!
The combined form of a log line. Referer and user agent stand in it between quotes, and nothing is
done about the quotes that they hold. Two entries that differ in them alone have one line just when
the quotes between the two fields can be found in two places.
-/

namespace Docroot.AccessEntry

open Text

/-- What stands between the referer and the user agent. -/
def divider : Text := ['"', ' ', '"']

/-- The second pair has its divider further to the right: the two dividers stand apart, or the one
begins with the quote that ends the other. -/
def Shifted (referer agent referer' agent' : Text) : Prop :=
  (∃ m, referer' = referer ++ divider ++ m ∧ agent = m ++ divider ++ agent') ∨
    (referer' = referer ++ ['"', ' '] ∧ agent = [' ', '"'] ++ agent')

lemma Shifted.append_eq {r u r' u' : Text} (h : Shifted r u r' u') :
    r ++ divider ++ u = r' ++ divider ++ u' := by
  rcases h with ⟨m, rfl, rfl⟩ | ⟨rfl, rfl⟩
  · simp only [List.append_assoc]
  · simp [divider]

/-- A divider that begins at the second character of another one does not match it; one that begins
at the third shares its last quote. -/
lemma cases_of_divider_append {u u' z : Text} (h : divider ++ u = z ++ (divider ++ u')) :
    (z = [] ∧ u = u') ∨ (z = ['"', ' '] ∧ u = [' ', '"'] ++ u') ∨
      ∃ m, z = divider ++ m ∧ u = m ++ divider ++ u' := by
  match z with
  | [] => exact Or.inl ⟨rfl, List.append_cancel_left h⟩
  | [a] => simp [divider] at h
  | [a, b] =>
    simp only [divider, List.cons_append, List.nil_append, List.cons.injEq, true_and] at h
    obtain ⟨rfl, rfl, rfl⟩ := h
    exact Or.inr (Or.inl ⟨rfl, rfl⟩)
  | a :: b :: c :: m =>
    simp only [divider, List.cons_append, List.nil_append, List.cons.injEq] at h
    obtain ⟨rfl, rfl, rfl, rfl⟩ := h
    exact Or.inr (Or.inr ⟨m, rfl, by simp [divider]⟩)

lemma shifted_of_append {r u z u' : Text} (h : divider ++ u = z ++ (divider ++ u')) :
    (r = r ++ z ∧ u = u') ∨ Shifted r u (r ++ z) u' := by
  rcases cases_of_divider_append h with ⟨rfl, rfl⟩ | ⟨rfl, rfl⟩ | ⟨m, rfl, rfl⟩
  · exact Or.inl ⟨(List.append_nil r).symm, rfl⟩
  · exact Or.inr (Or.inr ⟨rfl, rfl⟩)
  · exact Or.inr (Or.inl ⟨m, (List.append_assoc _ _ _).symm, rfl⟩)

lemma append_divider_eq_iff {r u r' u' : Text} :
    r ++ divider ++ u = r' ++ divider ++ u' ↔
      (r = r' ∧ u = u') ∨ Shifted r u r' u' ∨ Shifted r' u' r u := by
  constructor
  · intro h
    rw [List.append_assoc, List.append_assoc] at h
    rcases List.append_eq_append_iff.1 h with ⟨z, rfl, hz⟩ | ⟨z, rfl, hz⟩
    · exact (shifted_of_append hz).imp_right Or.inl
    · rcases shifted_of_append (r := r') hz with ⟨hr, hu⟩ | hs
      · exact Or.inl ⟨hr.symm, hu.symm⟩
      · exact Or.inr (Or.inr hs)
  · rintro (⟨rfl, rfl⟩ | hs | hs)
    · rfl
    · exact hs.append_eq
    · exact hs.append_eq.symm

/-- The entry of a request that is the same but for its referer and user agent. -/
def sentWith (e : AccessEntry) (referer agent : Option Text) : AccessEntry :=
  { e with referer := referer, userAgent := agent }

lemma format_sentWith (e : AccessEntry) (referer agent : Option Text) :
    (e.sentWith referer agent).format "combined".toList =
      e.common ++ [' ', '"'] ++ (orDash referer ++ divider ++ orDash agent) ++ ['"'] := by
  have hform : (e.sentWith referer agent).format "combined".toList =
      e.common ++ " \"".toList ++ orDash referer ++ "\" \"".toList ++ orDash agent ++ ['"'] :=
    if_pos rfl
  rw [hform]
  simp [divider]

/-- **The combined form.** Two requests that differ in referer and user agent alone have one line
just when the one pair is the other, or the other with its divider elsewhere. -/
theorem format_sentWith_eq_iff (e : AccessEntry) (r u r' u' : Option Text) :
    (e.sentWith r u).format "combined".toList = (e.sentWith r' u').format "combined".toList ↔
      (orDash r = orDash r' ∧ orDash u = orDash u') ∨
        Shifted (orDash r) (orDash u) (orDash r') (orDash u') ∨
          Shifted (orDash r') (orDash u') (orDash r) (orDash u) := by
  rw [format_sentWith, format_sentWith, List.append_left_inj, List.append_right_inj,
    append_divider_eq_iff]

/-- Two pairs of visible texts, and one line. -/
theorem one_line_of_two : ∃ (e : AccessEntry) (r u r' u' : Text),
    (Visible r ∧ Visible u ∧ Visible r' ∧ Visible u') ∧ r ≠ r' ∧ u ≠ u' ∧
      (e.sentWith (some r) (some u)).format "combined".toList =
        (e.sentWith (some r') (some u')).format "combined".toList :=
  ⟨{ remote := "::1".toList, time := { seconds := 0 }, method := "GET".toList, path := "/".toList },
    "a\" \"b".toList, "c".toList, "a".toList, "b\" \"c".toList, by decide, by decide, by decide,
    by decide⟩

end Docroot.AccessEntry

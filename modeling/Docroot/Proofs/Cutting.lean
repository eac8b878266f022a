import Mathlib.Data.List.Infix
import Mathlib.Tactic.Common
import Docroot.Text.Basic

/-!
Cutting octets at a row of octets. Bytes behind which the separator stands are cut off as they are
if the separator does not begin earlier, neither within them nor across their end. For a separator
whose first octet does not come again in it, this is so when it does not occur within them.
-/

namespace Docroot.Bytes

/-- The pieces between the occurrences of `sep`, from left to right, the occurrences not
overlapping. `skip` counts the octets of an occurrence that are still to be passed over. -/
def piecesFrom (sep : Bytes) : Nat → Bytes → List Bytes
  | _, [] => [[]]
  | skip + 1, _ :: r => piecesFrom sep skip r
  | 0, c :: r =>
    if sep.isPrefixOf (c :: r) then [] :: piecesFrom sep (sep.length - 1) r
    else (piecesFrom sep 0 r).modifyHead (c :: ·)

def pieces (sep s : Bytes) : List Bytes := piecesFrom sep 0 s

/-- In `s` with `sep` behind it, `sep` begins nowhere before the end of `s`. -/
def Clear (sep s : Bytes) : Prop := ¬ sep <:+: s ++ sep.dropLast

variable {sep s : Bytes} {c : UInt8}

namespace Clear

lemma sep_ne_nil (h : Clear sep s) : sep ≠ [] := by
  rintro rfl
  exact h List.nil_infix

lemma not_infix (h : Clear sep s) : ¬ sep <:+: s := by
  intro hi
  exact h (hi.trans (List.prefix_append s _).isInfix)

lemma length_le (h : Clear sep s) {p q rest : Bytes}
    (he : s ++ sep ++ rest = p ++ sep ++ q) : s.length ≤ p.length := by
  by_contra hlt
  have hsep := h.sep_ne_nil
  have hpos : 0 < sep.length := List.length_pos_of_ne_nil hsep
  have hp : p ++ sep <+: s ++ sep ++ rest := by
    rw [he]
    exact List.prefix_append _ q
  have hs : s ++ sep.dropLast <+: s ++ sep ++ rest := by
    rw [List.append_assoc]
    have hd := (List.dropLast_prefix sep).trans (List.prefix_append sep rest)
    exact (List.prefix_append_right_inj s).2 hd
  have hlen : (p ++ sep).length ≤ (s ++ sep.dropLast).length := by
    simp only [List.length_append, List.length_dropLast]
    omega
  have hin := List.prefix_of_prefix_length_le hp hs hlen
  exact h ((List.suffix_append p sep).isInfix.trans hin.isInfix)

lemma not_prefix (h : Clear sep (c :: s)) (rest : Bytes) : ¬ sep <+: c :: s ++ sep ++ rest := by
  rintro ⟨q, hq⟩
  have hle : (c :: s).length ≤ ([] : Bytes).length :=
    h.length_le (hq.symm.trans (by rw [List.nil_append]))
  simp at hle

end Clear

lemma clear_nil (h : sep ≠ []) : Clear sep [] := by
  intro hi
  have hl := hi.length_le
  have hpos : 0 < sep.length := List.length_pos_of_ne_nil h
  simp only [List.nil_append, List.length_dropLast] at hl
  omega

lemma clear_cons_iff :
    Clear sep (c :: s) ↔ ¬ sep <+: c :: (s ++ sep.dropLast) ∧ Clear sep s := by
  unfold Clear
  rw [List.cons_append, List.infix_cons_iff, not_or]

section

variable {w : Bytes}

lemma clear_cons_of_ne {a : UInt8} (ha : a ≠ c) (h : Clear (c :: w) s) :
    Clear (c :: w) (a :: s) := by
  refine clear_cons_iff.2 ⟨fun hp => ?_, h⟩
  exact ha (List.cons_prefix_cons.1 hp).1.symm

lemma clear_append {l : Bytes} (hl : c ∉ l) (h : Clear (c :: w) s) : Clear (c :: w) (l ++ s) := by
  induction l with
  | nil => exact h
  | cons a l ih =>
    rw [List.mem_cons, not_or] at hl
    exact clear_cons_of_ne (Ne.symm hl.1) (ih hl.2)

lemma clear_of_not_mem (hs : c ∉ s) : Clear (c :: w) s := by
  have h := clear_append hs (clear_nil (List.cons_ne_nil c w))
  rwa [List.append_nil] at h

lemma prefix_of_not_mem (hw : c ∉ w) {t : Bytes} (h : w <+: s ++ c :: t) : w <+: s := by
  rcases List.prefix_or_prefix_of_prefix h (List.prefix_append s _) with hs | ⟨z, rfl⟩
  · exact hs
  · rw [List.prefix_append_right_inj] at h
    cases z with
    | nil => rw [List.append_nil]
    | cons a z =>
      obtain ⟨rfl, -⟩ := List.cons_prefix_cons.1 h
      simp at hw

/-- An occurrence across the end would hold the first octet once more. -/
lemma clear_of_not_infix (hw : c ∉ w) (h : ¬ c :: w <:+: s) : Clear (c :: w) s := by
  induction s with
  | nil => exact clear_nil (List.cons_ne_nil c w)
  | cons a s ih =>
    rw [List.infix_cons_iff, not_or] at h
    refine clear_cons_iff.2 ⟨fun hp => h.1 ?_, ih h.2⟩
    obtain ⟨rfl, hr⟩ := List.cons_prefix_cons.1 hp
    refine List.cons_prefix_cons.2 ⟨rfl, ?_⟩
    cases w with
    | nil => exact List.nil_prefix
    | cons b w => exact prefix_of_not_mem hw hr

end

/-! ### Cutting -/

lemma dropInfix?_of_clear (h : Clear sep s) (rest : Bytes) :
    (s ++ sep ++ rest).dropInfix? sep = some (s, rest) := by
  rw [List.dropInfix?_eq_some_iff]
  refine ⟨⟨sep, rfl, beq_self_eq_true sep⟩, fun p i q he hi => ?_⟩
  obtain rfl := eq_of_beq hi
  exact h.length_le he

lemma piecesFrom_length (sep l r : Bytes) :
    piecesFrom sep l.length (l ++ r) = piecesFrom sep 0 r := by
  induction l with
  | nil => rfl
  | cons a l ih => exact ih

lemma pieces_append (h : Clear sep s) (rest : Bytes) :
    pieces sep (s ++ sep ++ rest) = s :: pieces sep rest := by
  induction s with
  | nil =>
    cases sep with
    | nil => exact absurd rfl h.sep_ne_nil
    | cons c w =>
      have hp : (c :: w).isPrefixOf (c :: (w ++ rest)) = true :=
        List.isPrefixOf_iff_prefix.2 ⟨rest, rfl⟩
      show piecesFrom (c :: w) 0 (c :: (w ++ rest)) = _
      rw [piecesFrom, if_pos hp]
      exact congrArg _ (piecesFrom_length _ w rest)
  | cons c s ih =>
    have hp : ¬ sep.isPrefixOf (c :: (s ++ sep ++ rest)) = true := by
      rw [List.isPrefixOf_iff_prefix]
      exact h.not_prefix rest
    show piecesFrom sep 0 (c :: (s ++ sep ++ rest)) = _
    rw [piecesFrom, if_neg hp]
    exact congrArg _ (ih (clear_cons_iff.1 h).2)

lemma pieces_of_not_infix (h : ¬ sep <:+: s) : pieces sep s = [s] := by
  induction s with
  | nil => rfl
  | cons c s ih =>
    rw [List.infix_cons_iff, not_or] at h
    have hp : ¬ sep.isPrefixOf (c :: s) = true := by
      rw [List.isPrefixOf_iff_prefix]
      exact h.1
    unfold pieces at ih ⊢
    rw [piecesFrom, if_neg hp, ih h.2]
    rfl

theorem pieces_flatMap {p : Bytes} {ps : List Bytes} (h : ∀ q ∈ p :: ps, Clear sep q) :
    pieces sep (p ++ ps.flatMap (sep ++ ·)) = p :: ps := by
  induction ps generalizing p with
  | nil =>
    have hp := h p List.mem_cons_self
    rw [List.flatMap_nil, List.append_nil]
    exact pieces_of_not_infix hp.not_infix
  | cons q ps ih =>
    rw [List.forall_mem_cons] at h
    rw [List.flatMap_cons, List.append_assoc, ← List.append_assoc, pieces_append h.1, ih h.2]

end Docroot.Bytes

import Mathlib.Tactic.Common
import Docroot.EntityTag.Basic
import Docroot.EntityTag.List

/-!
The grammar of tag lists. A text is read as a list just when it is made of elements with blanks,
tabs and commas around them, a comma at least between one and the next; and the elements are read in
their order, as they are written.
-/

namespace Docroot.EntityTag

/-- A stretch of blanks, tabs and commas. -/
def Gap (s : Text) : Prop := ∀ c ∈ s, isGap c = true

/-- A star, or a tag whose label has no quote in it. -/
inductive Element : Text → Prop
  | star : Element ['*']
  | tag (p : Parts) (h : '"' ∉ p.label) : Element p.write

/-- The text is a list of these elements. -/
inductive Lists : Text → List Text → Prop
  | last {g e h : Text} (hg : Gap g) (he : Element e) (hh : Gap h) : Lists (g ++ (e ++ h)) [e]
  | cons {g e h s : Text} {tags : List Text} (hg : Gap g) (he : Element e) (hh : Gap h)
      (hc : ',' ∈ h) (hs : Lists s tags) : Lists (g ++ (e ++ (h ++ s))) (e :: tags)

lemma gap_nil : Gap [] := fun _ h => absurd h List.not_mem_nil

lemma gap_cons {c : Char} {s : Text} : Gap (c :: s) ↔ isGap c = true ∧ Gap s :=
  List.forall_mem_cons

lemma Gap.append {s t : Text} (hs : Gap s) (ht : Gap t) : Gap (s ++ t) :=
  List.forall_mem_append.2 ⟨hs, ht⟩

lemma Lists.ne_nil {s : Text} {tags : List Text} (h : Lists s tags) : tags ≠ [] := by
  cases h <;> exact List.cons_ne_nil _ _

lemma Lists.element {s : Text} {tags : List Text} (h : Lists s tags) : ∀ e ∈ tags, Element e := by
  induction h with
  | last _ he _ => exact List.forall_mem_singleton.2 he
  | cons _ he _ _ _ ih => exact List.forall_mem_cons.2 ⟨he, ih⟩

/-! ### Every list is read -/

lemma scan_gap {g : Text} (hg : Gap g) (s : Text) : scan .gap (g ++ s) = scan .gap s := by
  induction g with
  | nil => rfl
  | cons c g ih =>
    obtain ⟨hc, hg⟩ := gap_cons.1 hg
    rw [List.cons_append, scan_gap_cons, if_pos hc, ih hg]

lemma scan_inside {label : Text} (h : '"' ∉ label) (reversed s : Text) :
    scan (.inside reversed) (label ++ '"' :: s) =
      (scan .closed s).map ((reversed.reverse ++ (label ++ ['"'])) :: ·) := by
  induction label generalizing reversed with
  | nil =>
    rw [List.nil_append, scan_inside_cons, if_pos rfl, List.reverse_cons]
    rfl
  | cons c label ih =>
    rw [List.mem_cons, not_or] at h
    rw [List.cons_append, scan_inside_cons, if_neg (Ne.symm h.1), ih h.2]
    simp

lemma scan_element {e : Text} (he : Element e) (s : Text) :
    scan .gap (e ++ s) = (scan .closed s).map (e :: ·) := by
  cases he with
  | star =>
    rw [List.cons_append, scan_gap_cons, if_neg (by decide), if_pos rfl]
    rfl
  | tag p h =>
    obtain ⟨weak, label⟩ := p
    cases weak with
    | false =>
      have hw : Parts.write ⟨false, label⟩ ++ s = '"' :: (label ++ '"' :: s) := by
        simp [Parts.write]
      rw [hw, scan_gap_cons, if_neg (by decide), if_neg (by decide), if_neg (by decide),
        if_pos rfl, scan_inside h]
      rfl
    | true =>
      have hw : Parts.write ⟨true, label⟩ ++ s = 'W' :: '/' :: '"' :: (label ++ '"' :: s) := by
        simp [Parts.write]
      rw [hw, scan_gap_cons, if_neg (by decide), if_neg (by decide), if_pos rfl, scan_weak_cons,
        if_pos rfl, scan_slash_cons, if_pos rfl, scan_inside h]
      rfl

lemma scan_closed_end {h : Text} (hh : Gap h) : scan .closed h = some [] := by
  induction h with
  | nil => rfl
  | cons c h ih =>
    obtain ⟨hc, hh⟩ := gap_cons.1 hh
    have hgap : scan .gap h = some [] := by
      have := scan_gap hh []
      rwa [List.append_nil] at this
    simp only [isGap, Bool.or_eq_true, beq_iff_eq] at hc
    rw [scan_closed_cons]
    split
    · exact hgap
    · next hcomma => rw [if_pos (hc.resolve_right hcomma), ih hh]

lemma scan_closed_comma {h : Text} (hh : Gap h) (hc : ',' ∈ h) (s : Text) :
    scan .closed (h ++ s) = scan .gap s := by
  induction h with
  | nil => exact absurd hc List.not_mem_nil
  | cons c h ih =>
    obtain ⟨hg, hh⟩ := gap_cons.1 hh
    simp only [isGap, Bool.or_eq_true, beq_iff_eq] at hg
    rw [List.cons_append, scan_closed_cons]
    split
    · exact scan_gap hh s
    · next hcomma =>
      rw [if_pos (hg.resolve_right hcomma)]
      exact ih hh ((List.mem_cons.1 hc).resolve_left (Ne.symm hcomma))

lemma Lists.scan {s : Text} {tags : List Text} (h : Lists s tags) : scan .gap s = some tags := by
  induction h with
  | last hg he hh => rw [scan_gap hg, scan_element he, scan_closed_end hh, Option.map_some]
  | cons hg he hh hc _ ih =>
    rw [scan_gap hg, scan_element he, scan_closed_comma hh hc, ih, Option.map_some]

/-! ### What is read is a list -/

lemma exists_of_scan_inside {reversed s : Text} {tags : List Text}
    (h : scan (.inside reversed) s = some tags) :
    ∃ label r rest, s = label ++ '"' :: r ∧ '"' ∉ label ∧ scan .closed r = some rest ∧
      tags = (reversed.reverse ++ (label ++ ['"'])) :: rest := by
  induction s generalizing reversed with
  | nil => cases h
  | cons c s ih =>
    rw [scan_inside_cons] at h
    split at h
    · next hc =>
      obtain ⟨rest, hr, rfl⟩ := Option.map_eq_some_iff.1 h
      exact ⟨[], s, rest, by rw [hc]; rfl, List.not_mem_nil, hr, by simp [hc]⟩
    · next hc =>
      obtain ⟨label, r, rest, rfl, hl, hr, rfl⟩ := ih h
      refine ⟨c :: label, r, rest, rfl, ?_, hr, by simp⟩
      rw [List.mem_cons, not_or]
      exact ⟨Ne.symm hc, hl⟩

lemma exists_of_scan_weak {s : Text} {tags : List Text} (h : scan .weak s = some tags) :
    ∃ label r rest, s = '/' :: '"' :: (label ++ '"' :: r) ∧ '"' ∉ label ∧
      scan .closed r = some rest ∧ tags = Parts.write ⟨true, label⟩ :: rest := by
  match s, h with
  | slash :: quote :: s, h =>
    rw [scan_weak_cons] at h
    split at h
    · next hslash =>
      rw [scan_slash_cons] at h
      split at h
      · next hquote =>
        obtain ⟨label, r, rest, rfl, hl, hr, rfl⟩ := exists_of_scan_inside h
        exact ⟨label, r, rest, by rw [hslash, hquote], hl, hr, rfl⟩
      · cases h
    · cases h
  | [slash], h =>
    rw [scan_weak_cons] at h
    split at h <;> cases h

/-- Behind an element there is a gap, with a comma in it if more is to be read. -/
lemma exists_of_scan_closed {s : Text} {tags : List Text} (h : scan .closed s = some tags) :
    Gap s ∧ tags = [] ∨
      ∃ g r, s = g ++ r ∧ Gap g ∧ ',' ∈ g ∧ scan .gap r = some tags := by
  induction s with
  | nil =>
    cases h
    exact Or.inl ⟨gap_nil, rfl⟩
  | cons c s ih =>
    rw [scan_closed_cons] at h
    split at h
    · next hc =>
      subst hc
      exact Or.inr ⟨[','], s, rfl, gap_cons.2 ⟨rfl, gap_nil⟩, List.mem_singleton_self _, h⟩
    · split at h
      · next hc =>
        have hgap : isGap c = true := by
          rcases hc with rfl | rfl <;> rfl
        rcases ih h with ⟨hs, rfl⟩ | ⟨g, r, rfl, hg, hcomma, hr⟩
        · exact Or.inl ⟨gap_cons.2 ⟨hgap, hs⟩, rfl⟩
        · exact Or.inr ⟨c :: g, r, rfl, gap_cons.2 ⟨hgap, hg⟩, List.mem_cons_of_mem c hcomma, hr⟩
      · cases h

lemma exists_of_scan_gap {s : Text} {tags : List Text} (h : scan .gap s = some tags) :
    Gap s ∧ tags = [] ∨
      ∃ g e r rest, s = g ++ (e ++ r) ∧ Gap g ∧ Element e ∧ scan .closed r = some rest ∧
        tags = e :: rest := by
  induction s with
  | nil =>
    cases h
    exact Or.inl ⟨gap_nil, rfl⟩
  | cons c s ih =>
    rw [scan_gap_cons] at h
    split at h
    · next hc =>
      rcases ih h with ⟨hs, rfl⟩ | ⟨g, e, r, rest, rfl, hg, he, hr, rfl⟩
      · exact Or.inl ⟨gap_cons.2 ⟨hc, hs⟩, rfl⟩
      · exact Or.inr ⟨c :: g, e, r, rest, rfl, gap_cons.2 ⟨hc, hg⟩, he, hr, rfl⟩
    · right
      split at h
      · next hc =>
        subst hc
        obtain ⟨rest, hr, rfl⟩ := Option.map_eq_some_iff.1 h
        exact ⟨[], ['*'], s, rest, rfl, gap_nil, .star, hr, rfl⟩
      · split at h
        · next hc =>
          subst hc
          obtain ⟨label, r, rest, rfl, hl, hr, rfl⟩ := exists_of_scan_weak h
          exact ⟨[], Parts.write ⟨true, label⟩, r, rest, by simp [Parts.write], gap_nil,
            .tag ⟨true, label⟩ hl, hr, rfl⟩
        · split at h
          · next hc =>
            subst hc
            obtain ⟨label, r, rest, rfl, hl, hr, rfl⟩ := exists_of_scan_inside h
            exact ⟨[], Parts.write ⟨false, label⟩, r, rest, by simp [Parts.write], gap_nil,
              .tag ⟨false, label⟩ hl, hr, rfl⟩
          · cases h

lemma lists_of_scan {s : Text} {tags : List Text} (h : scan .gap s = some tags) :
    Gap s ∧ tags = [] ∨ Lists s tags := by
  induction tags generalizing s with
  | nil =>
    rcases exists_of_scan_gap h with hs | ⟨_, _, _, _, _, _, _, _, hn⟩
    · exact Or.inl hs
    · cases hn
  | cons e tags ih =>
    right
    rcases exists_of_scan_gap h with ⟨_, hn⟩ | ⟨g, e', r, rest, rfl, hg, he, hr, ht⟩
    · cases hn
    · cases ht
      rcases exists_of_scan_closed hr with ⟨hgap, rfl⟩ | ⟨k, r, rfl, hk, hc, hr⟩
      · exact .last hg he hgap
      · rcases ih hr with ⟨hgap, rfl⟩ | hl
        · -- nothing but a gap is left behind the comma
          exact .last hg he (hk.append hgap)
        · exact .cons hg he hk hc hl

/-- **The grammar of tag lists**: a text is read as these elements just when it is a list of them.
-/
theorem list?_eq_some_iff {s : Text} {tags : List Text} : list? s = some tags ↔ Lists s tags := by
  unfold list?
  rw [Option.filter_eq_some_iff]
  constructor
  · rintro ⟨hs, hne⟩
    rcases lists_of_scan hs with ⟨-, rfl⟩ | hl
    · cases hne
    · exact hl
  · intro hl
    refine ⟨hl.scan, ?_⟩
    cases tags with
    | nil => exact absurd rfl hl.ne_nil
    | cons e tags => rfl

lemma list?_eq_none_iff {s : Text} : list? s = none ↔ ∀ tags, ¬ Lists s tags := by
  simp only [Option.eq_none_iff_forall_ne_some, ne_eq, list?_eq_some_iff]

end Docroot.EntityTag

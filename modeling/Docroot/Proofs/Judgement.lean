import Mathlib.Tactic.Common
import Docroot.Proofs.Answer
import Docroot.Proofs.Canonical
import Docroot.Proofs.Visible

/-!
Judging the preconditions of a request. Tags come first, and a date decides what they leave open;
the judgement stops with a malformed list of tags, or where it asks for the date of a content that
was modified before 1970 or after 9999.
-/

namespace Docroot

open Text

/-- The point lies in the years 1970 to 9999. -/
def Timestamp.Dated (t : Timestamp) : Prop := 0 ≤ t.nanos ∧ t.epochSeconds < HttpDate.endOfYears

/-- Every object of the tree was modified in these years. -/
def Tree.Dated (t : Tree) : Prop := ∀ p e, t.find? p = some e → e.modified.Dated

instance (t : Timestamp) : Decidable t.Dated :=
  inferInstanceAs (Decidable (0 ≤ t.nanos ∧ t.epochSeconds < HttpDate.endOfYears))

lemma HttpDate.format?_eq_none_iff {t : Timestamp} : format? t = none ↔ ¬ t.Dated := by
  unfold format? Timestamp.Dated
  split
  · next h =>
    refine iff_of_true rfl ?_
    omega
  · next h =>
    refine iff_of_false (fun hn => by cases hn) (not_not.2 ?_)
    omega

lemma Timestamp.Dated.exists_format? {t : Timestamp} (h : t.Dated) :
    ∃ date, HttpDate.format? t = some date :=
  Option.ne_none_iff_exists'.1 fun hn => HttpDate.format?_eq_none_iff.1 hn h

lemma Tree.dated_of_entries {t : Tree} (h : ∀ x ∈ t.entries, x.2.modified.Dated) : t.Dated := by
  intro p e he
  rcases mem_entries_of_find? he with rfl | hm
  · exact ⟨Int.le_refl 0, by decide⟩
  · exact h _ hm

/-- Work comes to an end: if it stops, it is with a failure that a reply can tell of. -/
def Ends {α : Type} (x : Except Abort α) : Prop := x ≠ .error .undatable

namespace Ends

variable {α β : Type}

lemma ok (a : α) : Ends (.ok a : Except Abort α) := by
  intro h
  cases h

lemma failed (f : Failure) : Ends (.error (.failed f) : Except Abort α) := by
  intro h
  cases h

lemma map {x : Except Abort α} {f : α → β} (hx : Ends x) : Ends (x.map f) := by
  cases x with
  | error e =>
    intro h
    cases h
    exact hx rfl
  | ok a => exact ok (f a)

end Ends

/-- The time of modification lies before 1970 or after 9999. -/
def Resource.Undated (resource : Resource) : Prop :=
  ∃ modified, resource.modified = some modified ∧ ¬ modified.Dated

lemma Resource.lastModified_eq_undatable_iff {resource : Resource} :
    resource.lastModified = .error .undatable ↔ resource.Undated := by
  unfold lastModified Undated
  cases resource.modified with
  | none => simp
  | some modified =>
    simp only [Option.some.injEq, exists_eq_left', ← HttpDate.format?_eq_none_iff]
    cases HttpDate.format? modified <;> simp

lemma Resource.eq_undatable_of_lastModified {resource : Resource} {e : Abort}
    (h : resource.lastModified = .error e) : e = .undatable := by
  unfold lastModified at h
  split at h
  · cases h
  · split at h <;> cases h
    rfl

namespace Precondition

variable {headers : Headers} {resource : Resource} {useTags : Bool} {text : Text}

lemma joined_of_nil {name : Text} (h : headers.lines name = []) : joined headers name = none := by
  unfold joined
  rw [h]

lemma joined_of_ne_nil {name : Text} (h : headers.lines name ≠ []) :
    joined headers name = some (joinWith ", ".toList (headers.lines name)) := by
  unfold joined
  split
  · next hn => exact absurd hn h
  · rfl

lemma joined_of_line {name : Text} (h : headers.lines name = [text]) :
    joined headers name = some text := by
  unfold joined
  rw [h]
  rfl

lemma joined_eq_none {name : Text} (h : headers.getAll name = []) : joined headers name = none :=
  joined_of_nil (by rw [Headers.lines, h]; rfl)

lemma joined_eq_some {name : Text} (hv : Visible text) (h : headers.getAll name = [utf8 text]) :
    joined headers name = some text :=
  joined_of_line (by rw [Headers.lines, h, List.filterMap_cons_some (Bytes.visible?_utf8 hv)]; rfl)

lemma joined_of_single {name m : Text} (hv : Visible text)
    (h : ∀ m ∈ fieldNames, headers.getAll m = Headers.getAll [(name, utf8 text)] m)
    (hm : m ∈ fieldNames) : joined headers m = if name = m then some text else none := by
  have hg := h m hm
  rw [Headers.getAll_singleton] at hg
  split at hg
  · next he => rw [joined_eq_some hv hg, if_pos he]
  · next he => rw [joined_eq_none hg, if_neg he]

lemma joined_single_self {name : Text} (hv : Visible text)
    (h : ∀ m ∈ fieldNames, headers.getAll m = Headers.getAll [(name, utf8 text)] m)
    (hm : name ∈ fieldNames) : joined headers name = some text :=
  (joined_of_single hv h hm).trans (if_pos rfl)

lemma joined_single_other {name m : Text} (hv : Visible text)
    (h : ∀ m ∈ fieldNames, headers.getAll m = Headers.getAll [(name, utf8 text)] m)
    (hm : m ∈ fieldNames) (hne : name ≠ m) : joined headers m = none :=
  (joined_of_single hv h hm).trans (if_neg hne)

def malformed (list : Text) : Abort :=
  .failed (.malformedPrecondition ("malformed entity-tag list: ".toList ++ list))

lemma stopsFor_covering {Q : Abort → Prop} (own : Text) {list : Text} (h : Q (malformed list)) :
    StopsFor Q (covering own list) := by
  unfold covering
  split
  · exact .ok _
  · exact .error h

lemma stopsFor_byTags {Q : Abort → Prop} (own : Text) {ifMatch ifNoneMatch : Option Text}
    (hm : ∀ list, ifMatch = some list → Q (malformed list))
    (hn : ∀ list, ifNoneMatch = some list → Q (malformed list)) :
    StopsFor Q (byTags own ifMatch ifNoneMatch) := by
  unfold byTags
  extract_lets rest
  have hr : ∀ matched, StopsFor Q (rest matched) := by
    intro matched
    cases matched with
    | false => exact .ok _
    | true =>
      cases ifNoneMatch with
      | none => exact .ok _
      | some list =>
        refine (stopsFor_covering own (hn list rfl)).bind fun tag _ => ?_
        cases tag <;> exact .ok _
  cases ifMatch with
  | none => exact hr true
  | some list =>
    exact ((stopsFor_covering own (hm list rfl)).map _).bind fun matched _ => hr matched

/-- What the tags of a request say about a content, if it has one and tags are used. -/
def decided (headers : Headers) (resource : Resource) (useTags : Bool) :
    Except Abort (Option Verdict) :=
  match resource.tag with
  | some tag =>
    if useTags then
      byTags (EntityTag.withSuffix tag []) (joined headers HeaderName.ifMatch)
        (joined headers HeaderName.ifNoneMatch)
    else .ok none
  | none => .ok none

/-- The date of a content is asked for, and the tags leave it open. -/
structure AsksDate (headers : Headers) (resource : Resource) (useTags : Bool) : Prop where
  isOpen : decided headers resource useTags = .ok none
  asked : (joined headers HeaderName.ifModifiedSince).isSome

lemma evaluate_eq (headers : Headers) (resource : Resource) (useTags : Bool) :
    evaluate headers resource useTags =
      match decided headers resource useTags with
      | .error e => .error e
      | .ok (some verdict) => .ok verdict
      | .ok none =>
        byDates resource (joined headers HeaderName.ifMatch).isSome
          (joined headers HeaderName.ifModifiedSince)
          (joined headers HeaderName.ifUnmodifiedSince) := by
  unfold evaluate decided
  cases resource.tag with
  | none => rfl
  | some tag =>
    cases useTags with
    | false => rfl
    | true =>
      simp only [if_true]
      rcases byTags (EntityTag.withSuffix tag []) (joined headers HeaderName.ifMatch)
        (joined headers HeaderName.ifNoneMatch) with e | _ | verdict <;> rfl

lemma stopsFor_decided {Q : Abort → Prop}
    (h : ∀ name list, joined headers name = some list → Q (malformed list)) :
    StopsFor Q (decided headers resource useTags) := by
  unfold decided
  split
  · split
    · exact stopsFor_byTags _ (h _) (h _)
    · exact .ok _
  · exact .ok _

lemma ends_decided : Ends (decided headers resource useTags) := by
  have h : StopsFor (· ≠ .undatable) (decided headers resource useTags) :=
    stopsFor_decided fun _ _ _ he => by cases he
  exact fun he => h _ he rfl

lemma evaluate_of_no_tags (h1 : joined headers HeaderName.ifMatch = none)
    (h2 : joined headers HeaderName.ifNoneMatch = none) :
    evaluate headers resource useTags =
      byDates resource false (joined headers HeaderName.ifModifiedSince)
        (joined headers HeaderName.ifUnmodifiedSince) := by
  unfold evaluate
  rw [h1, h2]
  cases resource.tag with
  | none => rfl
  | some tag => cases useTags <;> rfl

lemma unchangedSince_eq_error_iff (date : Text) {e : Abort} :
    unchangedSince resource date = .error e ↔ resource.lastModified = .error e := by
  unfold unchangedSince
  cases hm : resource.modified with
  | none => simp [Resource.lastModified, hm, pure, Except.pure]
  | some modified =>
    rcases resource.lastModified with e' | own
    · simp [bind, Except.bind]
    · by_cases ho : own = some date <;> simp [ho, bind, Except.bind, pure, Except.pure]

/-- What the dates say, once it is known whether the content is unchanged since the first of them.
-/
def dateVerdict (resource : Resource) (hasIfMatch : Bool) (ifUnmodifiedSince : Option Text)
    (unchanged : Bool) : Verdict :=
  if unchanged then .notModified none
  else if !hasIfMatch && ifUnmodifiedSince.any (changedSince resource) then .failed
  else .proceed

lemma byDates_eq_map {hasIfMatch : Bool} {ims ius : Option Text} :
    byDates resource hasIfMatch ims ius =
      (ims.elim (.ok false) (unchangedSince resource)).map
        (dateVerdict resource hasIfMatch ius) := by
  unfold byDates
  extract_lets rest
  have hrest : ∀ unchanged,
      rest unchanged = .ok (dateVerdict resource hasIfMatch ius unchanged) := by
    intro unchanged
    cases unchanged with
    | true => rfl
    | false =>
      simp only [rest, dateVerdict, Bool.false_eq_true, if_false]
      split <;> rfl
  cases ims with
  | none => exact hrest false
  | some date =>
    show (unchangedSince resource date >>= rest) = (unchangedSince resource date).map _
    cases unchangedSince resource date with
    | error e => rfl
    | ok unchanged => exact hrest unchanged

lemma byDates_eq_error_iff {hasIfMatch : Bool} {ims ius : Option Text} {e : Abort} :
    byDates resource hasIfMatch ims ius = .error e ↔
      ims.isSome ∧ resource.lastModified = .error e := by
  rw [byDates_eq_map]
  cases ims with
  | none => simp [Except.map]
  | some date =>
    rw [← unchangedSince_eq_error_iff date, Option.elim_some]
    cases unchangedSince resource date <;> simp [Except.map]

/-- The preconditions cannot be judged just when they ask for a date that has no written form. -/
lemma evaluate_eq_undatable_iff :
    evaluate headers resource useTags = .error .undatable ↔
      AsksDate headers resource useTags ∧ resource.Undated := by
  have hd : Ends (decided headers resource useTags) := ends_decided
  rw [evaluate_eq, ← Resource.lastModified_eq_undatable_iff]
  constructor
  · intro h
    split at h
    · next e he =>
      cases h
      exact absurd he hd
    · cases h
    · next he =>
      obtain ⟨ha, hu⟩ := byDates_eq_error_iff.1 h
      exact ⟨⟨he, ha⟩, hu⟩
  · rintro ⟨⟨hopen, ha⟩, hu⟩
    simp only [hopen]
    exact byDates_eq_error_iff.2 ⟨ha, hu⟩

lemma ends_evaluate (h : Ends resource.lastModified) (headers : Headers) (useTags : Bool) :
    Ends (evaluate headers resource useTags) := fun he =>
  h (Resource.lastModified_eq_undatable_iff.2 (evaluate_eq_undatable_iff.1 he).2)

end Precondition

end Docroot

import Mathlib.Tactic.Common
import Docroot.Proofs.Dates
import Docroot.Proofs.TagPreconditions

/-!
Preconditions on dates. Times are compared at whole seconds, and a date that is the written date of
the content is no exception. Where the tags leave the request to the dates, it is first asked
whether the content is unchanged since the one date, and only then whether it has changed since the
other.
-/

namespace Docroot

open Text

namespace Timestamp

lemma epochSeconds_of_format? {t : Timestamp} {date : Text} (h : HttpDate.format? t = some date) :
    ∃ d, HttpDate.parse? date = some d ∧ d.epochSeconds = t.epochSeconds :=
  ⟨_, HttpDate.parse?_of_format? h, by rw [epochSeconds, seconds_ofSeconds, epochSeconds]⟩

lemma Dated.seconds_nonneg {t : Timestamp} (h : t.Dated) : 0 ≤ t.seconds :=
  Int.ediv_nonneg h.1 (by decide)

lemma Dated.epochSeconds_le_iff {t d : Timestamp} (ht : t.Dated) (hd : d.Dated) :
    t.epochSeconds ≤ d.epochSeconds ↔ t.seconds ≤ d.seconds := by
  have h0 := ht.seconds_nonneg
  have h1 := hd.seconds_nonneg
  unfold epochSeconds
  omega

end Timestamp

namespace Precondition

open EntityTag

variable {headers : Headers} {resource : Resource} {useTags : Bool} {t d : Timestamp}
  {own date text : Text}

/-! ### The comparison with one date -/

/-- Whether a text is a date, and the second of the date is that of `t` or a later one. -/
def reaches (t : Timestamp) (text : Text) : Bool :=
  (HttpDate.parse? text).any fun d => decide (t.epochSeconds ≤ d.epochSeconds)

/-- The content's own date reaches the content: it need not be read. -/
lemma reaches_of_format? (h : HttpDate.format? t = some own) : reaches t own = true := by
  obtain ⟨d, hd, he⟩ := Timestamp.epochSeconds_of_format? h
  unfold reaches
  rw [hd, Option.any_some, he]
  exact decide_eq_true (Nat.le_refl _)

/-- That dates which are written alike are not compared makes no difference. -/
lemma unchangedSince_of_dated (hm : resource.modified = some t) (ht : t.Dated) (text : Text) :
    unchangedSince resource text = .ok (reaches t text) := by
  obtain ⟨own, ho⟩ := ht.exists_format?
  have hl : resource.lastModified = .ok (some own) := by
    unfold Resource.lastModified
    simp only [hm, ho]
  unfold unchangedSince
  simp only [hm, hl, Except.bind, bind]
  by_cases he : own = text
  · subst he
    rw [if_pos rfl, reaches_of_format? ho]
    rfl
  · rw [if_neg fun h => he (Option.some.inj h)]
    rfl

lemma reaches_eq (hd : HttpDate.parse? text = some d) :
    reaches t text = decide (t.epochSeconds ≤ d.epochSeconds) := by
  unfold reaches
  rw [hd]
  rfl

lemma changedSince_eq (hm : resource.modified = some t) (hd : HttpDate.parse? text = some d) :
    changedSince resource text = decide (d.epochSeconds < t.epochSeconds) := by
  unfold changedSince
  rw [hm, hd]
  rfl

lemma unchangedSince_of_format? (hm : resource.modified = some t)
    (ho : HttpDate.format? t = some own) (hs : HttpDate.format? d = some date) :
    unchangedSince resource date = .ok (decide (t.epochSeconds ≤ d.epochSeconds)) := by
  have ht : t.Dated := not_not.1 fun hn => by
    rw [HttpDate.format?_eq_none_iff.2 hn] at ho
    cases ho
  obtain ⟨p, hp, he⟩ := Timestamp.epochSeconds_of_format? hs
  rw [unchangedSince_of_dated hm ht, reaches_eq hp, he]

lemma changedSince_of_format? (hm : resource.modified = some t)
    (hs : HttpDate.format? d = some date) :
    changedSince resource date = decide (d.epochSeconds < t.epochSeconds) := by
  obtain ⟨p, hp, he⟩ := Timestamp.epochSeconds_of_format? hs
  rw [changedSince_eq hm hp, he]

/-! ### A date alone -/

lemma evaluate_ifModifiedSince (resource : Resource) (useTags : Bool) (hv : Visible date)
    (h : ∀ m ∈ fieldNames,
      headers.getAll m = Headers.getAll [(HeaderName.ifModifiedSince, utf8 date)] m) :
    evaluate headers resource useTags =
      (unchangedSince resource date).map fun unchanged =>
        if unchanged then .notModified none else .proceed := by
  rw [evaluate_of_no_tags (joined_single_other hv h (by decide) (by decide))
      (joined_single_other hv h (by decide) (by decide)),
    joined_single_self hv h (by decide), joined_single_other hv h (by decide) (by decide)]
  rcases hu : unchangedSince resource date with e | _ | _ <;>
    simp [byDates, hu, bind, Except.bind, pure, Except.pure, Except.map]

lemma evaluate_ifUnmodifiedSince (resource : Resource) (useTags : Bool) (hv : Visible date)
    (h : ∀ m ∈ fieldNames,
      headers.getAll m = Headers.getAll [(HeaderName.ifUnmodifiedSince, utf8 date)] m) :
    evaluate headers resource useTags =
      .ok (if changedSince resource date then .failed else .proceed) := by
  rw [evaluate_of_no_tags (joined_single_other hv h (by decide) (by decide))
      (joined_single_other hv h (by decide) (by decide)),
    joined_single_other hv h (by decide) (by decide), joined_single_self hv h (by decide)]
  cases hc : changedSince resource date <;>
    simp [byDates, hc, bind, Except.bind, pure, Except.pure]

/-- **A written date** is read as its second; and of a content of the years 1970 to 9999 it says
just what the two seconds say, whatever part of a second either point has. -/
theorem evaluate_of_written_date (hm : resource.modified = some t) (ht : t.Dated) (hd : d.Dated) :
    ∃ date, HttpDate.format? d = some date ∧
      HttpDate.parse? date = some (Timestamp.ofSeconds d.seconds) ∧
      (∀ text, unchangedSince resource text = .ok (reaches t text)) ∧
      ∀ headers useTags,
        ((∀ m ∈ fieldNames,
            headers.getAll m = Headers.getAll [(HeaderName.ifModifiedSince, utf8 date)] m) →
          evaluate headers resource useTags =
            .ok (if t.seconds ≤ d.seconds then .notModified none else .proceed)) ∧
        ((∀ m ∈ fieldNames,
            headers.getAll m = Headers.getAll [(HeaderName.ifUnmodifiedSince, utf8 date)] m) →
          evaluate headers resource useTags =
            .ok (if d.seconds < t.seconds then .failed else .proceed)) := by
  obtain ⟨own, ho⟩ := ht.exists_format?
  obtain ⟨date, hs⟩ := hd.exists_format?
  have hv := HttpDate.visible_of_format? hs
  have hle := ht.epochSeconds_le_iff hd
  have hlt : d.epochSeconds < t.epochSeconds ↔ d.seconds < t.seconds := by
    rw [← Nat.not_le, ← Int.not_le, hle]
  refine ⟨date, hs, HttpDate.parse?_of_format? hs, unchangedSince_of_dated hm ht,
    fun headers useTags => ⟨fun h => ?_, fun h => ?_⟩⟩
  · rw [evaluate_ifModifiedSince resource useTags hv h, unchangedSince_of_format? hm ho hs]
    simp only [Except.map, decide_eq_true_eq, hle]
  · rw [evaluate_ifUnmodifiedSince resource useTags hv h, changedSince_of_format? hm hs]
    simp only [decide_eq_true_eq, hlt]

end Precondition

namespace Sample

def secondBefore : Text := "Sun, 06 Nov 1994 08:49:36 GMT".toList

def sameSecond : Text := "Sun, 06 Nov 1994 08:49:37 GMT".toList

end Sample

namespace Precondition

open EntityTag

theorem evaluate_of_written_date_sample :
    evaluate [(HeaderName.ifModifiedSince, utf8 Sample.sameSecond)] Sample.content true =
        .ok (.notModified none) ∧
      evaluate [(HeaderName.ifUnmodifiedSince, utf8 Sample.sameSecond)] Sample.content true =
        .ok .proceed := by
  have hm : Sample.content.modified = some ⟨784111777500000000⟩ := rfl
  obtain ⟨date, hs, -, -, h⟩ := evaluate_of_written_date (d := ⟨784111777000000000⟩) hm
    (by decide) (by decide)
  have hw : HttpDate.format? ⟨784111777000000000⟩ = some Sample.sameSecond := by decide
  obtain rfl := Option.some.inj (hw.symm.trans hs)
  exact ⟨((h _ true).1 fun _ _ => rfl).trans (congrArg Except.ok (if_pos (by decide))),
    ((h _ true).2 fun _ _ => rfl).trans (congrArg Except.ok (if_neg (by decide)))⟩

/-! ### A date that the content must not be newer than, and other preconditions -/

variable {headers : Headers} {resource : Resource} {useTags : Bool} {t d : Timestamp} {date : Text}

lemma decided_of_open (h : useTags = false ∨ resource.tag = none ∨
    headers.lines HeaderName.ifMatch = [] ∧ headers.lines HeaderName.ifNoneMatch = []) :
    decided headers resource useTags = .ok none := by
  rcases h with rfl | ht | ⟨hm, hn⟩
  · unfold decided
    cases resource.tag <;> rfl
  · unfold decided
    rw [ht]
  · unfold decided
    rw [joined_of_nil hm, joined_of_nil hn]
    cases resource.tag <;> cases useTags <;> rfl

lemma byDates_eq (hm : resource.modified = some t) {since : Option Text}
    (h : since = none ∨ t.Dated) (hasIfMatch : Bool) (unmodifiedSince : Option Text) :
    byDates resource hasIfMatch since unmodifiedSince =
      .ok (if since.any (reaches t) then .notModified none
        else if !hasIfMatch && unmodifiedSince.any (changedSince resource) then .failed
        else .proceed) := by
  rw [byDates_eq_map]
  cases since with
  | none => rfl
  | some text =>
    have ht : t.Dated := h.resolve_left (Option.some_ne_none _)
    rw [Option.elim_some, unchangedSince_of_dated hm ht]
    rfl

/-- **A date that the content is newer than** makes the request fail, where no header asks for one
of its tags, unless something is said before: a list of tags that is looked at decides alone, and a
date that the content must be newer than, and is not, comes first too. -/
theorem evaluate_of_changed (hm : resource.modified = some t)
    (hnone : headers.lines HeaderName.ifMatch = [])
    (hline : headers.lines HeaderName.ifUnmodifiedSince = [date])
    (hd : HttpDate.parse? date = some d) (hlt : d.epochSeconds < t.epochSeconds) (useTags : Bool) :
    (∀ own tags, useTags = true → resource.tag = some own →
        Gives (headers.lines HeaderName.ifNoneMatch) tags →
        evaluate headers resource useTags =
          .ok (verdictOn (tags.find? (covers (withSuffix own []))))) ∧
      (useTags = false ∨ resource.tag = none ∨ headers.lines HeaderName.ifNoneMatch = [] →
        headers.lines HeaderName.ifModifiedSince = [] ∨ t.epochSeconds < HttpDate.endOfYears →
        evaluate headers resource useTags =
          .ok (if (joined headers HeaderName.ifModifiedSince).any (reaches t) then .notModified none
            else .failed)) := by
  constructor
  -- tags are looked at first and leave nothing to the dates
  · rintro own tags rfl ht hg
    refine evaluate_of_decided ?_
    rw [decided_of_tag ht, joined_of_nil hnone, joined_of_ne_nil hg.1, byTags_none_some,
      covering_of_gives hg]
    rfl
  · intro hopen hdated
    have hchanged : changedSince resource date = true := by
      rw [changedSince_eq hm hd]
      exact decide_eq_true hlt
    have hdated : joined headers HeaderName.ifModifiedSince = none ∨ t.Dated := by
      refine hdated.imp joined_of_nil fun hend => ⟨?_, hend⟩
      unfold Timestamp.epochSeconds Timestamp.seconds at hlt
      omega
    rw [evaluate_eq, decided_of_open (hopen.imp_right (Or.imp_right fun h => ⟨hnone, h⟩))]
    simp only [byDates_eq hm hdated, joined_of_nil hnone, joined_of_line hline, Option.isSome_none,
      Bool.not_false, Bool.true_and, Option.any_some, hchanged, if_true]

theorem evaluate_of_changed_sample :
    evaluate [(HeaderName.ifNoneMatch, utf8 "\"abc\"".toList),
        (HeaderName.ifModifiedSince, utf8 Sample.secondBefore),
        (HeaderName.ifUnmodifiedSince, utf8 Sample.secondBefore)] Sample.content false =
      .ok .failed := by
  have hm : Sample.content.modified = some ⟨784111777500000000⟩ := rfl
  have hline : Headers.lines [(HeaderName.ifNoneMatch, utf8 "\"abc\"".toList),
      (HeaderName.ifModifiedSince, utf8 Sample.secondBefore),
      (HeaderName.ifUnmodifiedSince, utf8 Sample.secondBefore)] HeaderName.ifUnmodifiedSince =
        [Sample.secondBefore] := by decide
  have hd : HttpDate.parse? Sample.secondBefore = some ⟨784111776000000000⟩ := by decide +kernel
  obtain ⟨-, h⟩ := evaluate_of_changed hm rfl hline hd (by decide) false
  exact (h (Or.inl rfl) (Or.inr (by decide))).trans
    (congrArg Except.ok (if_neg (by decide +kernel)))

/-- The content is newer than the date that it must not be newer than; but a list without its tag
lets it pass, a later date finds it unmodified, and one that it cannot be compared with stops the
judgement. -/
theorem changed_but_passed_over :
    Sample.content.modified = some ⟨784111777500000000⟩ ∧
      HttpDate.parse? Sample.secondBefore = some ⟨784111776000000000⟩ ∧
      evaluate [(HeaderName.ifNoneMatch, utf8 "\"other\"".toList),
        (HeaderName.ifUnmodifiedSince, utf8 Sample.secondBefore)] Sample.content true =
      .ok .proceed ∧
      evaluate [(HeaderName.ifModifiedSince, utf8 Sample.sameSecond),
        (HeaderName.ifUnmodifiedSince, utf8 Sample.secondBefore)] Sample.content true =
          .ok (.notModified none) ∧
      evaluate [(HeaderName.ifModifiedSince, utf8 Sample.sameSecond),
        (HeaderName.ifUnmodifiedSince, utf8 Sample.secondBefore)]
        { Sample.content with modified := some ⟨253402300800000000000⟩ } true =
          .error .undatable := by
  refine ⟨rfl, by decide +kernel, ?_, ?_, ?_⟩
  · rfl
  · rfl
  · rfl

end Precondition

end Docroot

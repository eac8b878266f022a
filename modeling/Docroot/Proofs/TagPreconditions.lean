import Mathlib.Tactic.Common
import Docroot.Proofs.Judgement
import Docroot.Proofs.Tags

/-!
Preconditions on tags. A tag that must stand for the content is looked for first, then a tag that
must not, and where a list is malformed the judgement stops. Only a request whose first list lets
the content pass, or is not there, and that has no second list is left to the dates. A content
stands for its own tag, if the label of that tag has no two suffixes.
-/

namespace Docroot

open Text

namespace EntityTag

/-- A tag of a request stands for the content with the label `o`: it is a star, or its label, cut at
its last two dashes, is `o`. -/
inductive Stands (o : Text) : Text → Prop
  | star : Stands o ['*']
  | label (p : Parts) (h : Cut p.label o) : Stands o p.write

lemma stands_write_iff {o : Text} {p : Parts} : Stands o p.write ↔ Cut p.label o := by
  refine ⟨fun h => ?_, .label p⟩
  generalize hw : p.write = tag at h
  cases h with
  | star => exact absurd hw (write_ne_star p)
  | label q h =>
    obtain rfl : p = q := by rw [← parts_write p, hw, parts_write]
    exact h

lemma covers_iff_stands {p : Parts} (hp : ¬ ['-', '-'] <:+: p.label) {tag : Text}
    (ht : Element tag) : covers p.write tag = true ↔ Stands p.label tag := by
  cases ht with
  | star => exact iff_of_true rfl .star
  | tag q h =>
    rw [covers_write, parts_write, stands_write_iff, ← base_eq_iff, base_eq_iff.2 (.whole hp)]
    exact eq_comm

end EntityTag

namespace Precondition

open EntityTag

variable {headers : Headers} {resource : Resource} {own list tag : Text} {lines tags : List Text}

/-! ### Lists in headers -/

/-- A header with these lines, put together, is a list of these elements. -/
def Gives (lines tags : List Text) : Prop :=
  lines ≠ [] ∧ Lists (joinWith ", ".toList lines) tags

/-- A header with these lines is there, and is no list. -/
def Unreadable (lines : List Text) : Prop :=
  lines ≠ [] ∧ ∀ tags, ¬ Lists (joinWith ", ".toList lines) tags

lemma gives_or_unreadable (h : lines ≠ []) : (∃ tags, Gives lines tags) ∨ Unreadable lines := by
  by_cases hl : ∃ tags, Lists (joinWith ", ".toList lines) tags
  · obtain ⟨tags, hl⟩ := hl
    exact Or.inl ⟨tags, h, hl⟩
  · exact Or.inr ⟨h, not_exists.1 hl⟩

lemma Gives.unique (h : Gives lines tags) {others : List Text} (h' : Gives lines others) :
    tags = others := by
  have hl := list?_eq_some_iff.2 h.2
  rw [list?_eq_some_iff.2 h'.2] at hl
  exact (Option.some.inj hl).symm

lemma covering_of_gives (h : Gives lines tags) (own : Text) :
    covering own (joinWith ", ".toList lines) = .ok (tags.find? (covers own)) := by
  unfold covering
  rw [list?_eq_some_iff.2 h.2]

lemma covering_of_unreadable (h : Unreadable lines) (own : Text) :
    covering own (joinWith ", ".toList lines) =
      .error (malformed (joinWith ", ".toList lines)) := by
  unfold covering
  rw [list?_eq_none_iff.2 h.2]
  rfl

/-! ### The judgement of the tags -/

lemma byTags_of_error {e : Abort} (h : covering own list = .error e) (ifNoneMatch : Option Text) :
    byTags own (some list) ifNoneMatch = .error e := by
  unfold byTags
  simp only [h]
  rfl

lemma byTags_of_uncovered (h : covering own list = .ok none) (ifNoneMatch : Option Text) :
    byTags own (some list) ifNoneMatch = .ok (some .failed) := by
  unfold byTags
  simp only [h]
  rfl

lemma byTags_of_covered (h : covering own list = .ok (some tag)) (ifNoneMatch : Option Text) :
    byTags own (some list) ifNoneMatch = byTags own none ifNoneMatch := by
  unfold byTags
  simp only [h]
  rfl

/-- The verdict of a list of tags none of which must stand for the content. -/
def verdictOn (found : Option Text) : Verdict :=
  match found with
  | some tag => .notModified (some tag)
  | none => .proceed

lemma byTags_none_some (own list : Text) :
    byTags own none (some list) = (covering own list).map fun found => some (verdictOn found) := by
  unfold byTags
  rcases hc : covering own list with e | _ | tag <;>
    simp [hc, bind, Except.bind, pure, Except.pure, Except.map, verdictOn]

lemma decided_of_tag (ht : resource.tag = some own) :
    decided headers resource true = byTags (withSuffix own []) (joined headers HeaderName.ifMatch)
      (joined headers HeaderName.ifNoneMatch) := by
  unfold decided
  rw [ht]
  rfl

/-- A header that asks for one of its tags lets the content with the label `o` pass: it is not
there, or one of its tags stands for the content. -/
def Passes (o : Text) (ifMatch : List Text) : Prop :=
  ifMatch = [] ∨ ∃ tags, Gives ifMatch tags ∧ ∃ tag ∈ tags, Stands o tag

/-- What the lines of the two headers say about the content with the label `o`. -/
inductive TagsSay (o : Text) (ifMatch ifNoneMatch : List Text) : Except Abort Verdict → Prop
  | unreadableFirst (h : Unreadable ifMatch) :
      TagsSay o ifMatch ifNoneMatch (.error (malformed (joinWith ", ".toList ifMatch)))
  | missed {tags : List Text} (h : Gives ifMatch tags) (hn : ∀ tag ∈ tags, ¬ Stands o tag) :
      TagsSay o ifMatch ifNoneMatch (.ok .failed)
  | unreadableSecond (hp : Passes o ifMatch) (h : Unreadable ifNoneMatch) :
      TagsSay o ifMatch ifNoneMatch (.error (malformed (joinWith ", ".toList ifNoneMatch)))
  | found {before after : List Text} {tag : Text} (hp : Passes o ifMatch)
      (h : Gives ifNoneMatch (before ++ tag :: after)) (hn : ∀ other ∈ before, ¬ Stands o other)
      (ht : Stands o tag) : TagsSay o ifMatch ifNoneMatch (.ok (.notModified (some tag)))
  | noneFound {tags : List Text} (hp : Passes o ifMatch) (h : Gives ifNoneMatch tags)
      (hn : ∀ tag ∈ tags, ¬ Stands o tag) : TagsSay o ifMatch ifNoneMatch (.ok .proceed)

lemma exists_first {o : Text} (h : ∃ tag ∈ tags, Stands o tag) :
    ∃ before tag after, tags = before ++ tag :: after ∧ (∀ other ∈ before, ¬ Stands o other) ∧
      Stands o tag := by
  induction tags with
  | nil =>
    obtain ⟨tag, hm, -⟩ := h
    exact absurd hm List.not_mem_nil
  | cons first tags ih =>
    by_cases hf : Stands o first
    · exact ⟨[], first, tags, rfl, fun _ hm => absurd hm List.not_mem_nil, hf⟩
    · obtain ⟨tag, hm, ht⟩ := h
      have hm : tag ∈ tags := (List.mem_cons.1 hm).resolve_left fun he => hf (he ▸ ht)
      obtain ⟨before, tag, after, rfl, hn, ht⟩ := ih ⟨tag, hm, ht⟩
      exact ⟨first :: before, tag, after, rfl, List.forall_mem_cons.2 ⟨hf, hn⟩, ht⟩

/-- The tags say something, unless the first header lets the content pass and there is no second. -/
lemma exists_tagsSay_iff {o : Text} {ifMatch ifNoneMatch : List Text} :
    (∃ answer, TagsSay o ifMatch ifNoneMatch answer) ↔ ¬ (Passes o ifMatch ∧ ifNoneMatch = []) := by
  constructor
  · rintro ⟨answer, h⟩ ⟨hp, hnil⟩
    cases h with
    | unreadableFirst h =>
      -- a list that is passed is absent or can be read
      rcases hp with hp | ⟨tags, hg, -⟩
      · exact h.1 hp
      · exact h.2 tags hg.2
    | missed h hn =>
      rcases hp with hp | ⟨tags, hg, tag, hm, hs⟩
      · exact h.1 hp
      · rw [← h.unique hg] at hm
        exact hn tag hm hs
    | unreadableSecond _ h => exact h.1 hnil
    | found _ h => exact h.1 hnil
    | noneFound _ h => exact h.1 hnil
  · intro hopen
    by_cases hp : Passes o ifMatch
    · have hne : ifNoneMatch ≠ [] := fun hnil => hopen ⟨hp, hnil⟩
      rcases gives_or_unreadable hne with ⟨tags, hg⟩ | hu
      · by_cases hs : ∃ tag ∈ tags, Stands o tag
        · obtain ⟨before, tag, after, rfl, hn, ht⟩ := exists_first hs
          exact ⟨_, .found hp hg hn ht⟩
        · exact ⟨_, .noneFound hp hg fun tag hm ht => hs ⟨tag, hm, ht⟩⟩
      · exact ⟨_, .unreadableSecond hp hu⟩
    · have hne : ifMatch ≠ [] := fun hnil => hp (Or.inl hnil)
      rcases gives_or_unreadable hne with ⟨tags, hg⟩ | hu
      · exact ⟨_, .missed hg fun tag hm ht => hp (Or.inr ⟨tags, hg, tag, hm, ht⟩)⟩
      · exact ⟨_, .unreadableFirst hu⟩

section

variable {p : Parts}

lemma find?_covers_eq_none_iff (hp : ¬ ['-', '-'] <:+: p.label) (h : Gives lines tags) :
    tags.find? (covers p.write) = none ↔ ∀ tag ∈ tags, ¬ Stands p.label tag := by
  rw [List.find?_eq_none]
  refine forall₂_congr fun tag hm => not_congr ?_
  exact covers_iff_stands hp (h.2.element tag hm)

lemma find?_covers_of_first (hp : ¬ ['-', '-'] <:+: p.label) {before after : List Text}
    (h : Gives lines (before ++ tag :: after)) (hn : ∀ other ∈ before, ¬ Stands p.label other)
    (ht : Stands p.label tag) : (before ++ tag :: after).find? (covers p.write) = some tag := by
  have he := h.2.element
  rw [List.find?_eq_some_iff_append]
  refine ⟨(covers_iff_stands hp (he tag (by simp))).2 ht, before, after, rfl, fun other hm => ?_⟩
  have hs := mt (covers_iff_stands hp (he other (List.mem_append_left _ hm))).1 (hn other hm)
  simpa using hs

lemma byTags_of_passes (hp : ¬ ['-', '-'] <:+: p.label)
    (h : Passes p.label (headers.lines HeaderName.ifMatch)) (ifNoneMatch : Option Text) :
    byTags p.write (joined headers HeaderName.ifMatch) ifNoneMatch =
      byTags p.write none ifNoneMatch := by
  rcases h with h | ⟨tags, hg, hs⟩
  · rw [joined_of_nil h]
  · have hf : tags.find? (covers p.write) ≠ none := fun hn => by
      obtain ⟨tag, hm, ht⟩ := hs
      exact (find?_covers_eq_none_iff hp hg).1 hn tag hm ht
    obtain ⟨tag, htag⟩ := Option.ne_none_iff_exists'.1 hf
    rw [joined_of_ne_nil hg.1]
    exact byTags_of_covered ((covering_of_gives hg _).trans (congrArg _ htag)) _

lemma withSuffix_write_nil (hp : ¬ ['-', '-'] <:+: p.label) : withSuffix p.write [] = p.write := by
  rw [withSuffix_write, base_eq_iff.2 (.whole hp), List.append_nil]

lemma evaluate_of_decided {useTags : Bool} {answer : Except Abort Verdict}
    (h : decided headers resource useTags = answer.map some) :
    evaluate headers resource useTags = answer := by
  rw [evaluate_eq, h]
  cases answer <;> rfl

lemma decided_of_tagsSay (hp : ¬ ['-', '-'] <:+: p.label) (ht : resource.tag = some p.write)
    {answer : Except Abort Verdict}
    (h : TagsSay p.label (headers.lines HeaderName.ifMatch) (headers.lines HeaderName.ifNoneMatch)
      answer) : decided headers resource true = answer.map some := by
  rw [decided_of_tag ht, withSuffix_write_nil hp]
  cases h with
  | unreadableFirst h =>
    rw [joined_of_ne_nil h.1]
    exact byTags_of_error (covering_of_unreadable h _) _
  | missed h hn =>
    rw [joined_of_ne_nil h.1]
    refine byTags_of_uncovered ((covering_of_gives h _).trans (congrArg _ ?_)) _
    exact (find?_covers_eq_none_iff hp h).2 hn
  | unreadableSecond hpass h =>
    rw [byTags_of_passes hp hpass, joined_of_ne_nil h.1, byTags_none_some,
      covering_of_unreadable h]
    rfl
  | found hpass h hn ht =>
    rw [byTags_of_passes hp hpass, joined_of_ne_nil h.1, byTags_none_some, covering_of_gives h,
      find?_covers_of_first hp h hn ht]
    rfl
  | noneFound hpass h hn =>
    rw [byTags_of_passes hp hpass, joined_of_ne_nil h.1, byTags_none_some, covering_of_gives h,
      (find?_covers_eq_none_iff hp h).2 hn]
    rfl

/-- **The tags of a request**: what they say about a content whose own tag has no suffix is the
judgement, whatever the dates are. They say nothing only where the first header lets the content
pass and the second is not there. -/
theorem evaluate_of_tags (hp : ¬ ['-', '-'] <:+: p.label) (ht : resource.tag = some p.write)
    (headers : Headers) :
    (∀ answer, TagsSay p.label (headers.lines HeaderName.ifMatch)
        (headers.lines HeaderName.ifNoneMatch) answer → evaluate headers resource true = answer) ∧
      ((∃ answer, TagsSay p.label (headers.lines HeaderName.ifMatch)
          (headers.lines HeaderName.ifNoneMatch) answer) ↔
        ¬ (Passes p.label (headers.lines HeaderName.ifMatch) ∧
          headers.lines HeaderName.ifNoneMatch = [])) ∧
      ∀ others : Headers, others.lines HeaderName.ifMatch = headers.lines HeaderName.ifMatch →
        others.lines HeaderName.ifNoneMatch = headers.lines HeaderName.ifNoneMatch →
        ¬ (Passes p.label (headers.lines HeaderName.ifMatch) ∧
          headers.lines HeaderName.ifNoneMatch = []) →
        evaluate others resource true = evaluate headers resource true := by
  refine ⟨fun answer h => evaluate_of_decided (decided_of_tagsSay hp ht h), exists_tagsSay_iff,
    fun others hm hn hopen => ?_⟩
  obtain ⟨answer, h⟩ := exists_tagsSay_iff.2 hopen
  have ho := h
  rw [← hm, ← hn] at ho
  rw [evaluate_of_decided (decided_of_tagsSay hp ht h),
    evaluate_of_decided (decided_of_tagsSay hp ht ho)]

end

end Precondition

namespace Sample

def content : Resource :=
  { Resource.ofBytes "a.txt".toList (utf8 "hello".toList) with
    modified := some ⟨784111777500000000⟩
    tag := some "W/\"abc\"".toList }

def tagHeaders : Headers :=
  [(HeaderName.ifMatch, utf8 "\"abc\"".toList),
    (HeaderName.ifNoneMatch, utf8 "\"x\" ,".toList),
    (HeaderName.ifNoneMatch, utf8 "W/\"abc--gzip\", *".toList)]

end Sample

namespace Precondition

open EntityTag

/-- The first tag that stands for the content is that of a compressed form. -/
theorem evaluate_of_tags_sample :
    evaluate Sample.tagHeaders Sample.content true =
      .ok (.notModified (some "W/\"abc--gzip\"".toList)) := by
  have htag : Sample.content.tag = some (Parts.write ⟨true, "abc".toList⟩) := rfl
  obtain ⟨h, -, -⟩ := evaluate_of_tags (by decide) htag Sample.tagHeaders
  have hown : Cut "abc".toList "abc".toList := .whole (by decide)
  have hform : Cut "abc--gzip".toList "abc".toList := base_eq_iff.1 (by decide)
  have hother : ¬ Cut "x".toList "abc".toList := fun hc => absurd (base_eq_iff.2 hc) (by decide)
  have hasked : Gives (Sample.tagHeaders.lines HeaderName.ifMatch) ["\"abc\"".toList] :=
    ⟨by decide, list?_eq_some_iff.1 (by decide)⟩
  have hlist : Gives (Sample.tagHeaders.lines HeaderName.ifNoneMatch)
      (["\"x\"".toList] ++ "W/\"abc--gzip\"".toList :: [['*']]) :=
    ⟨by decide, list?_eq_some_iff.1 (by decide)⟩
  have hpass : Passes "abc".toList (Sample.tagHeaders.lines HeaderName.ifMatch) :=
    Or.inr ⟨_, hasked, _, List.mem_singleton_self _, .label ⟨false, "abc".toList⟩ hown⟩
  have hfirst : ∀ other ∈ ["\"x\"".toList], ¬ Stands "abc".toList other :=
    List.forall_mem_singleton.2 (mt (stands_write_iff (p := ⟨false, "x".toList⟩)).1 hother)
  exact h _ (.found hpass hlist hfirst (.label ⟨true, "abc--gzip".toList⟩ hform))

/-! ### A single tag -/

variable {headers : Headers} {resource : Resource} {own tag : Text}

lemma covering_single (hl : list? tag = some [tag]) :
    covering own tag = .ok (if covers own tag then some tag else none) := by
  unfold covering
  rw [hl]
  cases hc : covers own tag <;> simp [hc]

lemma evaluate_ifNoneMatch {useTags : Bool} (hu : useTags = true) (ht : resource.tag = some own)
    (hv : Visible tag) (hl : list? tag = some [tag])
    (h : ∀ m ∈ fieldNames,
      headers.getAll m = Headers.getAll [(HeaderName.ifNoneMatch, utf8 tag)] m) :
    evaluate headers resource useTags =
      .ok (if covers (withSuffix own []) tag then .notModified (some tag) else .proceed) := by
  subst hu
  refine evaluate_of_decided ?_
  rw [decided_of_tag ht, joined_single_other hv h (by decide) (by decide),
    joined_single_self hv h (by decide), byTags_none_some, covering_single hl]
  cases covers (withSuffix own []) tag <;> rfl

lemma evaluate_ifMatch {useTags : Bool} (hu : useTags = true) (ht : resource.tag = some own)
    (hv : Visible tag) (hl : list? tag = some [tag])
    (h : ∀ m ∈ fieldNames, headers.getAll m = Headers.getAll [(HeaderName.ifMatch, utf8 tag)] m) :
    evaluate headers resource useTags =
      .ok (if covers (withSuffix own []) tag then .proceed else .failed) := by
  subst hu
  have h1 : joined headers HeaderName.ifMatch = some tag :=
    joined_single_self hv h (by decide)
  have h2 : joined headers HeaderName.ifNoneMatch = none :=
    joined_single_other hv h (by decide) (by decide)
  have h3 : joined headers HeaderName.ifModifiedSince = none :=
    joined_single_other hv h (by decide) (by decide)
  have h4 : joined headers HeaderName.ifUnmodifiedSince = none :=
    joined_single_other hv h (by decide) (by decide)
  have hd : decided headers resource true =
      .ok (if covers (withSuffix own []) tag then none else some .failed) := by
    have hc : covering (withSuffix own []) tag = _ := covering_single hl
    rw [decided_of_tag ht, h1, h2]
    cases hcov : covers (withSuffix own []) tag with
    | false =>
      rw [hcov] at hc
      exact byTags_of_uncovered hc none
    | true =>
      rw [hcov] at hc
      exact byTags_of_covered hc none
  rw [evaluate_eq, hd, h1, h3, h4]
  cases covers (withSuffix own []) tag <;> rfl

/-! ### The content's own tag -/

lemma covers_own_iff (p : Parts) :
    covers (withSuffix p.write []) p.write = true ↔ ¬ Doubled p.label := by
  rw [covers_write, withSuffix_write, parts_write, List.append_nil, base_base_iff]

/-- **A content's own tag** stands for the content, unless its label has two dashes twice: then two
suffixes are taken off on one side of the comparison, and one on the other. -/
theorem evaluate_own_tag {p : Parts} (hv : Visible p.label) (hq : '"' ∉ p.label)
    (ht : resource.tag = some p.write) (headers : Headers) :
    ((∀ m ∈ fieldNames,
        headers.getAll m = Headers.getAll [(HeaderName.ifNoneMatch, utf8 p.write)] m) →
      evaluate headers resource true =
        .ok (if Doubled p.label then .proceed else .notModified (some p.write))) ∧
    ((∀ m ∈ fieldNames,
        headers.getAll m = Headers.getAll [(HeaderName.ifMatch, utf8 p.write)] m) →
      evaluate headers resource true = .ok (if Doubled p.label then .failed else .proceed)) := by
  have hc := covers_own_iff p
  constructor
  · intro h
    rw [evaluate_ifNoneMatch rfl ht (visible_write hv) (list?_write hq) h]
    by_cases hd : Doubled p.label <;> simp [hc, hd]
  · intro h
    rw [evaluate_ifMatch rfl ht (visible_write hv) (list?_write hq) h]
    by_cases hd : Doubled p.label <;> simp [hc, hd]

theorem evaluate_own_tag_sample :
    evaluate [(HeaderName.ifNoneMatch, utf8 "\"a, b--gzip\"".toList)]
        { Sample.content with tag := some "\"a, b--gzip\"".toList } true =
      .ok (.notModified (some "\"a, b--gzip\"".toList)) ∧
    evaluate [(HeaderName.ifMatch, utf8 "\"a, b--gzip\"".toList)]
        { Sample.content with tag := some "\"a, b--gzip\"".toList } true = .ok .proceed := by
  have htag : { Sample.content with tag := some "\"a, b--gzip\"".toList }.tag =
      some (Parts.write ⟨false, "a, b--gzip".toList⟩) := rfl
  have h := evaluate_own_tag (by decide) (by decide) htag
  have hd : ¬ Doubled "a, b--gzip".toList := by decide
  exact ⟨((h _).1 fun _ _ => rfl).trans (congrArg Except.ok (if_neg hd)),
    ((h _).2 fun _ _ => rfl).trans (congrArg Except.ok (if_neg hd))⟩

/-- A tag with two suffixes does not stand for the content that has it. -/
theorem own_tag_uncovered :
    Visible "a--b--c".toList ∧ '"' ∉ "a--b--c".toList ∧
      evaluate [(HeaderName.ifNoneMatch, utf8 "W/\"a--b--c\"".toList)]
        { Sample.content with tag := some "W/\"a--b--c\"".toList } true = .ok .proceed ∧
      evaluate [(HeaderName.ifMatch, utf8 "W/\"a--b--c\"".toList)]
        { Sample.content with tag := some "W/\"a--b--c\"".toList } true = .ok .failed := by
  refine ⟨by decide, by decide, ?_, ?_⟩
  · rfl
  · rfl

end Precondition

end Docroot

import Mathlib.Tactic.Common
import Docroot.Proofs.Interception
import Docroot.Proofs.TagPreconditions

/-!
The tag of a reply that nothing has changed. It is not the tag of the resource, but the element of
the request's list that stands for it: a tag whose label is that of the resource up to a suffix, or
the star, which stands for every resource. Dates alone give a reply without a tag.
-/

namespace Docroot

open Text EntityTag

namespace Precondition

variable {headers : Headers} {resource : Resource} {useTags : Bool} {p : Parts} {tag : Text}

lemma byDates_ne_tagged {hasIfMatch : Bool} {ims ius : Option Text} :
    byDates resource hasIfMatch ims ius ≠ .ok (.notModified (some tag)) := by
  rw [byDates_eq_map]
  intro h
  obtain ⟨unchanged, -, hverdict⟩ := exists_of_map_eq_ok h
  unfold dateVerdict at hverdict
  split at hverdict
  · cases hverdict
  · split at hverdict <;> cases hverdict

lemma evaluate_ne_tagged_of_open (h : decided headers resource useTags = .ok none) :
    evaluate headers resource useTags ≠ .ok (.notModified (some tag)) := by
  rw [evaluate_eq, h]
  exact byDates_ne_tagged

lemma decided_of_passes (hp : ¬ ['-', '-'] <:+: p.label) (ht : resource.tag = some p.write)
    (hpass : Passes p.label (headers.lines HeaderName.ifMatch))
    (hnone : headers.lines HeaderName.ifNoneMatch = []) :
    decided headers resource true = .ok none := by
  rw [decided_of_tag ht, withSuffix_write_nil hp, byTags_of_passes hp hpass, joined_of_nil hnone]
  rfl

/-- **The tag of a verdict** is the first element of the list that stands for the content. -/
theorem exists_of_evaluate_tagged (hp : ¬ ['-', '-'] <:+: p.label)
    (ht : resource.tag = some p.write)
    (h : evaluate headers resource useTags = .ok (.notModified (some tag))) :
    ∃ before after, Gives (headers.lines HeaderName.ifNoneMatch) (before ++ tag :: after) ∧
      (∀ other ∈ before, ¬ Stands p.label other) ∧ Stands p.label tag := by
  cases useTags with
  | false =>
    have hopen : decided headers resource false = .ok none := by
      unfold decided
      rw [ht]
      rfl
    exact absurd h (evaluate_ne_tagged_of_open hopen)
  | true =>
    by_cases hopen : Passes p.label (headers.lines HeaderName.ifMatch) ∧
        headers.lines HeaderName.ifNoneMatch = []
    · exact absurd h (evaluate_ne_tagged_of_open (decided_of_passes hp ht hopen.1 hopen.2))
    · obtain ⟨answer, hsay⟩ := exists_tagsSay_iff.2 hopen
      rw [evaluate_of_decided (decided_of_tagsSay hp ht hsay)] at h
      subst h
      cases hsay with
      | found _ hgives hfirst hstands => exact ⟨_, _, hgives, hfirst, hstands⟩

end Precondition

namespace Site

open Service

variable {site : Site} {t : Tree} {b : Text} {arrival : Arrival} {n : Negotiator} {r : Request}
  {reply : Reply}

lemma Holds.exists_tag {path : Text} {resource : Resource} (h : site.Holds t path resource) :
    ∃ millis length, resource.tag = some (ofLabel (labelOf millis length)) := by
  obtain ⟨place, ⟨node, modified⟩, -, -, -, rfl⟩ := h
  cases node with
  | file data => exact ⟨_, _, congrArg some (generate_eq modified data.length)⟩
  | directory folder => exact ⟨_, _, congrArg some (generate_eq modified 0)⟩
  | link target => exact ⟨_, _, congrArg some (generate_eq modified 0)⟩

lemma exists_holds_of_subject {path : Text} {a : Aim} (h : Leads (site.service t) path a)
    {resource : Resource} (hs : a.subject? = some resource) :
    ∃ target, site.Holds t target resource := by
  cases a with
  | fixed reply => cases hs
  | listing directory =>
    cases hs
    exact ⟨path, holds_of_leads h⟩
  | file target found =>
    cases hs
    exact ⟨target, (finds_of_leads h).1.holds⟩

lemma methodReply_eq_none_of_unchanged (h : (site.handle t b arrival r n).1.result = .ok reply)
    (hs : reply.status = 304) : methodReply r.method = none := by
  cases hm : methodReply r.method with
  | none => rfl
  | some x =>
    rcases site.handle_of_methodReply t b arrival n hm with hx | hx <;> rw [hx] at h <;> cases h <;>
      cases hs

end Site

namespace Reply

/-- An unchanged reply carries one tag, if it carries any. -/
lemma exists_of_mem_getAll_unchanged {tag : Option Text} {value : Bytes}
    (h : value ∈ (unchanged tag).headers.getAll HeaderName.etag) :
    ∃ s, tag = some s ∧ value = utf8 s ∧
      (unchanged tag).headers.getAll HeaderName.etag = [utf8 s] := by
  cases tag with
  | none => cases h
  | some s =>
    unfold unchanged Headers.value? at h ⊢
    simp only [Option.bind_some] at h ⊢
    split at h
    · next hv =>
      simp only [Option.map_some, Option.toList_some, Headers.getAll_singleton, if_true,
        List.mem_singleton] at h
      exact ⟨s, rfl, h, by simp [hv, Headers.getAll_singleton]⟩
    · cases h

end Reply

namespace Site

open Service

variable {site : Site} {t : Tree} {b : Text} {arrival : Arrival} {n : Negotiator} {r : Request}
  {reply : Reply}

/-- **The tag of an unchanged reply** is the first element of the request's list that stands for the
resource that the path leads to, and the reply carries no other. It is the star, or a tag whose
label is that of the resource, or has it before its last two dashes. -/
theorem tag_of_unchanged (h : (site.handle t b arrival r n).1.result = .ok reply)
    (hs : reply.status = 304) {value : Bytes}
    (hv : value ∈ reply.headers.getAll HeaderName.etag) :
    ∃ path a target resource millis length, RequestPath.normalize? r.path = some path ∧
      aim (site.service t) path r.query = .ok (some a) ∧ a.subject? = some resource ∧
      site.Holds t target resource ∧ resource.tag = some (ofLabel (labelOf millis length)) ∧
      ∃ before tag after, value = utf8 tag ∧
        reply.headers.getAll HeaderName.etag = [utf8 tag] ∧
        Precondition.Gives (r.headers.lines HeaderName.ifNoneMatch) (before ++ tag :: after) ∧
        (∀ other ∈ before, ¬ Stands (labelOf millis length) other) ∧
        (tag = ['*'] ∨ ∃ p : Parts, tag = p.write ∧ '"' ∉ p.label ∧
          Cut p.label (labelOf millis length)) := by
  have hm := methodReply_eq_none_of_unchanged h hs
  obtain ⟨path, a, resource, verdict, hp, ha, hsub, he, hr⟩ :=
    (grounds_of_handle hm h).exists_verdict (Or.inl hs)
  obtain ⟨target, hholds⟩ := exists_holds_of_subject (leads_of_aim _ ha) hsub
  obtain ⟨millis, length, htag⟩ := hholds.exists_tag
  refine ⟨path, a, target, resource, millis, length, hp, ha, hsub, hholds, htag, ?_⟩
  -- of the verdicts only one makes a reply with this status
  cases verdict with
  | proceed => cases hr
  | failed =>
    cases hr
    cases hs
  | notModified found =>
    cases hr
    obtain ⟨tag, rfl, hvalue, hall⟩ := Reply.exists_of_mem_getAll_unchanged hv
    obtain ⟨before, after, hgives, hfirst, hstands⟩ :=
      Precondition.exists_of_evaluate_tagged (not_infix_labelOf millis length) htag he
    refine ⟨before, tag, after, hvalue, hall, hgives, hfirst, ?_⟩
    cases hgives.2.element tag (by simp) with
    | star => exact Or.inl rfl
    | tag p hq => exact Or.inr ⟨p, rfl, hq, stands_write_iff.1 hstands⟩

def echoRequest (list : Text) : Request :=
  Sample.request [(HeaderName.ifNoneMatch, utf8 list)]

lemma exists_echo {list tag : Text}
    (h : list = "\"x\", W/\"0-5--gzip\"".toList ∧ tag = "W/\"0-5--gzip\"".toList ∨
      list = ['*'] ∧ tag = ['*']) :
    ∃ reply, (Sample.site.handle (Sample.tree ⟨0⟩) [] Sample.arrival (echoRequest list)
        Sample.site.negotiator).1.result = .ok reply ∧
      reply.status = 304 ∧ reply.headers.getAll HeaderName.etag = [utf8 tag] := by
  obtain ⟨reply, h, hreply⟩ := Sample.exists_of_toOption
    (x := (Sample.site.handle (Sample.tree ⟨0⟩) [] Sample.arrival (echoRequest list)
      Sample.site.negotiator).1.result)
    (f := fun x => (x.status, x.headers.getAll HeaderName.etag)) (b := (304, [utf8 tag]))
    (by rcases h with ⟨rfl, rfl⟩ | ⟨rfl, rfl⟩ <;> decide +kernel)
  exact ⟨reply, h, Prod.mk.inj hreply⟩

theorem tag_of_unchanged_sample :
    ∃ reply, (Sample.site.handle (Sample.tree ⟨0⟩) [] Sample.arrival
        (echoRequest "\"x\", W/\"0-5--gzip\"".toList) Sample.site.negotiator).1.result =
          .ok reply ∧
      reply.status = 304 ∧
      reply.headers.getAll HeaderName.etag = [utf8 "W/\"0-5--gzip\"".toList] ∧
      ∃ target resource millis length, Sample.site.Holds (Sample.tree ⟨0⟩) target resource ∧
        resource.tag = some (ofLabel (labelOf millis length)) ∧
        ∃ p : Parts, utf8 "W/\"0-5--gzip\"".toList = utf8 p.write ∧ '"' ∉ p.label ∧
          Cut p.label (labelOf millis length) := by
  obtain ⟨reply, h, hs, hall⟩ := exists_echo (Or.inl ⟨rfl, rfl⟩)
  obtain ⟨path, a, target, resource, millis, length, -, -, -, hholds, htag, before, tag, after, hv,
    -, -, -, hshape⟩ := tag_of_unchanged h hs (hall ▸ List.mem_singleton_self _)
  refine ⟨reply, h, hs, hall, target, resource, millis, length, hholds, htag, ?_⟩
  rcases hshape with rfl | ⟨p, rfl, hq, hcut⟩
  · exact absurd hv (by decide)
  · exact ⟨p, hv, hq, hcut⟩

/-- A reply may carry a star, which is no tag. -/
theorem star_of_unchanged :
    ∃ reply, (Sample.site.handle (Sample.tree ⟨0⟩) [] Sample.arrival (echoRequest ['*'])
        Sample.site.negotiator).1.result = .ok reply ∧
      reply.status = 304 ∧ reply.headers.getAll HeaderName.etag = [utf8 ['*']] ∧
      ∀ p : Parts, utf8 p.write ≠ utf8 ['*'] := by
  obtain ⟨reply, h, hs, hall⟩ := exists_echo (Or.inr ⟨rfl, rfl⟩)
  exact ⟨reply, h, hs, hall, fun p hp => write_ne_star p (utf8_injective hp)⟩

end Site

end Docroot

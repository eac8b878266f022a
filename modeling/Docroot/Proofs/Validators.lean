import Mathlib.Tactic.Common
import Docroot.Proofs.Alike
import Docroot.Proofs.Presentation

/-!
Validators and ranges. How much of a file is asked for has no part in the date of a reply, nor in
what the reply varies by, nor in its tag, with one exception: where none of what is asked for
exists, what was registered for a compressed form is forgotten, and the reply has the tag of the
file that holds the form in place of the tag of the base.
-/

namespace Docroot

open Text

/-- A reply that no part was found for has the fields of the representation itself, apart from those
that are about its own message. -/
lemma Delivery.getAll_finish_unsatisfied (options : Options) (resource : Resource)
    (modified : Option Text) (d : Draft) {m : Text} (he : m ≠ HeaderName.contentEncoding)
    (ht : m ≠ HeaderName.contentType) (hl : m ≠ HeaderName.contentLength)
    (hr : m ≠ HeaderName.contentRange) :
    (unsatisfied options resource modified d).finish.getAll m =
      (Representation.described resource modified .none options d.clearOverrides).headers.getAll
        m := by
  rw [Draft.getAll_finish_of_free (by simp [Draft.Free]), unsatisfied,
    Draft.getAll_setText_of_ne (Ne.symm hr)]
  simp only [Draft.put, Draft.setStatus, Draft.remove, Headers.getAll_put, Headers.getAll_remove,
    if_neg (Ne.symm hl), if_neg (Ne.symm ht), if_neg (Ne.symm he)]

namespace Site

open Service

variable {site : Site} {t : Tree} {raw : Text}

namespace Base

variable (o : site.Base t raw)

/-- What a reply about the content of a form of the base says for its validation: the date of the
form, what the base varies by, and the tag of the base with the suffix of the form; or, if no part
was found, the tag of the file that holds the form. -/
structure Validates (form : Option Format) (file : Stored t) (reply : Reply) : Prop where
  among : o.Form form file
  modified : ∃ date, HttpDate.format? file.modified = some date ∧
    reply.headers.getAll HeaderName.lastModified = [utf8 date]
  varies : reply.headers.getAll HeaderName.vary = (variesBy o.found).getAll HeaderName.vary
  tag : reply.headers.getAll HeaderName.etag =
    if site.options.tags then
      if reply.status = 416 then [utf8 file.tag]
      else (Headers.value? (o.tag (suffixOf form))).toList
    else []

variable {o}

lemma Form.unique {form : Option Format} {file file' : Stored t} (h : o.Form form file)
    (h' : o.Form form file') : file = file' := by
  cases h with
  | base => cases h'; rfl
  | sibling _ hn _ =>
    cases h' with
    | sibling _ hn' _ => exact Stored.eq_of_name (hn.trans hn'.symm)

section

variable {file : Stored t} {date : Text} {order : List Text}

lemma getAll_lastModified_unsatisfied (hdate : HttpDate.format? file.modified = some date) :
    (Delivery.unsatisfied site.options file.resource (some date)
      (sent (site.service t) order o.target o.found).2).finish.getAll HeaderName.lastModified =
        [utf8 date] := by
  rw [Delivery.getAll_finish_unsatisfied _ _ _ _ (by decide) (by decide) (by decide) (by decide),
    Representation.getAll_described_lastModified, Option.bind_some,
    Headers.value?_of_visible (HttpDate.visible_of_format? hdate)]

lemma getAll_etag_unsatisfied :
    (Delivery.unsatisfied site.options file.resource (some date)
      (sent (site.service t) order o.target o.found).2).finish.getAll HeaderName.etag =
        if site.options.tags then [utf8 file.tag] else [] := by
  rw [Delivery.getAll_finish_unsatisfied _ _ _ _ (by decide) (by decide) (by decide) (by decide)]
  refine file.getAll_etag_described _ _ _ ?_
  exact getAll_sent_of_ne (by decide : HeaderName.etag ≠ _) order o.target o.found

end

/-- **Validation**: a delivery says for its validation what goes with the form that is sent. -/
theorem validates_of_delivery {q : Inquiry} {order : List Text} {reply : Reply}
    (h : delivery (site.service t) q order o.target o.found = .ok reply) :
    ∃ file, o.Validates ((variant? order o.found).map Variant.format) file reply := by
  obtain ⟨file, date, hform, hdate, rfl⟩ := o.exists_form_of_delivery h
  generalize Delivery.selection site.options (q.headers.lines HeaderName.range) file.resource =
    selected
  have hvaries : (Delivery.draftFor site.options q.boundary file.resource (some date)
      (sent (site.service t) order o.target o.found).2 selected).finish.getAll HeaderName.vary =
        (variesBy o.found).getAll HeaderName.vary := by
    rw [Delivery.getAll_finish_draftFor _ _ _ _ (by decide) (by decide)
      (free_sent (by decide) _ _ _), (status_headers_sent _ _ _).2]
  have hstatus := Delivery.status_draftFor site.options q.boundary file.resource (some date)
    (sent (site.service t) order o.target o.found).2 selected
  -- the refusal drops what was registered for the form, every other reply keeps it
  by_cases hu : selected = .unsatisfiable
  · subst hu
    refine ⟨file, hform, ⟨date, hdate, getAll_lastModified_unsatisfied hdate⟩, hvaries, ?_⟩
    rw [if_pos (show (Delivery.replyFor _ _ _ _ _ _ _ _).status = 416 from hstatus)]
    exact getAll_etag_unsatisfied
  · have hne : (Delivery.draftFor site.options q.boundary file.resource (some date)
        (sent (site.service t) order o.target o.found).2 selected).status ≠ 416 := by
      rw [hstatus, (status_headers_sent _ _ _).1]
      cases selected with
      | whole => decide
      | unsatisfiable => exact absurd rfl hu
      | parts rs => simp
    refine ⟨file, hform, ⟨date, hdate, getAll_lastModified_sent hdate hu⟩, hvaries, ?_⟩
    rw [if_neg (show (Delivery.replyFor _ _ _ _ _ _ _ _).status ≠ 416 from hne)]
    exact o.getAll_etag_sent hform hu

/-- One reply found no part of a compressed form, and the other did: the one has the tag of the file
that holds the form, and the other that of the base with the suffix of the form. -/
structure Diverges (o : site.Base t raw) (f : Format) (file : Stored t) (x y : Reply) : Prop where
  among : o.Form (some f) file
  status : x.status = 416 ∧ y.status ≠ 416
  own : x.headers.getAll HeaderName.etag = [utf8 file.tag]
  base : y.headers.getAll HeaderName.etag = (Headers.value? (o.tag f.suffix)).toList

/-- The tags of two replies about one form are the same, unless they diverge. -/
lemma Validates.eq_or_diverges {form : Option Format} {file : Stored t} {x y : Reply}
    (hx : o.Validates form file x) (hy : o.Validates form file y) :
    x.headers.getAll HeaderName.etag = y.headers.getAll HeaderName.etag ∨
      ∃ f, o.Diverges f file x y ∨ o.Diverges f file y x := by
  have hxt := hx.tag
  have hyt := hy.tag
  by_cases htags : site.options.tags = true
  · rw [if_pos htags] at hxt hyt
    cases form with
    | none =>
      -- the tag of the base has no suffix
      have hown : [utf8 file.tag] = (Headers.value? (o.tag (suffixOf none))).toList := by
        cases hx.among
        rw [o.tag_stored, suffixOf, Option.map_none, Option.getD_none, o.value?_tag visible_nil]
        rfl
      left
      rw [hxt, hyt, hown, ite_self, ite_self]
    | some f =>
      by_cases hsx : x.status = 416 <;> by_cases hsy : y.status = 416
      · left
        rw [hxt, hyt, if_pos hsx, if_pos hsy]
      · rw [if_pos hsx] at hxt
        rw [if_neg hsy] at hyt
        exact Or.inr ⟨f, Or.inl ⟨hx.among, ⟨hsx, hsy⟩, hxt, hyt⟩⟩
      · rw [if_neg hsx] at hxt
        rw [if_pos hsy] at hyt
        exact Or.inr ⟨f, Or.inr ⟨hy.among, ⟨hsy, hsx⟩, hyt, hxt⟩⟩
      · left
        rw [hxt, hyt, if_neg hsx, if_neg hsy]
  · left
    rw [hxt, hyt, if_neg htags, if_neg htags]

end Base

variable {b₁ b₂ : Text} {arrival₁ arrival₂ : Arrival} {r₁ r₂ : Request} {n₁ n₂ : Negotiator}
  {x₁ x₂ : Reply}

/-- **Ranges and validators**: replies about content to requests that differ in their ranges have
the same date, vary by the same, and have the same tag, unless one of them found no part of a
compressed form. -/
theorem validators_of_alike (hn₁ : site.Reachable n₁) (hn₂ : site.Reachable n₂)
    (hm : r₁.method = get) (h : r₁.AlikeBut HeaderName.range r₂)
    (h₁ : (site.handle t b₁ arrival₁ r₁ n₁).1.result = .ok x₁) (hs₁ : x₁.OfContent)
    (h₂ : (site.handle t b₂ arrival₂ r₂ n₂).1.result = .ok x₂) (hs₂ : x₂.OfContent) :
    x₁.headers.getAll HeaderName.lastModified = x₂.headers.getAll HeaderName.lastModified ∧
      x₁.headers.getAll HeaderName.vary = x₂.headers.getAll HeaderName.vary ∧
      (x₁.headers.getAll HeaderName.etag = x₂.headers.getAll HeaderName.etag ∨
        ∃ o : site.Base t r₁.path, ∃ f file,
          o.Diverges f file x₁ x₂ ∨ o.Diverges f file x₂ x₁) := by
  rcases listing_or_deliveries h (by rw [hm]; exact methodReply_get) h₁ hs₁ h₂ hs₂ with
    ⟨path, directory, hl, rfl⟩ | ⟨o, hd₁, hd₂⟩
  · exact ⟨rfl, rfl, Or.inl rfl⟩
  · have haccepted : site.accepted r₁.headers o.found = site.accepted r₂.headers o.found := by
      unfold accepted
      rw [h.lines (by decide)]
    rw [hn₁.consulted] at hd₁
    rw [hn₂.consulted, ← haccepted] at hd₂
    obtain ⟨file, hx⟩ := Base.validates_of_delivery hd₁
    obtain ⟨file', hy⟩ := Base.validates_of_delivery hd₂
    obtain rfl := hx.among.unique hy.among
    obtain ⟨date, hdate, hxd⟩ := hx.modified
    obtain ⟨date', hdate', hyd⟩ := hy.modified
    obtain rfl : date = date' := Option.some.inj (hdate.symm.trans hdate')
    refine ⟨hxd.trans hyd.symm, hx.varies.trans hy.varies.symm, ?_⟩
    rcases hx.eq_or_diverges hy with he | ⟨f, hf⟩
    · exact Or.inl he
    · exact Or.inr ⟨o, f, file, hf⟩

def rangeRequest (ranges : List Bytes) : Request :=
  (Sample.request [(HeaderName.acceptEncoding, utf8 "gzip".toList)]).withLines HeaderName.range
    ranges

theorem validators_of_alike_sample :
    ∃ whole part, (Sample.site.handle (Sample.tree ⟨0⟩) [] Sample.arrival (rangeRequest [])
        Sample.site.negotiator).1.result = .ok whole ∧ whole.status = 200 ∧
      (Sample.site.handle (Sample.tree ⟨0⟩) [] Sample.arrival
        (rangeRequest [utf8 "bytes=0-0".toList]) Sample.site.negotiator).1.result = .ok part ∧
      part.status = 206 ∧
      whole.headers.getAll HeaderName.etag = part.headers.getAll HeaderName.etag := by
  obtain ⟨whole, h₁, hs₁⟩ := Sample.exists_of_toOption (f := Reply.status) (b := 200)
    (x := (Sample.site.handle (Sample.tree ⟨0⟩) [] Sample.arrival (rangeRequest [])
      Sample.site.negotiator).1.result) (by decide +kernel)
  obtain ⟨part, h₂, hs₂⟩ := Sample.exists_of_toOption (f := Reply.status) (b := 206)
    (x := (Sample.site.handle (Sample.tree ⟨0⟩) [] Sample.arrival
      (rangeRequest [utf8 "bytes=0-0".toList]) Sample.site.negotiator).1.result)
    (by decide +kernel)
  have halike : (rangeRequest []).AlikeBut HeaderName.range
      (rangeRequest [utf8 "bytes=0-0".toList]) :=
    Request.alikeBut_withLines (rangeRequest []) HeaderName.range [utf8 "bytes=0-0".toList]
  obtain ⟨-, -, htag⟩ := validators_of_alike .start .start rfl halike h₁ (Or.inl hs₁) h₂
    (Or.inr (Or.inl hs₂))
  refine ⟨whole, part, h₁, hs₁, h₂, hs₂, ?_⟩
  rcases htag with he | ⟨o, f, file, hd | hd⟩
  · exact he
  · exact absurd (hs₁.symm.trans hd.status.1) (by decide)
  · exact absurd (hs₂.symm.trans hd.status.1) (by decide)

/-- Asked for a range that it does not have, the compressed form answers with another tag than it
has as a whole. -/
theorem unsatisfied_changes_tag :
    ∃ whole nothing, (Sample.site.handle (Sample.tree ⟨0⟩) [] Sample.arrival (rangeRequest [])
        Sample.site.negotiator).1.result = .ok whole ∧ whole.status = 200 ∧
      whole.headers.getAll HeaderName.etag = [utf8 "W/\"0-5--gzip\"".toList] ∧
      (Sample.site.handle (Sample.tree ⟨0⟩) [] Sample.arrival
        (rangeRequest [utf8 "bytes=50-".toList]) Sample.site.negotiator).1.result = .ok nothing ∧
      nothing.status = 416 ∧
      nothing.headers.getAll HeaderName.etag = [utf8 "W/\"0-2\"".toList] := by
  obtain ⟨whole, h₁, hwhole⟩ := Sample.exists_of_toOption
    (f := fun x => (x.status, x.headers.getAll HeaderName.etag))
    (b := (200, [utf8 "W/\"0-5--gzip\"".toList]))
    (x := (Sample.site.handle (Sample.tree ⟨0⟩) [] Sample.arrival (rangeRequest [])
      Sample.site.negotiator).1.result) (by decide +kernel)
  obtain ⟨nothing, h₂, hnothing⟩ := Sample.exists_of_toOption
    (f := fun x => (x.status, x.headers.getAll HeaderName.etag))
    (b := (416, [utf8 "W/\"0-2\"".toList]))
    (x := (Sample.site.handle (Sample.tree ⟨0⟩) [] Sample.arrival
      (rangeRequest [utf8 "bytes=50-".toList]) Sample.site.negotiator).1.result)
    (by decide +kernel)
  obtain ⟨hs₁, ht₁⟩ := Prod.mk.inj hwhole
  obtain ⟨hs₂, ht₂⟩ := Prod.mk.inj hnothing
  exact ⟨whole, nothing, h₁, hs₁, ht₁, h₂, hs₂, ht₂⟩

end Site

end Docroot

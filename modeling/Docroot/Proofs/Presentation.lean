import Mathlib.Data.List.Nodup
import Mathlib.Tactic.Common
import Docroot.Proofs.Dates
import Docroot.Proofs.Partial
import Docroot.Proofs.Revalidation
import Docroot.Proofs.Sharing

/-!
What a reply with bytes of a file says about them. The bytes, their number and their date are those
of one file, the base or a compressed form that stands beside it; the type and the tag are those of
the base.
-/

namespace Docroot

open Text

lemma MediaType.visible_ofPath (path : Text) : Visible (MediaType.ofPath path) := by
  have htable : ∀ row ∈ table, Visible row.2 := by decide +kernel
  have hunknown : Visible unknown := by decide
  unfold ofPath ofExtension
  split
  · exact hunknown
  · next e _ =>
    cases hrow : table.find? fun row => row.1.contains e with
    | none => exact hunknown
    | some row => exact htable row (List.mem_of_find?_eq_some hrow)

namespace Reply

variable {t : Tree}

/-- The body is copied from the file, and brings these bytes if memory can hold the buffer. -/
def Copies (reply : Reply) (file : Stored t) (bytes : Bytes) : Prop :=
  ∃ segments size, reply.body = .file file.name segments size ∧
    (size < Copy.bufferBound → (reply.body.stream t).Brings bytes)

/-- A success that carries the file, as content of this type: all of it, one range of it, or several
ranges of it in parts that each have the type. -/
inductive Carries (reply : Reply) (boundary type : Text) (file : Stored t) : Prop
  | whole (hs : reply.status = 200) (hb : reply.Copies file file.data)
      (hl : reply.headers.getAll HeaderName.contentLength = [numeral file.data.length])
      (ht : reply.headers.getAll HeaderName.contentType = [utf8 type])
  | single (r : ByteRange) (hr : r.Within file.data.length) (hs : reply.status = 206)
      (hb : reply.Copies file (r.slice file.data))
      (hl : reply.headers.getAll HeaderName.contentLength = [numeral r.length])
      (hc : reply.headers.getAll HeaderName.contentRange =
        [utf8 (r.contentRange file.data.length)])
      (ht : reply.headers.getAll HeaderName.contentType = [utf8 type])
  | several (rs : List ByteRange) (hn : 2 ≤ rs.length)
      (hr : ∀ r ∈ rs, ByteRange.Within file.data.length r) (hs : reply.status = 206)
      (hb : reply.Copies file (Multipart.body boundary (some type) file.data rs))
      (hl : reply.headers.getAll HeaderName.contentLength = [])
      (ht : reply.headers.getAll HeaderName.contentType =
        [utf8 (Delivery.multipartType boundary)])

end Reply

namespace Delivery

variable {t : Tree} {file : Stored t} {type : Text} {modified : Option Text} {d : Draft}

/-- The type that is written for a file, seen through the overrides of a draft. -/
def typeValues (file : Stored t) (d : Draft) : List Bytes :=
  (d.overrides.filter fun o => o.name == HeaderName.contentType).foldl
    (fun values o => o.act values) [utf8 (MediaType.ofPath file.name)]

lemma getAll_contentType_described (length : Representation.SentLength) (options : Options) :
    (Representation.described file.resource modified length options d).finish.getAll
      HeaderName.contentType = typeValues file d := by
  have hown : file.resource.contentType.bind Headers.value? =
      some (utf8 (MediaType.ofPath file.name)) :=
    Headers.value?_of_visible (MediaType.visible_ofPath file.name)
  rw [Draft.getAll_finish, Representation.overrides_described,
    Representation.getAll_described_contentType, hown]
  rfl

lemma partType_eq (options : Options) (hv : Visible type) (ht : typeValues file d = [utf8 type])
    (h : (d.overrides.filter fun o => o.name == HeaderName.contentType).length ≤ 1) :
    partType options file.resource modified d = some type := by
  have hd : (Representation.described file.resource modified .none options
      (d.setStatus 206)).finish.getAll HeaderName.contentType = [utf8 type] :=
    (getAll_contentType_described .none options).trans ht
  unfold partType
  rw [Draft.effective_eq_head? (by rw [Representation.overrides_described]; exact h), hd]
  exact Bytes.visible?_utf8 hv

variable {lines : List Text} {boundary : Text}

lemma carries_replyFor (options : Options) (hb : Visible boundary) (hv : Visible type)
    (hs : d.status = 200) (hl : d.Free HeaderName.contentLength)
    (hr : d.Free HeaderName.contentRange) (hn : d.headers.getAll HeaderName.contentLength = [])
    (ht : typeValues file d = [utf8 type])
    (h1 : (d.overrides.filter fun o => o.name == HeaderName.contentType).length ≤ 1)
    {selected : ByteRange.Selection} (hsel : selection options lines file.resource = selected)
    (hok : selected ≠ .unsatisfiable) :
    (replyFor options boundary false file.resource file.name modified d selected).Carries boundary
      type file := by
  have hlen : file.resource.length = some file.data.length := rfl
  have hst := status_draftFor options boundary file.resource modified d selected
  match selected, hok with
  | .whole, _ =>
    refine .whole (hst.trans hs) ⟨[.all], options.bufferSize, rfl, ?_⟩ ?_ ?_
    · exact fun hsize => brings_whole options boundary file.resource modified d file.stat hsize
    · exact contentLength_whole _ _ _ hlen hl
    · exact (getAll_contentType_described .known options).trans ht
  | .parts [r], _ =>
    obtain ⟨-, hwithin⟩ := within_of_selection options _ hlen hsel
    have hr' := hwithin r (List.mem_singleton_self r)
    refine .single r hr' hst ⟨[.range r], options.bufferSize, rfl, ?_⟩ ?_ ?_ ?_
    · exact fun hsize => brings_single options boundary file.resource modified d file.stat hsize hr'
    · exact contentLength_singlePart _ _ _ r hl
    · exact contentRange_singlePart _ _ _ hlen r hr
    · refine (Draft.getAll_finish_setText_of_ne (by decide) _ _).trans ?_
      exact (getAll_contentType_described _ options).trans ht
  | .parts [], _ =>
    -- a selection of parts has at least one
    obtain ⟨hne, -⟩ := within_of_selection options _ hlen hsel
    exact absurd rfl hne
  | .parts (x :: y :: rs), _ =>
    obtain ⟨-, hwithin⟩ := within_of_selection options _ hlen hsel
    refine .several (x :: y :: rs) (by simp) hwithin hst ⟨_, options.bufferSize, rfl, ?_⟩ ?_ ?_
    · intro hsize
      have h := brings_several options boundary file.resource modified d file.stat hsize hlen
        hwithin
      rw [partType_eq options hv ht h1] at h
      exact h
    · exact contentLength_severalParts _ _ _ _ hl hn
    · exact contentType_severalParts _ _ _ _ hb

end Delivery

namespace Site

open Service

variable {site : Site} {t : Tree} {raw : Text}

namespace Base

variable (o : site.Base t raw)

def type : Text := MediaType.ofPath o.stored.name

/-- The coding of a form is that of its format; the base has none, unless its path says by its
ending that it is gzip data. -/
def codings : Option Format → List Bytes
  | some f => [utf8 f.encoding]
  | none => if site.options.gzipExtensions.any fun e => e.isSuffixOf o.target then
      [utf8 "gzip".toList] else []

/-- The reply is about one form of the base: its bytes, their number and their date are those of the
form, its type and its tag are those of the base, and it varies if there are other forms. -/
structure Presents (boundary : Text) (form : Option Format) (file : Stored t) (reply : Reply) :
    Prop where
  among : o.Form form file
  carries : reply.Carries boundary o.type file
  modified : ∃ date, HttpDate.format? file.modified = some date ∧
    reply.headers.getAll HeaderName.lastModified = [utf8 date]
  encoding : reply.headers.getAll HeaderName.contentEncoding = o.codings form
  tag : reply.headers.getAll HeaderName.etag =
    if site.options.tags then [utf8 (o.tag (suffixOf form))] else []
  varies : reply.Varies ↔ ∃ f file, o.Form (some f) file

variable {o} {order : List Text}

lemma typeValues_sent {file : Stored t}
    (hform : o.Form ((variant? order o.found).map Variant.format) file) :
    Delivery.typeValues file (sent (site.service t) order o.target o.found).2 = [utf8 o.type] := by
  have hown : o.found.resource.contentType.bind Headers.value? = some (utf8 o.type) := by
    rw [o.resource]
    exact Headers.value?_of_visible (MediaType.visible_ofPath _)
  unfold Delivery.typeValues
  rw [filter_contentType_sent, hown]
  cases hv : variant? order o.found with
  | none =>
    rw [hv] at hform
    cases hform
    rfl
  | some v => rfl

/-- The coding of a form takes the place of what the path of the base says. -/
lemma codings_sent (o : site.Base t raw) (order : List Text) :
    ((sent (site.service t) order o.target o.found).2.overrides.filter
        fun x => x.name == HeaderName.contentEncoding).foldl (fun values x => x.act values) [] =
      match (variant? order o.found).bind fun v => Headers.value? v.format.encoding with
      | some value => [value]
      | none => o.codings none := by
  have hmarks : (gzipMark (site.service t).options o.target).foldl
      (fun values x => x.act values) [] = o.codings none := by
    show (gzipMark site.options o.target).foldl _ _ = _
    unfold gzipMark codings
    split <;> rfl
  rw [filter_contentEncoding_sent, List.foldl_append, hmarks]
  cases variant? order o.found with
  | none => rfl
  | some v =>
    simp only [Option.bind_some]
    cases Headers.value? v.format.encoding <;> rfl

section

variable {file : Stored t} {date : Text} {boundary : Text} {selected : ByteRange.Selection}

lemma getAll_lastModified_sent (hdate : HttpDate.format? file.modified = some date)
    (hsome : selected ≠ .unsatisfiable) :
    (Delivery.draftFor site.options boundary file.resource (some date)
      (sent (site.service t) order o.target o.found).2 selected).finish.getAll
        HeaderName.lastModified = [utf8 date] := by
  have hv : ∀ length status, (Representation.described file.resource (some date) length
      site.options ((sent (site.service t) order o.target o.found).2.setStatus
        status)).headers.getAll HeaderName.lastModified = [utf8 date] := by
    intro length status
    rw [Representation.getAll_described_lastModified, Option.bind_some,
      Headers.value?_of_visible (HttpDate.visible_of_format? hdate)]
  rw [Delivery.getAll_finish_draftFor_of_described _ _ _ _ (by decide) (by decide) hv hsome,
    (free_sent (by decide) _ _ _).filter_eq_nil]
  rfl

lemma getAll_contentEncoding_sent (hsome : selected ≠ .unsatisfiable) :
    (Delivery.draftFor site.options boundary file.resource (some date)
      (sent (site.service t) order o.target o.found).2 selected).finish.getAll
        HeaderName.contentEncoding =
      match (variant? order o.found).bind fun v => Headers.value? v.format.encoding with
      | some value => [value]
      | none => o.codings none := by
  have hv : ∀ length status, (Representation.described file.resource (some date) length
      site.options ((sent (site.service t) order o.target o.found).2.setStatus
        status)).headers.getAll HeaderName.contentEncoding = [] := by
    intro length status
    rw [Representation.getAll_described_contentEncoding]
    exact getAll_sent_of_ne (by decide : HeaderName.contentEncoding ≠ _) _ _ _
  rw [Delivery.getAll_finish_draftFor_of_described _ _ _ _ (by decide) (by decide) hv hsome,
    codings_sent]

lemma getAll_contentEncoding_of_form
    (hf : ∀ f ∈ site.settings.resources.formats, Visible f.encoding)
    (hform : o.Form ((variant? order o.found).map Variant.format) file)
    (hsome : selected ≠ .unsatisfiable) :
    (Delivery.draftFor site.options boundary file.resource (some date)
      (sent (site.service t) order o.target o.found).2 selected).finish.getAll
        HeaderName.contentEncoding = o.codings ((variant? order o.found).map Variant.format) := by
  rw [getAll_contentEncoding_sent hsome]
  cases hv : variant? order o.found with
  | none => rfl
  | some v =>
    rw [hv] at hform
    have hformat : v.format ∈ site.settings.resources.formats := by
      cases hform
      assumption
    simp only [Option.bind_some, Headers.value?_of_visible (hf _ hformat), Option.map_some, codings]

lemma varies_sent_iff :
    (Delivery.draftFor site.options boundary file.resource (some date)
      (sent (site.service t) order o.target o.found).2 selected).finish.getAll HeaderName.vary =
        [utf8 "Accept-Encoding".toList] ↔ ∃ f file, o.Form (some f) file := by
  rw [exists_sibling_iff, Delivery.getAll_finish_draftFor _ _ _ _ (by decide) (by decide)
    (free_sent (by decide) _ _ _), (status_headers_sent _ _ _).2, variesBy]
  cases o.found.kind with
  | compressible vs => exact ⟨fun _ => ⟨vs, rfl⟩, fun _ => rfl⟩
  | plain => simp [Headers.getAll]
  | welcome => simp [Headers.getAll]

end

/-- **A delivery presents one form** of the base, that which the accepted codings call for. -/
theorem presents_of_delivery (hf : ∀ f ∈ site.settings.resources.formats,
      Visible f.encoding ∧ Visible f.suffix) (o : site.Base t raw) {q : Inquiry}
    {order : List Text} {reply : Reply} (hb : Visible q.boundary) (hq : q.headOnly = false)
    (h : delivery (site.service t) q order o.target o.found = .ok reply)
    (hok : reply.status = 200 ∨ reply.status = 206) :
    ∃ file, o.Presents q.boundary ((variant? order o.found).map Variant.format) file reply := by
  have htag := o.tag_of_delivery (fun f hm => (hf f hm).2) h hok
  obtain ⟨file, date, hform, hdate, rfl⟩ := o.exists_form_of_delivery h
  rw [hq] at htag hok ⊢
  have hsome := Delivery.ne_unsatisfiable_of_status _ _ _ _ _ hok
  refine ⟨file, hform, ?_, ⟨date, hdate, getAll_lastModified_sent hdate hsome⟩,
    getAll_contentEncoding_of_form (fun f hm => (hf f hm).1) hform hsome, htag, varies_sent_iff⟩
  refine Delivery.carries_replyFor _ hb (MediaType.visible_ofPath _) (status_headers_sent _ _ _).1
    (free_sent (by decide) _ _ _) (free_sent (by decide) _ _ _)
    (getAll_sent_of_ne (by decide) _ _ _) (typeValues_sent hform) ?_ rfl hsome
  rw [filter_contentType_sent]
  cases variant? order o.found <;> simp

lemma tag_injective {suffix suffix' : Text} (h : o.tag suffix = o.tag suffix') :
    suffix = suffix' := by
  have hp : EntityTag.parts (o.tag suffix) = EntityTag.parts (o.tag suffix') := by rw [h]
  rw [tag, tag, EntityTag.parts_ofLabel, EntityTag.parts_ofLabel] at hp
  exact List.append_cancel_left (EntityTag.Parts.mk.inj hp).2

/-- Where the suffixes of the formats tell them apart, the suffix of a form tells the form and the
file. -/
lemma Form.eq_of_suffixOf (hd : (site.settings.resources.formats.map Format.suffix).Nodup)
    (hn : [] ∉ site.settings.resources.formats.map Format.suffix) {form form' : Option Format}
    {file file' : Stored t} (h : o.Form form file) (h' : o.Form form' file')
    (he : suffixOf form = suffixOf form') : form = form' ∧ file = file' := by
  cases h with
  | base =>
    cases h' with
    | base => exact ⟨rfl, rfl⟩
    | @sibling f' _ hf' _ _ =>
      have hnil : f'.suffix = [] := he.symm
      exact absurd (hnil ▸ List.mem_map_of_mem hf') hn
  | @sibling f _ hf hname _ =>
    cases h' with
    | base =>
      have hnil : f.suffix = [] := he
      exact absurd (hnil ▸ List.mem_map_of_mem hf) hn
    | @sibling f' _ hf' hname' _ =>
      obtain rfl : f = f' := List.inj_on_of_nodup_map hd hf hf' he
      exact ⟨rfl, Stored.eq_of_name (hname.trans hname'.symm)⟩

end Base

/-- The site answers some `GET` request for the path with bytes of a file. -/
structure Sends (site : Site) (t : Tree) (boundary raw : Text) (reply : Reply) : Prop where
  answer : ∃ (r : Request) (arrival : Arrival) (n : Negotiator), r.method = Service.get ∧
    r.path = raw ∧ (site.handle t boundary arrival r n).1.result = .ok reply
  status : reply.status = 200 ∨ reply.status = 206
  body : ∃ name segments size, reply.body = .file name segments size

lemma Sends.exists_presents (hf : ∀ f ∈ site.settings.resources.formats,
      Visible f.encoding ∧ Visible f.suffix) {b : Text} (hb : ∀ c ∈ b, c.isAlphanum = true)
    {reply : Reply} (h : site.Sends t b raw reply) :
    ∃ o : site.Base t raw, ∃ form file, o.Presents b form file reply := by
  obtain ⟨r, arrival, n, hm, rfl, hr⟩ := h.answer
  obtain ⟨o, hd⟩ := exists_delivery_of_body hr h.body
  obtain ⟨file, hp⟩ := Base.presents_of_delivery hf o (visible_of_isAlphanum hb)
    (Request.headOnly_of_get hm b o.path) hd h.status
  exact ⟨o, _, file, hp⟩

/-- **One representation**: a success with bytes of a file is about one form of the base that the
path leads to. If the suffixes of the formats tell them apart, another success for the path that has
the same tag is about the same form. -/
theorem presents_of_sends (hf : ∀ f ∈ site.settings.resources.formats,
      Visible f.encoding ∧ Visible f.suffix) {b : Text} (hb : ∀ c ∈ b, c.isAlphanum = true)
    {reply : Reply} (h : site.Sends t b raw reply) :
    ∃ o : site.Base t raw, ∃ form file, o.Presents b form file reply ∧
      ((site.settings.resources.formats.map Format.suffix).Nodup →
        [] ∉ site.settings.resources.formats.map Format.suffix →
        ∀ (b' : Text) (reply' : Reply) (tag : Bytes), (∀ c ∈ b', c.isAlphanum = true) →
          site.Sends t b' raw reply' → tag ∈ reply.headers.getAll HeaderName.etag →
          tag ∈ reply'.headers.getAll HeaderName.etag → o.Presents b' form file reply') := by
  obtain ⟨o, form, file, hp⟩ := h.exists_presents hf hb
  refine ⟨o, form, file, hp, fun hd hn b' reply' tag hb' h' ht ht' => ?_⟩
  obtain ⟨o', form', file', hp'⟩ := h'.exists_presents hf hb'
  obtain rfl := Subsingleton.elim o o'
  rw [hp.tag] at ht
  rw [hp'.tag] at ht'
  split at ht
  · next htags =>
    rw [if_pos htags] at ht'
    have he : suffixOf form = suffixOf form' := by
      refine Base.tag_injective (o := o) (utf8_injective ?_)
      exact (List.mem_singleton.1 ht).symm.trans (List.mem_singleton.1 ht')
    obtain ⟨rfl, rfl⟩ := Base.Form.eq_of_suffixOf hd hn hp.among hp'.among he
    exact hp'
  · exact absurd ht List.not_mem_nil

theorem presents_of_sends_sample :
    ∃ reply, (Sample.site.handle (Sample.tree ⟨0⟩) "Zq7".toList Sample.arrival
        (Sample.request [(HeaderName.acceptEncoding, utf8 "gzip".toList)])
        Sample.site.negotiator).1.result = .ok reply ∧
      reply.headers.getAll HeaderName.contentEncoding = [utf8 "gzip".toList] ∧
      ∃ o : Sample.site.Base (Sample.tree ⟨0⟩) "/a.txt".toList, ∃ form file,
        o.Presents "Zq7".toList form file reply := by
  have hf : ∀ f ∈ Sample.site.settings.resources.formats,
      Visible f.encoding ∧ Visible f.suffix := by decide
  have hb : ∀ c ∈ "Zq7".toList, c.isAlphanum = true := List.all_eq_true.1 (by decide)
  obtain ⟨reply, h, hreply⟩ := Sample.exists_of_toOption
    (x := (Sample.site.handle (Sample.tree ⟨0⟩) "Zq7".toList Sample.arrival
      (Sample.request [(HeaderName.acceptEncoding, utf8 "gzip".toList)])
      Sample.site.negotiator).1.result)
    (f := fun x => (x.status, x.body, x.headers.getAll HeaderName.contentEncoding))
    (b := (200, .file "/srv/a.txt.gz".toList [.all] 32768, [utf8 "gzip".toList]))
    (by decide +kernel)
  obtain ⟨hs, hbody, hcoding⟩ : reply.status = 200 ∧ _ ∧ _ := by
    simpa only [Prod.mk.injEq] using hreply
  obtain ⟨o, form, file, hp, -⟩ := presents_of_sends hf hb
    ⟨⟨_, _, _, rfl, rfl, h⟩, Or.inl hs, _, _, _, hbody⟩
  exact ⟨reply, h, hcoding, o, form, file, hp⟩

end Site

end Docroot

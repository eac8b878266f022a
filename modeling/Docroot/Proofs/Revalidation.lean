import Mathlib.Tactic.Common
import Docroot.Proofs.Forms
import Docroot.Proofs.Memory
import Docroot.Proofs.TagPreconditions

/-!
Asking again with a tag. The tag that a reply carries, for a file or for a compressed form of it, is
accepted later just when the file itself has kept its length and its time of modification, to the
millisecond.
-/

namespace Docroot

open EntityTag Text

def Tree.SinceEpoch (t : Tree) : Prop := ∀ p e, t.find? p = some e → 0 ≤ e.modified.nanos

lemma Tree.sinceEpoch_of_entries {t : Tree} (h : ∀ x ∈ t.entries, 0 ≤ x.2.modified.nanos) :
    t.SinceEpoch := by
  intro p e he
  rcases mem_entries_of_find? he with rfl | hm
  · exact Int.le_refl 0
  · exact h _ hm

/-- The method is `GET`, and these are the preconditions; the other fields may be any. -/
structure Request.Gets (r : Request) (path : Text) (conditions : Headers) : Prop where
  method : r.method = Service.get
  path : r.path = path
  conditions : ∀ m ∈ Precondition.fieldNames, r.headers.getAll m = conditions.getAll m

structure Reply.FromFile (reply : Reply) : Prop where
  status : reply.status = 200
  body : ∃ name segments size, reply.body = .file name segments size

namespace Stored

variable {t : Tree} (file : Stored t)

def tag : Text := generate (some file.modified) (some file.data.length)

lemma getAll_etag_described (modified : Option Text) (length : Representation.SentLength)
    (options : Options) {d : Draft} (hd : d.headers.getAll HeaderName.etag = []) :
    (Representation.described file.resource modified length options d).headers.getAll
      HeaderName.etag = if options.tags then [utf8 file.tag] else [] := by
  have hown : file.resource.tag.bind Headers.value? = some (utf8 file.tag) := by
    refine Headers.value?_of_visible ?_
    rw [generate_eq]
    exact visible_ofLabel (visible_labelOf _ _)
  rw [Representation.getAll_described_etag, Representation.tagValues]
  cases options.tags with
  | true => simp only [if_true, hown]
  | false => exact hd

end Stored

namespace Site

open Service

variable {site : Site} {t : Tree} {raw : Text}

/-- The length of the file that a raw path leads to, and when it was modified. -/
def baseFile? (site : Site) (t : Tree) (raw : Text) : Option (Nat × Timestamp) :=
  match (RequestPath.normalize? raw).map fun path => aim (site.service t) path none with
  | some (.ok (some (.file target _))) =>
    match t.stat (FileLookup.nameOf site.root target) with
    | .ok (_, ⟨.file data, modified⟩) => some (data.length, modified)
    | _ => none
  | _ => none

lemma Base.baseFile? (o : site.Base t raw) :
    site.baseFile? t raw = some (o.data.length, o.modified) := by
  unfold Site.baseFile?
  rw [o.regular, Option.map_some, o.aim none]
  simp only [o.stat]

/-- The tag of a base file with a suffix. -/
def Base.tag (o : site.Base t raw) (suffix : Text) : Text :=
  ofLabel (labelOf o.modified.epochMillis o.data.length ++ suffix)

lemma Base.tag_resource (o : site.Base t raw) : o.found.resource.tag = some (o.tag []) := by
  rw [o.resource, Base.tag, List.append_nil, ← generate_eq]
  rfl

lemma Base.visible_tag (o : site.Base t raw) {suffix : Text} (h : Visible suffix) :
    Visible (o.tag suffix) :=
  visible_ofLabel (visible_append.2 ⟨visible_labelOf _ _, h⟩)

lemma Base.list?_tag (o : site.Base t raw) {suffix : Text} (h : suffix = [] ∨ IsSuffix suffix) :
    list? (o.tag suffix) = some [o.tag suffix] := by
  have hq : '"' ∉ suffix := by
    rcases h with rfl | ⟨x, rfl, -, hx, -⟩
    · exact List.not_mem_nil
    · simp only [List.mem_cons, not_or]
      exact ⟨by decide, by decide, hx⟩
  refine list?_ofLabel ?_
  rw [List.mem_append, not_or]
  exact ⟨quote_not_mem_labelOf _ _, hq⟩

/-- The tag of one file stands for another just when time and length are the same. -/
lemma Base.covers_tag_iff {site' : Site} {t' : Tree} {raw' : Text} (o : site.Base t raw)
    (o' : site'.Base t' raw') {suffix : Text} (h : suffix = [] ∨ IsSuffix suffix) :
    covers (withSuffix (o.tag []) []) (o'.tag suffix) = true ↔
      o'.data.length = o.data.length ∧ o'.modified.epochMillis = o.modified.epochMillis := by
  have hg : o.tag [] = generate (some o.modified) (some o.data.length) := by
    rw [Base.tag, List.append_nil, generate_eq]
  rw [hg, Base.tag, covers_ofLabel_iff h]
  constructor
  · exact fun h => ⟨h.2.symm, h.1.symm⟩
  · exact fun h => ⟨h.2.symm, h.1.symm⟩

lemma Base.withSuffix_tag (o : site.Base t raw) (suffix : Text) :
    withSuffix (o.tag []) suffix = o.tag suffix := by
  unfold Base.tag
  rw [withSuffix_ofLabel, base_labelOf_append _ _ (Or.inl rfl)]

/-- The suffix that the tag of a file carries when this form of it is sent. -/
def suffixOf (form : Option Format) : Text := (form.map Format.suffix).getD []

lemma Base.tag_stored (o : site.Base t raw) : o.stored.tag = o.tag [] := by
  rw [Stored.tag, generate_eq, Base.tag, List.append_nil]
  rfl

lemma Base.value?_tag (o : site.Base t raw) {suffix : Text} (h : Visible suffix) :
    Headers.value? (o.tag suffix) = some (utf8 (o.tag suffix)) :=
  Headers.value?_of_visible (o.visible_tag h)

/-- Where something is selected, the tag is that of the base file with the suffix of the format, if
it can stand in a header. -/
lemma Base.getAll_etag_sent (o : site.Base t raw) {order : List Text} {file : Stored t}
    {date boundary : Text} {selected : ByteRange.Selection}
    (hform : o.Form ((variant? order o.found).map Variant.format) file)
    (hsome : selected ≠ .unsatisfiable) :
    (Delivery.draftFor site.options boundary file.resource (some date)
      (sent (site.service t) order o.target o.found).2 selected).finish.getAll HeaderName.etag =
      if site.options.tags then
        (Headers.value?
          (o.tag (suffixOf ((variant? order o.found).map Variant.format)))).toList
      else [] := by
  have hv : ∀ length status, (Representation.described file.resource (some date) length site.options
      ((sent (site.service t) order o.target o.found).2.setStatus status)).headers.getAll
        HeaderName.etag = if site.options.tags then [utf8 file.tag] else [] := by
    intro length status
    exact file.getAll_etag_described _ _ _ (getAll_sent_of_ne (by decide) _ _ _)
  rw [Delivery.getAll_finish_draftFor_of_described _ _ _ _ (by decide) (by decide) hv hsome,
    filter_etag_sent]
  cases hc : variant? order o.found with
  | none =>
    rw [hc] at hform
    cases hform
    show _ = if site.options.tags then (Headers.value? (o.tag [])).toList else []
    rw [o.value?_tag visible_nil, ← o.tag_stored]
    rfl
  | some v =>
    simp only [Option.map_some, Option.toList_some, List.foldl_cons, List.foldl_nil, o.tag_resource,
      o.withSuffix_tag, Option.bind_some]
    cases site.options.tags <;> rfl

/-- **The tag of a delivery** is that of the base file, with the suffix of the format when a
compressed form is sent. -/
theorem Base.tag_of_delivery (hs : ∀ f ∈ site.settings.resources.formats, Visible f.suffix)
    (o : site.Base t raw) {q : Inquiry} {order : List Text} {reply : Reply}
    (h : delivery (site.service t) q order o.target o.found = .ok reply)
    (hok : reply.status = 200 ∨ reply.status = 206) :
    reply.headers.getAll HeaderName.etag =
      if site.options.tags then
        [utf8 (o.tag (suffixOf ((variant? order o.found).map Variant.format)))]
      else [] := by
  obtain ⟨file, date, hform, -, rfl⟩ := o.exists_form_of_delivery h
  have hsuffix : Visible (suffixOf ((variant? order o.found).map Variant.format)) := by
    cases hc : variant? order o.found with
    | none => exact visible_nil
    | some v =>
      rw [hc] at hform
      cases hform with
      | sibling hf _ _ => exact hs v.format hf
  refine (o.getAll_etag_sent hform (Delivery.ne_unsatisfiable_of_status _ _ _ _ _ hok)).trans ?_
  rw [o.value?_tag hsuffix]
  rfl

lemma isSuffix_suffixOf (hs : ∀ f ∈ site.settings.resources.formats, IsSuffix f.suffix)
    (o : site.Base t raw) (order : List Text) :
    suffixOf ((variant? order o.found).map Variant.format) = [] ∨
      IsSuffix (suffixOf ((variant? order o.found).map Variant.format)) := by
  obtain ⟨hf, -⟩ := finds_of_leads (leads_of_aim _ (o.aim none))
  cases hc : variant? order o.found with
  | none => exact Or.inl rfl
  | some v =>
    obtain ⟨vs, hk, hv⟩ := exists_of_variant? hc
    exact Or.inr (hs v.format (hf.variant vs hk v (mem_of_chosen hv)).1)

lemma status_of_delivery (o : site.Base t raw) {q : Inquiry} {order : List Text} {reply : Reply}
    (h : delivery (site.service t) q order o.target o.found = .ok reply) :
    reply.status = 200 ∨ reply.status = 206 ∨ reply.status = 416 := by
  obtain ⟨file, date, -, -, rfl⟩ := o.exists_form_of_delivery h
  unfold Delivery.replyFor
  rw [Delivery.status_draftFor]
  split
  · exact Or.inl (status_headers_sent _ _ _).1
  · exact Or.inr (Or.inr rfl)
  · exact Or.inr (Or.inl rfl)

section

variable {b : Text} {arrival : Arrival} {n : Negotiator} {c : Request} {conditions : Headers}

lemma Base.result_handle (o : site.Base t raw) (hc : c.Gets raw conditions) :
    (site.handle t b arrival c n).1.result =
      settled ((judged (site.service t) c.headers o.found.resource
        (delivery (site.service t) (c.inquiry b o.path)
          (consulted (c.headers.lines HeaderName.acceptEncoding) o.found n).1 o.target o.found)).map
            some) := by
  refine site.handle_of_file t b arrival n ?_ (by rw [hc.path]; exact o.regular) (o.aim c.query)
  rw [hc.method]
  exact methodReply_get

lemma Base.handle_of_verdict (o : site.Base t raw) (hc : c.Gets raw conditions)
    {verdict : Precondition.Verdict}
    (he : Precondition.evaluate c.headers o.found.resource site.options.tags = .ok verdict)
    {reply : Reply} (hr : verdict.reply? = some reply) :
    (site.handle t b arrival c n).1.result = .ok reply := by
  rw [o.result_handle hc, judged,
    show Precondition.evaluate _ _ (site.service t).options.tags = _ from he]
  simp only [hr]
  rfl

lemma Base.status_of_proceed (o : site.Base t raw) (hc : c.Gets raw conditions)
    (he : Precondition.evaluate c.headers o.found.resource site.options.tags = .ok .proceed)
    {reply : Reply} (h : (site.handle t b arrival c n).1.result = .ok reply) :
    reply.status ≠ 304 ∧ reply.status ≠ 412 := by
  rw [o.result_handle hc, judged_of_proceed _ _ he] at h
  generalize hx : delivery (site.service t) (c.inquiry b o.path) _ o.target o.found = x at h
  cases x with
  | ok y =>
    cases h
    have hs := status_of_delivery o hx
    omega
  | error e =>
    cases e with
    | undatable => cases h
    | failed f =>
      cases h
      cases f
      · exact show 400 ≠ 304 ∧ 400 ≠ 412 by decide
      · exact show 500 ≠ 304 ∧ 500 ≠ 412 by decide

variable {tag : Text}

lemma Base.notModified_iff (o : site.Base t raw) (ht : site.options.tags = true)
    (hv : Visible tag) (hl : list? tag = some [tag])
    (hc : c.Gets raw [(HeaderName.ifNoneMatch, utf8 tag)]) :
    (∃ x, (site.handle t b arrival c n).1.result = .ok x ∧ x.status = 304) ↔
      covers (withSuffix (o.tag []) []) tag = true := by
  have he := Precondition.evaluate_ifNoneMatch ht o.tag_resource hv hl hc.conditions
  constructor
  · rintro ⟨x, hx, h304⟩
    by_contra hn
    rw [if_neg hn] at he
    exact (o.status_of_proceed hc he hx).1 h304
  · intro h
    rw [if_pos h] at he
    exact ⟨_, o.handle_of_verdict hc he rfl, rfl⟩

lemma Base.failed_iff (o : site.Base t raw) (ht : site.options.tags = true)
    (hv : Visible tag) (hl : list? tag = some [tag])
    (hc : c.Gets raw [(HeaderName.ifMatch, utf8 tag)]) :
    (∃ x, (site.handle t b arrival c n).1.result = .ok x ∧ x.status = 412) ↔
      ¬ covers (withSuffix (o.tag []) []) tag = true := by
  have he := Precondition.evaluate_ifMatch ht o.tag_resource hv hl hc.conditions
  constructor
  · rintro ⟨x, hx, h412⟩ h
    rw [if_pos h] at he
    exact (o.status_of_proceed hc he hx).2 h412
  · intro h
    rw [if_neg h] at he
    exact ⟨_, o.handle_of_verdict hc he rfl, rfl⟩

end

/-- The length and the time of modification, in whole milliseconds, are the same. -/
def Kept (f g : Nat × Timestamp) : Prop :=
  f.1 = g.1 ∧ f.2.nanos / 1000000 = g.2.nanos / 1000000

lemma epochMillis_eq_iff {a b : Timestamp} (ha : 0 ≤ a.nanos) (hb : 0 ≤ b.nanos) :
    a.epochMillis = b.epochMillis ↔ a.nanos / 1000000 = b.nanos / 1000000 := by
  unfold Timestamp.epochMillis
  omega

/-- Some answer of the site to the request is this reply. -/
def Replies (site : Site) (t : Tree) (r : Request) (reply : Reply) : Prop :=
  ∃ b arrival n, (site.handle t b arrival r n).1.result = .ok reply

lemma Replies.exists_base {r : Request} {reply : Reply} (h : site.Replies t r reply)
    (hf : reply.FromFile) : Nonempty (site.Base t r.path) := by
  obtain ⟨b, arrival, n, h⟩ := h
  obtain ⟨o, -⟩ := exists_delivery_of_body h hf.body
  exact ⟨o⟩

lemma Base.sinceEpoch (o : site.Base t raw) (ht : t.SinceEpoch) : 0 ≤ o.modified.nanos :=
  ht o.place _ (Tree.stat_eq_ok_iff.1 o.stat).2

lemma Base.exists_suffix_of_replies (o : site.Base t raw) (ht : site.options.tags = true)
    (hs : ∀ f ∈ site.settings.resources.formats, IsSuffix f.suffix) {r : Request}
    (hr : r.Gets raw []) {reply : Reply} (h : site.Replies t r reply)
    (hok : reply.status = 200 ∨ reply.status = 206) :
    ∃ suffix, (suffix = [] ∨ IsSuffix suffix) ∧
      reply.headers.getAll HeaderName.etag = [utf8 (o.tag suffix)] := by
  obtain ⟨b, arrival, n, h⟩ := h
  cases answers_of_handle site t b arrival n h with
  | bare hb => exact absurd hok (not_or.2 hb.status)
  | listing _ hp ha _ =>
    rw [hr.path, o.regular] at hp
    cases hp
    rw [o.aim] at ha
    cases ha
  | file _ hp ha _ hd =>
    rw [hr.path, o.regular] at hp
    cases hp
    rw [o.aim] at ha
    cases ha
    have htag := o.tag_of_delivery (fun f hf => (hs f hf).visible) hd hok
    rw [if_pos ht] at htag
    exact ⟨_, isSuffix_suffixOf hs o _, htag⟩

/-- **Revalidation**: let a path lead to a file in two trees. A tag that the site gives for it in
the first tree, with a reply to any request without preconditions, is found unmodified in the second
tree if and only if the file has kept its length and its time; and asking for just this tag fails if
and only if it has not. -/
theorem revalidation {site₁ site₂ : Site} {t₁ t₂ : Tree} (htags₁ : site₁.options.tags = true)
    (htags₂ : site₂.options.tags = true)
    (hs : ∀ f ∈ site₁.settings.resources.formats, IsSuffix f.suffix)
    (ht₁ : t₁.SinceEpoch) (ht₂ : t₂.SinceEpoch) {raw : Text}
    {r₁ r₂ r : Request} {plain₁ plain₂ reply : Reply} (hr₁ : r₁.Gets raw [])
    (h₁ : site₁.Replies t₁ r₁ plain₁) (hf₁ : plain₁.FromFile) (hr₂ : r₂.Gets raw [])
    (h₂ : site₂.Replies t₂ r₂ plain₂) (hf₂ : plain₂.FromFile) (hr : r.Gets raw [])
    (h : site₁.Replies t₁ r reply) (hok : reply.status = 200 ∨ reply.status = 206)
    {tag : Bytes} (htag : tag ∈ reply.headers.getAll HeaderName.etag) :
    ∃ f₁ f₂, site₁.baseFile? t₁ raw = some f₁ ∧ site₂.baseFile? t₂ raw = some f₂ ∧
      (∀ c b arrival n, c.Gets raw [(HeaderName.ifNoneMatch, tag)] →
        ((∃ x, (site₂.handle t₂ b arrival c n).1.result = .ok x ∧ x.status = 304) ↔ Kept f₁ f₂)) ∧
      (∀ c b arrival n, c.Gets raw [(HeaderName.ifMatch, tag)] →
        ((∃ x, (site₂.handle t₂ b arrival c n).1.result = .ok x ∧ x.status = 412) ↔
          ¬ Kept f₁ f₂)) := by
  obtain ⟨o₁⟩ := h₁.exists_base hf₁
  obtain ⟨o₂⟩ := h₂.exists_base hf₂
  rw [hr₁.path] at o₁
  rw [hr₂.path] at o₂
  obtain ⟨suffix, hsuf, he⟩ := o₁.exists_suffix_of_replies htags₁ hs hr h hok
  rw [he] at htag
  obtain rfl := List.mem_singleton.1 htag
  have hv := o₁.visible_tag (hsuf.elim (fun hnil => hnil ▸ visible_nil) IsSuffix.visible)
  have hl := o₁.list?_tag hsuf
  -- a tag holds the milliseconds and the length, and nothing else
  have hkept : covers (withSuffix (o₂.tag []) []) (o₁.tag suffix) = true ↔
      Kept (o₁.data.length, o₁.modified) (o₂.data.length, o₂.modified) := by
    rw [o₂.covers_tag_iff o₁ hsuf]
    unfold Kept
    rw [epochMillis_eq_iff (o₁.sinceEpoch ht₁) (o₂.sinceEpoch ht₂)]
  refine ⟨_, _, o₁.baseFile?, o₂.baseFile?, ?_, ?_⟩
  · intro c b arrival n hc
    rw [o₂.notModified_iff htags₂ hv hl hc, hkept]
  · intro c b arrival n hc
    rw [o₂.failed_iff htags₂ hv hl hc, hkept]

theorem revalidation_sample :
    ∃ x, (Sample.site.handle (Sample.tree ⟨999999⟩) [] Sample.arrival
      (Sample.request [(HeaderName.ifNoneMatch, utf8 "W/\"0-5--gzip\"".toList)])
      Sample.site.negotiator).1.result = .ok x ∧ x.status = 304 := by
  have hgets : ∀ headers : Headers,
      (Sample.request headers).Gets "/a.txt".toList headers := fun _ => ⟨rfl, rfl, fun _ _ => rfl⟩
  have hgzip : (Sample.request [(HeaderName.acceptEncoding, utf8 "gzip".toList)]).Gets
      "/a.txt".toList [] := ⟨rfl, rfl, by decide⟩
  have hformats : ∀ f ∈ Sample.site.settings.resources.formats, IsSuffix f.suffix := by
    intro f hf
    rcases List.mem_cons.1 (show f ∈ [Format.br, Format.gzip] from hf) with rfl | hf
    · exact ⟨"br".toList, rfl, by decide, by decide, by decide, by decide⟩
    · obtain rfl := List.mem_singleton.1 hf
      exact ⟨"gzip".toList, rfl, by decide, by decide, by decide, by decide⟩
  obtain ⟨p₁, h₁, hs₁, hb₁⟩ := Sample.exists_plain (Or.inl rfl)
  obtain ⟨p₂, h₂, hs₂, hb₂⟩ := Sample.exists_plain (Or.inr rfl)
  obtain ⟨reply, h, hreply⟩ := Sample.exists_of_toOption
    (x := (Sample.site.handle (Sample.tree ⟨0⟩) [] Sample.arrival
      (Sample.request [(HeaderName.acceptEncoding, utf8 "gzip".toList)])
      Sample.site.negotiator).1.result)
    (f := fun x => (x.status, x.headers.getAll HeaderName.etag))
    (b := (200, [utf8 "W/\"0-5--gzip\"".toList])) (by decide +kernel)
  obtain ⟨hs, htag⟩ := Prod.mk.inj hreply
  obtain ⟨f₁, f₂, hf₁, hf₂, hn, -⟩ := revalidation
    (show Sample.site.options.tags = true from rfl) (show Sample.site.options.tags = true from rfl)
    hformats (Tree.sinceEpoch_of_entries (by decide)) (Tree.sinceEpoch_of_entries (by decide))
    (hgets []) ⟨_, _, _, h₁⟩ ⟨hs₁, _, _, _, hb₁⟩ (hgets []) ⟨_, _, _, h₂⟩ ⟨hs₂, _, _, _, hb₂⟩
    hgzip ⟨_, _, _, h⟩ (Or.inl hs) (htag ▸ List.mem_singleton_self _)
  have hk₁ : Sample.site.baseFile? (Sample.tree ⟨0⟩) "/a.txt".toList = some (5, ⟨0⟩) := by
    decide +kernel
  have hk₂ : Sample.site.baseFile? (Sample.tree ⟨999999⟩) "/a.txt".toList = some (5, ⟨999999⟩) := by
    decide +kernel
  rw [hk₁] at hf₁
  rw [hk₂] at hf₂
  cases hf₁
  cases hf₂
  exact (hn _ [] Sample.arrival Sample.site.negotiator (hgets _)).2 ⟨rfl, by decide⟩

end Site

end Docroot

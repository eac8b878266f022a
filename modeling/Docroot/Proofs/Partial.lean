import Mathlib.Tactic.Common
import Docroot.Proofs.Copying
import Docroot.Proofs.Memory
import Docroot.Proofs.Visible

/-!
Requests for parts of a file. Whatever `Range` lines are added to a request that is answered with
the bytes of a file, the reply is about the same bytes: it brings all of them, one range of them,
several ranges of them in one body, or tells how many there are.
-/

namespace Docroot

open Text

lemma Text.visible_of_isAlphanum {s : Text} (h : ∀ c ∈ s, c.isAlphanum = true) : Visible s := by
  intro c hc
  have ha := h c hc
  unfold Char.isAlphanum Char.isAlpha Char.isUpper Char.isLower Char.isDigit at ha
  simp only [Bool.or_eq_true, Bool.and_eq_true, decide_eq_true_eq, UInt32.le_iff_toNat_le] at ha
  have h0 : '0'.val.toNat = 48 := rfl
  have h9 : '9'.val.toNat = 57 := rfl
  have hA : 'A'.val.toNat = 65 := rfl
  have hZ : 'Z'.val.toNat = 90 := rfl
  have ha' : 'a'.val.toNat = 97 := rfl
  have hz : 'z'.val.toNat = 122 := rfl
  unfold VisibleChar Char.toNat
  omega

namespace ByteRange

lemma visible_contentRange (r : ByteRange) (total : Nat) : Visible (r.contentRange total) := by
  unfold contentRange
  simp only [visible_append, visible_cons, visible_decimal, and_true, true_and]
  decide

lemma visible_unsatisfiedRange (total : Nat) : Visible (unsatisfiedRange (some total)) := by
  unfold unsatisfiedRange
  simp only [Option.map_some, Option.getD_some, visible_append, visible_decimal, and_true]
  decide

end ByteRange

namespace Delivery

open Docroot.Representation

lemma visible_multipartType {boundary : Text} (h : Visible boundary) :
    Visible (multipartType boundary) := by
  unfold multipartType
  rw [visible_append]
  exact ⟨by decide, h⟩

/-- What was registered for the type of a reply does not act on that of several parts. -/
lemma contentType_multipart {boundary : Text} (hb : Visible boundary) (d : Draft) :
    ((d.dropOverride HeaderName.contentType).setText HeaderName.contentType
      (some (multipartType boundary))).finish.getAll HeaderName.contentType =
        [utf8 (multipartType boundary)] := by
  rw [Draft.getAll_finish_of_free]
  · refine Draft.getAll_setText_of_value ?_ _
    exact Headers.value?_of_visible (visible_multipartType hb)
  · intro o ho
    rw [Draft.overrides_setText] at ho
    simpa using (List.mem_filter.1 ho).2

variable (options : Options) (boundary : Text) (resource : Resource) (modified : Option Text)
  {d : Draft}

lemma contentLength_whole {n : Nat} (hn : resource.length = some n)
    (hf : d.Free HeaderName.contentLength) :
    (described resource modified .known options d).finish.getAll HeaderName.contentLength =
      [Reply.numeral n] := by
  rw [Draft.getAll_finish_of_free, getAll_described_contentLength]
  · simp [SentLength.of, hn]
  · simpa [Draft.Free] using hf

lemma contentLength_singlePart (r : ByteRange) (hf : d.Free HeaderName.contentLength) :
    (singlePart options resource modified r d).finish.getAll HeaderName.contentLength =
      [Reply.numeral r.length] := by
  rw [Draft.getAll_finish_of_free, singlePart, Draft.getAll_setText_of_ne (by decide),
    getAll_described_contentLength]
  · rfl
  · simpa [Draft.Free] using hf

lemma contentRange_singlePart {n : Nat} (hn : resource.length = some n) (r : ByteRange)
    (hf : d.Free HeaderName.contentRange) :
    (singlePart options resource modified r d).finish.getAll HeaderName.contentRange =
      [utf8 (r.contentRange n)] := by
  rw [Draft.getAll_finish_of_free, singlePart]
  · refine Draft.getAll_setText_of_value ?_ _
    rw [hn]
    exact Headers.value?_of_visible (r.visible_contentRange n)
  · simpa [Draft.Free] using hf

lemma contentLength_severalParts (hf : d.Free HeaderName.contentLength)
    (hd : d.headers.getAll HeaderName.contentLength = []) :
    (severalParts options boundary resource modified d).finish.getAll HeaderName.contentLength =
      [] := by
  rw [Draft.getAll_finish_of_free, severalParts, Draft.getAll_setText_of_ne (by decide)]
  · exact (getAll_described_contentLength resource modified .none options _).trans hd
  · intro o ho
    rw [overrides_severalParts] at ho
    exact hf o (List.mem_filter.1 ho).1

lemma contentType_severalParts (hb : Visible boundary) :
    (severalParts options boundary resource modified d).finish.getAll HeaderName.contentType =
      [utf8 (multipartType boundary)] :=
  contentType_multipart hb _

lemma contentRange_unsatisfied {n : Nat} (hn : resource.length = some n) :
    (unsatisfied options resource modified d).finish.getAll HeaderName.contentRange =
      [utf8 (ByteRange.unsatisfiedRange (some n))] := by
  rw [Draft.getAll_finish_of_free, unsatisfied]
  · refine Draft.getAll_setText_of_value ?_ _
    rw [hn]
    exact Headers.value?_of_visible (ByteRange.visible_unsatisfiedRange n)
  · simp [Draft.Free]

lemma selection_eq_whole_iff {lines : List Text} :
    selection options lines resource = .whole ↔
      options.ranges = false ∨ ∀ line ∈ lines, ByteRange.bytesUnit? line = none := by
  unfold selection
  cases options.ranges with
  | false => simp
  | true =>
    cases lines with
    | nil => simp
    | cons line rest => simp [ByteRange.select_eq_whole_iff]

section

variable (d) {t : Tree} {name : Text} {place : Place} {data : Bytes} {time : Timestamp}

omit d in
lemma brings_segment (ht : t.stat name = .ok (place, ⟨.file data, time⟩))
    (hs : options.bufferSize < Copy.bufferBound) {s : Segment} (hfits : s.Fits data) :
    (Body.stream t (.file name [s] options.bufferSize)).Brings (s.content data) := by
  have h := Copy.brings_file ht hs (List.forall_mem_singleton.2 hfits)
  rwa [List.flatMap_cons, List.flatMap_nil, List.append_nil] at h

lemma brings_whole (ht : t.stat name = .ok (place, ⟨.file data, time⟩))
    (hs : options.bufferSize < Copy.bufferBound) :
    (Body.stream t (bodyFor options boundary false resource name modified d .whole)).Brings data :=
  brings_segment options ht hs (s := .all) trivial

lemma brings_single (ht : t.stat name = .ok (place, ⟨.file data, time⟩))
    (hs : options.bufferSize < Copy.bufferBound) {r : ByteRange} (hr : r.Within data.length) :
    (Body.stream t (bodyFor options boundary false resource name modified d (.parts [r]))).Brings
      (r.slice data) :=
  brings_segment options ht hs (s := .range r) hr

lemma brings_several (ht : t.stat name = .ok (place, ⟨.file data, time⟩))
    (hs : options.bufferSize < Copy.bufferBound) (hn : resource.length = some data.length)
    {x y : ByteRange} {rs : List ByteRange}
    (hr : ∀ r ∈ x :: y :: rs, ByteRange.Within data.length r) :
    (Body.stream t (bodyFor options boundary false resource name modified d
        (.parts (x :: y :: rs)))).Brings
      (Multipart.body boundary (partType options resource modified d) data (x :: y :: rs)) := by
  have hfits : ∀ s ∈ parts boundary (partType options resource modified d) data.length true
      (x :: y :: rs), s.Fits data := Multipart.fits_parts boundary _ data hr true
  have h := Copy.brings_file ht hs hfits
  rw [Multipart.content_parts _ _ _ (List.cons_ne_nil x _)] at h
  unfold bodyFor
  simp only [hn]
  exact h

end

lemma within_of_selection {n : Nat} (hn : resource.length = some n) {lines : List Text}
    {rs : List ByteRange} (h : selection options lines resource = .parts rs) :
    rs ≠ [] ∧ ∀ r ∈ rs, ByteRange.Within n r := by
  unfold selection at h
  split at h
  · rw [hn] at h
    exact ByteRange.within_of_select h
  · cases h

end Delivery

/-- The body of the reply is copied from a file of the tree, and it brings the bytes of that file.
-/
structure Reply.Delivers (reply : Reply) (t : Tree) (data : Bytes) : Prop where
  file : ∃ name segments size place modified, reply.body = .file name segments size ∧
    t.stat name = .ok (place, ⟨.file data, modified⟩)
  brings : (reply.body.stream t).Brings data

/-- How much of a file a reply is about. -/
inductive Extent
  | whole
  | single
  | several
  | unsatisfiable
deriving DecidableEq

/-- The reply is of this extent, for a file that holds `data`. The reply to the request that does
not ask for parts is `plain`. -/
def Extent.Describes (t : Tree) (boundary : Text) (data : Bytes) (plain reply : Reply) :
    Extent → Prop
  | whole => reply = plain ∧ reply.status = 200 ∧ reply.Delivers t data ∧
      reply.headers.getAll HeaderName.contentLength = [Reply.numeral data.length]
  | single => reply.status = 206 ∧ ∃ r : ByteRange, r.Within data.length ∧
      (reply.body.stream t).Brings (r.slice data) ∧
      reply.headers.getAll HeaderName.contentLength = [Reply.numeral (r.last - r.first + 1)] ∧
      reply.headers.getAll HeaderName.contentRange = [utf8 (r.contentRange data.length)]
  | several => reply.status = 206 ∧ ∃ type rs, 2 ≤ rs.length ∧
      (∀ r ∈ rs, ByteRange.Within data.length r) ∧
      (reply.body.stream t).Brings (Multipart.body boundary type data rs) ∧
      reply.headers.getAll HeaderName.contentLength = [] ∧
      reply.headers.getAll HeaderName.contentType = [utf8 (Delivery.multipartType boundary)]
  | unsatisfiable => reply.status = 416 ∧
      reply.headers.getAll HeaderName.contentRange =
        [utf8 (ByteRange.unsatisfiedRange (some data.length))]

namespace Extent

variable {t : Tree} {boundary : Text} {data : Bytes} {plain reply : Reply}

def status : Extent → Nat
  | whole => 200
  | single => 206
  | several => 206
  | unsatisfiable => 416

lemma Describes.status {e : Extent} (h : e.Describes t boundary data plain reply) :
    reply.status = e.status := by
  cases e with
  | whole => exact h.2.1
  | single => exact h.1
  | several => exact h.1
  | unsatisfiable => exact h.1

lemma not_several_of_single (h₁ : single.Describes t boundary data plain reply) :
    ¬ several.Describes t boundary data plain reply := by
  rintro ⟨-, type, rs, -, -, -, hn, -⟩
  obtain ⟨-, r, -, -, hr, -⟩ := h₁
  rw [hr] at hn
  cases hn

lemma Describes.unique {e₁ e₂ : Extent} (h₁ : e₁.Describes t boundary data plain reply)
    (h₂ : e₂.Describes t boundary data plain reply) : e₁ = e₂ := by
  have hs : e₁.status = e₂.status := h₁.status.symm.trans h₂.status
  cases e₁ <;> cases e₂ <;> first | rfl | cases hs
  · exact absurd h₂ (not_several_of_single h₁)
  · exact absurd h₁ (not_several_of_single h₂)

end Extent

namespace Site

open Service

variable {site : Site} {t : Tree} {n n₁ n₂ : Negotiator} {b b₁ b₂ : Text}
  {arrival arrival₁ arrival₂ : Arrival} {r : Request}

/-- Where the bytes of a reply come from: the path of the request leads to a file, the preconditions
let it through, and what is sent of it is a file of the tree with these bytes. -/
structure Origin (site : Site) (t : Tree) (r : Request) (data : Bytes) where
  path : Text
  target : Text
  found : Found
  name : Text
  place : Place
  modified : Timestamp
  written : Option Text
  regular : RequestPath.normalize? r.path = some path
  aim : aim (site.service t) path r.query = .ok (some (.file target found))
  proceed : Precondition.evaluate r.headers found.resource site.options.tags = .ok .proceed
  sent : (Service.sent (site.service t) (site.accepted r.headers found) target found).1 =
    FileLookup.resourceOf name place.name ⟨.file data, modified⟩
  stat : t.stat name = .ok (place, ⟨.file data, modified⟩)
  dated : (Service.sent (site.service t) (site.accepted r.headers found) target
    found).1.lastModified = .ok written

namespace Origin

variable {data : Bytes} (o : site.Origin t r data)

def form : Resource × Draft :=
  Service.sent (site.service t) (site.accepted r.headers o.found) o.target o.found

def reply (boundary : Text) (selected : ByteRange.Selection) : Reply :=
  Delivery.replyFor site.options boundary false o.form.1 o.name o.written o.form.2 selected

lemma delivery_eq {q : Inquiry} (hq : q.headOnly = false) :
    delivery (site.service t) q (site.accepted r.headers o.found) o.target o.found =
      .ok (o.reply q.boundary
        (Delivery.selection site.options (q.headers.lines HeaderName.range) o.form.1)) := by
  have hs : o.form.1.source = .file o.name := by
    rw [show o.form.1 = _ from o.sent]
    rfl
  rw [Service.delivery_eq hs, hq, show (Service.sent _ _ _ _).1.lastModified = _ from o.dated]
  rfl

end Origin

lemma exists_origin (hn : site.Reachable n) (hm : r.method = get)
    (hr : r.headers.getAll HeaderName.range = []) {plain : Reply}
    (hp : (site.handle t b arrival r n).1.result = .ok plain) (hb : ¬ plain.Held) :
    ∃ data, ∃ o : site.Origin t r data, plain = o.reply b .whole := by
  cases answers_of_handle site t b arrival n hp with
  | bare h => exact absurd h.held hb
  | listing _ _ _ h => exact absurd (held_of_listingReply h) hb
  | @file path target found _ hpath haim he h =>
    rw [hn.consulted] at h
    obtain ⟨p, written, hh, hd, hw, rfl⟩ := exists_sent_of_delivery (leads_of_aim _ haim) h
    obtain ⟨place, data, modified, hstat, -, hres⟩ := hh.exists_file hd
    have hsel : Delivery.selection site.options ((r.inquiry b path).headers.lines HeaderName.range)
        (Service.sent (site.service t) (site.accepted r.headers found) target found).1 =
          .whole := by
      show Delivery.selection _ (r.headers.lines HeaderName.range) _ = _
      rw [Headers.lines, hr, Delivery.selection_eq_whole_iff]
      exact Or.inr fun line hl => absurd hl List.not_mem_nil
    refine ⟨data, ⟨path, target, found, _, place, modified, written, hpath, haim, he, hres, hstat,
      hw⟩, ?_⟩
    rw [hsel, Request.headOnly_of_get hm]
    rfl

lemma Origin.eq_of_delivers {data data' : Bytes} (o : site.Origin t r data')
    (h : (o.reply b .whole).Delivers t data) : data' = data := by
  obtain ⟨name, segments, size, place, modified, hbody, hstat⟩ := h.file
  have hname : name = o.name := by
    cases hbody
    rfl
  rw [hname, o.stat] at hstat
  cases hstat
  rfl

/-- With more lines that ask for parts, the reply selects some of the same bytes. -/
lemma Origin.result_handle {data : Bytes} (o : site.Origin t r data) (hn : site.Reachable n)
    (hm : r.method = get) (hr : r.headers.getAll HeaderName.range = []) (values : List Bytes) :
    (site.handle t b arrival (r.withLines HeaderName.range values) n).1.result =
      .ok (o.reply b
        (Delivery.selection site.options (values.filterMap Bytes.visible?) o.form.1)) := by
  have ha := r.alikeBut_withLines HeaderName.range values
  have hc : site.accepted (r.withLines HeaderName.range values).headers o.found =
      site.accepted r.headers o.found := by
    unfold accepted
    rw [ha.lines (by decide)]
  have hv : (r.withLines HeaderName.range values).headers.lines HeaderName.range =
      values.filterMap Bytes.visible? := by
    unfold Headers.lines Request.withLines
    rw [Headers.getAll_append_list, hr, Headers.getAll_map, List.nil_append]
  have hg : (r.withLines HeaderName.range values).method = get := hm
  have he := (ha.evaluate (by decide) o.found.resource site.options.tags).symm.trans o.proceed
  rw [site.handle_of_file t b arrival n (r := r.withLines HeaderName.range values)
    (by rw [hg]; exact methodReply_get) o.regular o.aim, hn.consulted, hc, judged_of_proceed _ _ he,
    o.delivery_eq (Request.headOnly_of_get hg b o.path)]
  unfold Request.inquiry
  rw [hv]
  rfl

namespace Origin

variable {data : Bytes} (o : site.Origin t r data)

lemma status_reply (selected : ByteRange.Selection) :
    (o.reply b selected).status =
      match selected with
      | .whole => 200
      | .unsatisfiable => 416
      | .parts _ => 206 := by
  refine (Delivery.status_draftFor site.options b o.form.1 o.written o.form.2 selected).trans ?_
  cases selected with
  | whole => exact (status_headers_sent _ _ _).1
  | unsatisfiable => rfl
  | parts rs => rfl

lemma length_form : o.form.1.length = some data.length := by
  rw [show o.form.1 = _ from o.sent]
  rfl

lemma free_form {m : Text} (hm : m ∉ overriddenNames) : o.form.2.Free m := free_sent hm _ _ _

lemma bufferSize_lt (hd : (o.reply b .whole).Delivers t data) (hn : data ≠ []) :
    site.options.bufferSize < Copy.bufferBound := by
  by_contra hc
  obtain ⟨-, hb⟩ := hd.brings
  have hs : Body.stream t (o.reply b .whole).body = ⟨[], none⟩ := by
    show Copy.file t o.name [.all] site.options.bufferSize = _
    unfold Copy.file
    rw [o.stat]
    exact if_pos (Nat.not_lt.1 hc)
  rw [hs] at hb
  exact hn hb.symm

lemma describes_whole (hd : (o.reply b₁ .whole).Delivers t data) :
    Extent.whole.Describes t b₂ data (o.reply b₁ .whole) (o.reply b₂ .whole) := by
  refine ⟨rfl, o.status_reply .whole, hd, ?_⟩
  exact Delivery.contentLength_whole _ _ _ o.length_form (o.free_form (by decide))

lemma describes_single {x : ByteRange} (hx : x.Within data.length)
    (hs : site.options.bufferSize < Copy.bufferBound) (plain : Reply) :
    Extent.single.Describes t b₂ data plain (o.reply b₂ (.parts [x])) := by
  refine ⟨o.status_reply _, x, hx, ?_, ?_, ?_⟩
  · exact Delivery.brings_single site.options b₂ o.form.1 o.written o.form.2 o.stat hs hx
  · have hl : x.last - x.first + 1 = x.length := by
      obtain ⟨h1, h2⟩ := hx
      unfold ByteRange.length
      omega
    rw [hl]
    exact Delivery.contentLength_singlePart _ _ _ x (o.free_form (by decide))
  · exact Delivery.contentRange_singlePart _ _ _ o.length_form x (o.free_form (by decide))

lemma describes_several {x y : ByteRange} {rs : List ByteRange}
    (hr : ∀ z ∈ x :: y :: rs, ByteRange.Within data.length z)
    (hs : site.options.bufferSize < Copy.bufferBound) (hb : Visible b₂) (plain : Reply) :
    Extent.several.Describes t b₂ data plain (o.reply b₂ (.parts (x :: y :: rs))) := by
  refine ⟨o.status_reply _, Delivery.partType site.options o.form.1 o.written o.form.2,
    x :: y :: rs, by simp, hr, ?_, ?_, Delivery.contentType_severalParts _ _ _ _ hb⟩
  · exact Delivery.brings_several _ _ _ _ _ o.stat hs o.length_form hr
  · exact Delivery.contentLength_severalParts _ _ _ _ (o.free_form (by decide))
      (getAll_sent_of_ne (by decide) _ _ _)

lemma describes_unsatisfiable (plain : Reply) :
    Extent.unsatisfiable.Describes t b₂ data plain (o.reply b₂ .unsatisfiable) :=
  ⟨o.status_reply _, Delivery.contentRange_unsatisfied _ _ _ o.length_form⟩

lemma exists_extent (hd : (o.reply b₁ .whole).Delivers t data) (hb : Visible b₂)
    (lines : List Text) :
    ∃ e : Extent, e.Describes t b₂ data (o.reply b₁ .whole)
      (o.reply b₂ (Delivery.selection site.options lines o.form.1)) := by
  cases hs : Delivery.selection site.options lines o.form.1 with
  | whole => exact ⟨_, o.describes_whole hd⟩
  | unsatisfiable => exact ⟨_, o.describes_unsatisfiable _⟩
  | parts rs =>
    obtain ⟨hne, hr⟩ := Delivery.within_of_selection site.options _ o.length_form hs
    have hbuf : site.options.bufferSize < Copy.bufferBound := by
      refine o.bufferSize_lt hd fun he => ?_
      obtain ⟨x, hx⟩ := List.exists_mem_of_ne_nil rs hne
      obtain ⟨-, h⟩ := hr x hx
      rw [he] at h
      exact absurd h (Nat.not_lt_zero _)
    match rs, hne, hr with
    | [x], _, hr => exact ⟨_, o.describes_single (hr x List.mem_cons_self) hbuf _⟩
    | x :: y :: rs, _, hr => exact ⟨_, o.describes_several hr hbuf hb _⟩

end Origin

/-- **Parts of one file**: if a `GET` request without `Range` lines is answered with the bytes of a
file, then with any `Range` lines it is answered by exactly one of: the same reply; one range of
these bytes; several ranges of them; or their number alone. It is the same reply just when parts
are not sent at all or no line asks for bytes. -/
theorem extent_of_ranges (h₁ : site.Reachable n₁) (h₂ : site.Reachable n₂)
    (hb : ∀ c ∈ b₂, c.isAlphanum = true) (hm : r.method = get)
    (hr : r.headers.getAll HeaderName.range = []) {plain : Reply}
    (hp : (site.handle t b₁ arrival₁ r n₁).1.result = .ok plain) {data : Bytes}
    (hd : plain.Delivers t data) (values : List Bytes) :
    ∃ reply, (site.handle t b₂ arrival₂ (r.withLines HeaderName.range values) n₂).1.result =
        .ok reply ∧
      (∃! e : Extent, e.Describes t b₂ data plain reply) ∧
      (Extent.whole.Describes t b₂ data plain reply ↔ site.options.ranges = false ∨
        ∀ line ∈ values.filterMap Bytes.visible?, ByteRange.bytesUnit? line = none) := by
  -- only a body that is copied from a file delivers bytes
  have hb' : ¬ plain.Held := by
    obtain ⟨name, segments, size, _, _, hbody, _⟩ := hd.file
    exact fun h => h name segments size hbody
  obtain ⟨data', o, rfl⟩ := exists_origin h₁ hm hr hp hb'
  obtain rfl := o.eq_of_delivers hd
  obtain ⟨e, he⟩ := o.exists_extent hd (visible_of_isAlphanum hb) (values.filterMap Bytes.visible?)
  refine ⟨_, o.result_handle h₂ hm hr values, ⟨e, he, fun e' he' => he'.unique he⟩, ?_⟩
  rw [← Delivery.selection_eq_whole_iff site.options o.form.1]
  constructor
  · intro hw
    have h200 := hw.status.symm.trans (o.status_reply _)
    -- the status tells the three selections apart
    cases hsel : Delivery.selection site.options (values.filterMap Bytes.visible?) o.form.1 with
    | whole => rfl
    | unsatisfiable =>
      rw [hsel] at h200
      cases h200
    | parts rs =>
      rw [hsel] at h200
      cases h200
  · intro hw
    rw [hw]
    exact o.describes_whole hd

theorem extent_of_ranges_sample :
    let site := Sample.site
    let t := Sample.tree ⟨0⟩
    let parts := (Sample.request []).withLines HeaderName.range [utf8 "bytes=0-0,-2".toList]
    ∃ plain reply,
      (site.handle t [] Sample.arrival (Sample.request []) site.negotiator).1.result = .ok plain ∧
      (site.handle t "Zq7".toList Sample.arrival parts site.negotiator).1.result = .ok reply ∧
      ∃! e : Extent, e.Describes t "Zq7".toList (utf8 "hello".toList) plain reply := by
  intro site t parts
  obtain ⟨plain, hp, -, hbody⟩ := Sample.exists_plain (Or.inl rfl)
  have hd : plain.Delivers t (utf8 "hello".toList) := by
    refine ⟨⟨_, _, _, ["srv".toList, "a.txt".toList], ⟨0⟩, hbody, by decide +kernel⟩, ?_⟩
    rw [hbody]
    exact ⟨by decide +kernel, by decide +kernel⟩
  have hb : ∀ c ∈ "Zq7".toList, c.isAlphanum = true := List.all_eq_true.1 (by decide)
  obtain ⟨reply, hr, hu, -⟩ := extent_of_ranges .start (Reachable.start : site.Reachable _) hb rfl
    rfl
    hp hd [utf8 "bytes=0-0,-2".toList]
  exact ⟨plain, reply, hp, hr, hu⟩

end Site

end Docroot

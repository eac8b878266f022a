import Mathlib.Data.List.TakeWhile
import Mathlib.Tactic.Common
import Docroot.Proofs.Alike
import Docroot.Proofs.Percent
import Docroot.Proofs.Presentation

/-!
What a body is once its codings are taken off. Where the compressed forms of a file are coded forms
of it, each of them decodes to the file; and so does the file itself, unless its path marks it as
gzip data. Then the file decodes to what it was compressed from, while its forms, which are labelled
with their own coding alone, still decode to the file.
-/

namespace Docroot

open Text

namespace Text

structure IsCoding (c : Text) : Prop where
  nonempty : c ≠ []
  graphic : c.Graphic
  noComma : ',' ∉ c

instance (c : Text) : Decidable c.IsCoding :=
  decidable_of_iff (c ≠ [] ∧ c.Graphic ∧ ',' ∉ c)
    ⟨fun ⟨h1, h2, h3⟩ => ⟨h1, h2, h3⟩, fun ⟨h1, h2, h3⟩ => ⟨h1, h2, h3⟩⟩

end Text

/-- The decoder of each coding; it may find that bytes are not in the coding. -/
abbrev Decoders := Text → Bytes → Option Bytes

def Decoders.decode (D : Decoders) (codings : List Text) (data : Bytes) : Option Bytes :=
  codings.foldr (fun c x => x.bind (D c)) (some data)

namespace Reply

/-- The codings that the body is said to be in, in the order in which they are listed. -/
def codings (reply : Reply) : List Text :=
  (reply.headers.lines HeaderName.contentEncoding).flatMap fun line =>
    ((splitOn ',' line).map trim).filter fun s => !s.isEmpty

/-- The body comes through, and these bytes are left when its codings are taken off. -/
def Decodes (reply : Reply) (D : Decoders) (t : Tree) (bytes : Bytes) : Prop :=
  ∃ body, (reply.body.stream t).Brings body ∧ D.decode reply.codings body = some bytes

variable {reply : Reply}

lemma Decodes.unique {D : Decoders} {t : Tree} {x y : Bytes} (h : reply.Decodes D t x)
    (h' : reply.Decodes D t y) : x = y := by
  obtain ⟨body, ⟨-, rfl⟩, hx⟩ := h
  obtain ⟨body', ⟨-, rfl⟩, hy⟩ := h'
  exact Option.some.inj (hx.symm.trans hy)

lemma codings_of_nil (h : reply.headers.getAll HeaderName.contentEncoding = []) :
    reply.codings = [] := by
  rw [codings, Headers.lines, h]
  rfl

lemma codings_of_single {c : Text} (hc : c.IsCoding)
    (h : reply.headers.getAll HeaderName.contentEncoding = [utf8 c]) : reply.codings = [c] := by
  rw [codings, Headers.lines, h, List.filterMap_cons, Bytes.visible?_utf8 hc.graphic.visible]
  simp [splitOn_of_not_mem hc.noComma, hc.graphic.trim, hc.nonempty]

end Reply

namespace Site

open Service

variable {site : Site} {t : Tree} {raw : Text} {D : Decoders}

def gzipCoding : Text := "gzip".toList

namespace Base

variable (o : site.Base t raw)

/-- The path says by its ending that the base is gzip data. -/
def Marked : Prop := ∃ ending ∈ site.options.gzipExtensions, ending <:+ o.target

/-- The compressed forms are coded forms of the base, and a base that is said to be gzip data is. -/
structure Coded (D : Decoders) : Prop where
  form : ∀ f file, o.Form (some f) file → D f.encoding file.data = some o.data
  marked : o.Marked → ∃ bytes, D gzipCoding o.data = some bytes

/-- What is left of a form when the codings that it is labelled with are taken off. -/
inductive Yields (D : Decoders) : Option Format → Bytes → Prop
  | form (f : Format) : Yields D (some f) o.data
  | base (h : ¬ o.Marked) : Yields D none o.data
  | gunzipped {bytes : Bytes} (h : o.Marked) (hd : D gzipCoding o.data = some bytes) :
      Yields D none bytes

variable {o}

/-- Two forms yield the same bytes, unless the one is the base, which its path marks as gzip data,
and the other is not. -/
lemma Yields.eq_or_marked {form form' : Option Format} {bytes bytes' : Bytes}
    (h : o.Yields D form bytes) (h' : o.Yields D form' bytes') :
    bytes = bytes' ∨ o.Marked ∧ ∃ f plain, D gzipCoding o.data = some plain ∧
      (form = none ∧ bytes = plain ∧ form' = some f ∧ bytes' = o.data ∨
        form = some f ∧ bytes = o.data ∧ form' = none ∧ bytes' = plain) := by
  cases h with
  | form f =>
    cases h' with
    | form _ => exact Or.inl rfl
    | base _ => exact Or.inl rfl
    | gunzipped hm hd => exact Or.inr ⟨hm, f, _, hd, Or.inr ⟨rfl, rfl, rfl, rfl⟩⟩
  | base hm =>
    cases h' with
    | form _ => exact Or.inl rfl
    | base _ => exact Or.inl rfl
    | gunzipped hm' _ => exact absurd hm' hm
  | gunzipped hm hd =>
    cases h' with
    | form f => exact Or.inr ⟨hm, f, _, hd, Or.inl ⟨rfl, rfl, rfl, rfl⟩⟩
    | base hm' => exact absurd hm hm'
    | gunzipped _ hd' => exact Or.inl (Option.some.inj (hd.symm.trans hd'))

lemma marked_iff :
    (site.options.gzipExtensions.any fun e => e.isSuffixOf o.target) = true ↔ o.Marked := by
  simp [Marked]

lemma codings_none_of_marked (h : o.Marked) : o.codings none = [utf8 gzipCoding] := by
  unfold codings
  rw [if_pos (marked_iff.2 h), gzipCoding]

lemma codings_none_of_not_marked (h : ¬ o.Marked) : o.codings none = [] := by
  unfold codings
  rw [if_neg fun ha => h (marked_iff.1 ha)]

/-- A form that is labelled with its codings is decoded into what it yields. -/
lemma Coded.exists_yields (hD : o.Coded D)
    (hc : ∀ f ∈ site.settings.resources.formats, f.encoding.IsCoding) {form : Option Format}
    {file : Stored t} (hform : o.Form form file) {reply : Reply}
    (hb : (reply.body.stream t).Brings file.data)
    (hl : reply.headers.getAll HeaderName.contentEncoding = o.codings form) :
    ∃ bytes, o.Yields D form bytes ∧ reply.Decodes D t bytes := by
  cases hform with
  | @sibling f file hf hn hw =>
    refine ⟨o.data, .form f, file.data, hb, ?_⟩
    rw [Reply.codings_of_single (hc f hf) hl]
    exact hD.form f file (.sibling hf hn hw)
  | base =>
    by_cases hm : o.Marked
    · obtain ⟨bytes, hbytes⟩ := hD.marked hm
      refine ⟨bytes, .gunzipped hm hbytes, o.data, hb, ?_⟩
      rw [codings_none_of_marked hm] at hl
      rw [Reply.codings_of_single (by decide) hl]
      exact hbytes
    · refine ⟨o.data, .base hm, o.data, hb, ?_⟩
      rw [Reply.codings_of_nil (hl.trans (codings_none_of_not_marked hm))]
      rfl

/-- The reply sends one form of the base, whole, and is decoded into what the form yields. -/
structure Conveys (o : site.Base t raw) (D : Decoders) (form : Option Format) (reply : Reply)
    (bytes : Bytes) : Prop where
  sends : ∃ file, o.Form form file ∧ ∃ segments size, reply.body = .file file.name segments size
  yields : o.Yields D form bytes
  decodes : reply.Decodes D t bytes

lemma Coded.exists_conveys (hD : o.Coded D)
    (hc : ∀ f ∈ site.settings.resources.formats, f.encoding.IsCoding)
    (hsize : site.options.bufferSize < Copy.bufferBound) {q : Inquiry} {order : List Text}
    {reply : Reply} (hq : q.headOnly = false)
    (h : delivery (site.service t) q order o.target o.found = .ok reply)
    (hs : reply.status = 200) : ∃ form bytes, o.Conveys D form reply bytes := by
  obtain ⟨file, date, hform, -, hreply⟩ := o.exists_form_of_delivery h
  rw [hreply] at hs
  rw [hq, Delivery.eq_whole_of_status _ _ _ _ _ hs] at hreply
  have hb : (reply.body.stream t).Brings file.data := by
    rw [hreply]
    exact Delivery.brings_whole site.options q.boundary file.resource (some date)
      (sent (site.service t) order o.target o.found).2 file.stat hsize
  have hl : reply.headers.getAll HeaderName.contentEncoding =
      o.codings ((variant? order o.found).map Variant.format) := by
    rw [hreply]
    exact getAll_contentEncoding_of_form (fun f hm => (hc f hm).graphic.visible) hform (by simp)
  obtain ⟨bytes, hy, hdecodes⟩ := hD.exists_yields hc hform hb hl
  have hbody : reply.body = .file file.name [.all] site.options.bufferSize := by
    rw [hreply]
    rfl
  exact ⟨_, bytes, ⟨file, hform, _, _, hbody⟩, hy, hdecodes⟩

end Base

/-! ### Every success for a path -/

lemma decodes_of_listingReply {s : Service} {q : Inquiry} {directory : Resource} {reply : Reply}
    (hq : q.headOnly = false) (h : listingReply s q directory = .ok reply)
    (hs : reply.status = 200) : ∃ bytes, reply.Decodes D t bytes := by
  unfold listingReply at h
  split at h
  · cases h
    exact absurd hs (by decide)
  · split at h
    · cases h
    · cases h
      exact absurd hs (by decide)
    · next page _ =>
      cases h
      refine ⟨utf8 page, utf8 page, ?_, ?_⟩
      · rw [hq]
        exact ⟨rfl, List.append_nil _⟩
      · rw [Reply.codings_of_nil rfl]
        rfl

variable {b₁ b₂ : Text} {arrival₁ arrival₂ : Arrival} {r₁ r₂ : Request} {n₁ n₂ : Negotiator}
  {x₁ x₂ : Reply}

/-- **Decoding**: where the compressed forms of what a path leads to are coded forms of it, the
replies to two requests that differ in the codings that they accept are decoded into the same bytes,
unless the path is marked as gzip data and one of them sends the file itself and the other a form of
it. Then the one is decoded into what the file was compressed from, and the other into the file. -/
theorem decodes_of_alike (hc : ∀ f ∈ site.settings.resources.formats, f.encoding.IsCoding)
    (hsize : site.options.bufferSize < Copy.bufferBound)
    (hD : ∀ o : site.Base t r₁.path, o.Coded D) (hm : r₁.method = get)
    (h : r₁.AlikeBut HeaderName.acceptEncoding r₂)
    (h₁ : (site.handle t b₁ arrival₁ r₁ n₁).1.result = .ok x₁) (hs₁ : x₁.status = 200)
    (h₂ : (site.handle t b₂ arrival₂ r₂ n₂).1.result = .ok x₂) (hs₂ : x₂.status = 200) :
    (∃ bytes, x₁.Decodes D t bytes ∧ x₂.Decodes D t bytes) ∨
      ∃ o : site.Base t r₁.path, o.Marked ∧ ∃ f plain, D gzipCoding o.data = some plain ∧
        (o.Conveys D none x₁ plain ∧ o.Conveys D (some f) x₂ o.data ∨
          o.Conveys D (some f) x₁ o.data ∧ o.Conveys D none x₂ plain) := by
  have hm' : r₂.method = get := h.method.symm.trans hm
  rcases listing_or_deliveries h (by rw [hm]; exact methodReply_get) h₁ (Or.inl hs₁) h₂
    (Or.inl hs₂) with ⟨path, directory, hl, rfl⟩ | ⟨o, hd₁, hd₂⟩
  · obtain ⟨bytes, hb⟩ := decodes_of_listingReply (Request.headOnly_of_get hm b₁ path) hl hs₁
    exact Or.inl ⟨bytes, hb, hb⟩
  · obtain ⟨form, bytes, hx⟩ := (hD o).exists_conveys hc hsize
      (Request.headOnly_of_get hm b₁ o.path) hd₁ hs₁
    obtain ⟨form', bytes', hy⟩ := (hD o).exists_conveys hc hsize
      (Request.headOnly_of_get hm' b₂ o.path) hd₂ hs₂
    rcases hx.yields.eq_or_marked hy.yields with rfl | ⟨hmarked, f, plain, hd, hcases⟩
    · exact Or.inl ⟨bytes, hx.decodes, hy.decodes⟩
    · refine Or.inr ⟨o, hmarked, f, plain, hd, ?_⟩
      rcases hcases with ⟨rfl, rfl, rfl, rfl⟩ | ⟨rfl, rfl, rfl, rfl⟩
      · exact Or.inl ⟨hx, hy⟩
      · exact Or.inr ⟨hx, hy⟩

end Site

/-! ### Drawings -/

namespace Sample

def drawing : Bytes := utf8 "<svg/>".toList

def zipped : Bytes :=
  [31, 139, 8, 0, 0, 0, 0, 0, 0, 255, 1, 6, 0, 249, 255, 60, 115, 118, 103, 47, 62, 73, 251, 185,
    172, 6, 0, 0, 0]

def zippedTwice : Bytes :=
  [31, 139, 8, 0, 0, 0, 0, 0, 0, 255, 1, 29, 0, 226, 255] ++ zipped ++
    [218, 36, 88, 20, 29, 0, 0, 0]

def gunzip : Decoders := fun coding data =>
  if coding = Site.gzipCoding then
    if data = zippedTwice then some zipped else if data = zipped then some drawing else none
  else none

def drawings : Tree :=
  ⟨[(["srv".toList], ⟨.directory, ⟨0⟩⟩),
    (["srv".toList, "a.svg".toList], ⟨.file drawing, ⟨0⟩⟩),
    (["srv".toList, "a.svg.gz".toList], ⟨.file zipped, ⟨0⟩⟩),
    (["srv".toList, "a.svgz".toList], ⟨.file zipped, ⟨0⟩⟩),
    (["srv".toList, "a.svgz.gz".toList], ⟨.file zippedTwice, ⟨0⟩⟩)]⟩

def gzipRequestFor (path : Text) : Request :=
  (requestFor path).withLines HeaderName.acceptEncoding [utf8 "gzip".toList]

end Sample

namespace Site

open Service

variable {site : Site} {t : Tree} {raw : Text}

/-- The path under which the file that a raw path leads to is looked up. -/
def target? (site : Site) (t : Tree) (raw : Text) : Option Text :=
  (RequestPath.normalize? raw).bind fun path =>
    match aim (site.service t) path none with
    | .ok (some (.file target _)) => some target
    | _ => none

lemma Base.target?_eq (o : site.Base t raw) : site.target? t raw = some o.target := by
  unfold target?
  rw [o.regular, Option.bind_some, o.aim none]

def node? (t : Tree) (name : Text) : Option Node :=
  (t.stat name).toOption.map fun x => x.2.node

lemma node?_stored (file : Stored t) : node? t file.name = some (.file file.data) := by
  unfold node?
  rw [file.stat]
  rfl

lemma coded_of_gzip {D : Decoders} (target : Text) (base form : Bytes)
    (hformats : site.settings.resources.formats = Format.defaults)
    (ht : site.target? t raw = some target)
    (hbase : node? t (FileLookup.nameOf site.root target) = some (.file base))
    (hbr : node? t (FileLookup.nameOf site.root (target ++ Format.br.extension)) = none)
    (hgzip : node? t (FileLookup.nameOf site.root (target ++ Format.gzip.extension)) =
      some (.file form))
    (hD : D gzipCoding form = some base)
    (hm : (site.options.gzipExtensions.any fun e => e.isSuffixOf target) = true →
      ∃ bytes, D gzipCoding base = some bytes) (o : site.Base t raw) : o.Coded D := by
  obtain rfl : o.target = target := Option.some.inj (o.target?_eq.symm.trans ht)
  obtain rfl : o.data = base := by
    have h := (node?_stored o.stored).symm.trans hbase
    cases h
    rfl
  refine ⟨fun f file hform => ?_, fun hmarked => hm (Base.marked_iff.2 hmarked)⟩
  cases hform with
  | sibling hf hn hw =>
    have hnode := node?_stored file
    rw [hformats] at hf
    rcases List.mem_pair.1 hf with rfl | rfl
    · rw [hn, hbr] at hnode
      cases hnode
    · rw [hn, hgzip] at hnode
      cases hnode
      exact hD

theorem decodes_of_alike_sample :
    ∃ plain zipped, (Sample.site.handle Sample.drawings [] Sample.arrival
        (Sample.requestFor "/a.svg".toList) Sample.site.negotiator).1.result = .ok plain ∧
      (Sample.site.handle Sample.drawings [] Sample.arrival
        (Sample.gzipRequestFor "/a.svg".toList) Sample.site.negotiator).1.result = .ok zipped ∧
      plain.body ≠ zipped.body ∧ ∃ bytes, plain.Decodes Sample.gunzip Sample.drawings bytes ∧
        zipped.Decodes Sample.gunzip Sample.drawings bytes := by
  have hD : ∀ o : Sample.site.Base Sample.drawings (Sample.requestFor "/a.svg".toList).path,
      o.Coded Sample.gunzip :=
    coded_of_gzip "/a.svg".toList Sample.drawing Sample.zipped rfl (by decide +kernel)
      (by decide +kernel) (by decide +kernel) (by decide +kernel) (by decide +kernel)
      fun h => absurd h (by decide)
  obtain ⟨plain, h₁, hplain⟩ := Sample.exists_of_toOption
    (x := (Sample.site.handle Sample.drawings [] Sample.arrival
      (Sample.requestFor "/a.svg".toList) Sample.site.negotiator).1.result)
    (f := fun x => (x.status, x.body)) (b := (200, .file "/srv/a.svg".toList [.all] 32768))
    (by decide +kernel)
  obtain ⟨zipped, h₂, hzipped⟩ := Sample.exists_of_toOption
    (x := (Sample.site.handle Sample.drawings [] Sample.arrival
      (Sample.gzipRequestFor "/a.svg".toList) Sample.site.negotiator).1.result)
    (f := fun x => (x.status, x.body)) (b := (200, .file "/srv/a.svg.gz".toList [.all] 32768))
    (by decide +kernel)
  obtain ⟨hs₁, hb₁⟩ := Prod.mk.inj hplain
  obtain ⟨hs₂, hb₂⟩ := Prod.mk.inj hzipped
  refine ⟨plain, zipped, h₁, h₂, by rw [hb₁, hb₂]; decide, ?_⟩
  rcases decodes_of_alike (by decide) (by decide) hD rfl (Request.alikeBut_withLines _ _ _) h₁ hs₁
    h₂ hs₂ with h | ⟨o, hmarked, -⟩
  · exact h
  · have ht : o.target = "/a.svg".toList :=
      Option.some.inj (o.target?_eq.symm.trans (by decide +kernel))
    have hany := Base.marked_iff.2 hmarked
    rw [ht] at hany
    exact absurd hany (by decide)

/-- Gzip data that is marked as such by its path: with its compressed form it is labelled as
compressed once. -/
theorem relabelled_form :
    (∀ o : Sample.site.Base Sample.drawings "/a.svgz".toList, o.Coded Sample.gunzip) ∧
      ∃ plain zipped, (Sample.site.handle Sample.drawings [] Sample.arrival
          (Sample.requestFor "/a.svgz".toList) Sample.site.negotiator).1.result = .ok plain ∧
        plain.status = 200 ∧
        (Sample.site.handle Sample.drawings [] Sample.arrival
          (Sample.gzipRequestFor "/a.svgz".toList) Sample.site.negotiator).1.result = .ok zipped ∧
        zipped.status = 200 ∧
        plain.Decodes Sample.gunzip Sample.drawings Sample.drawing ∧
        zipped.Decodes Sample.gunzip Sample.drawings Sample.zipped ∧
        ¬ ∃ bytes, plain.Decodes Sample.gunzip Sample.drawings bytes ∧
          zipped.Decodes Sample.gunzip Sample.drawings bytes := by
  refine ⟨coded_of_gzip "/a.svgz".toList Sample.zipped Sample.zippedTwice rfl (by decide +kernel)
    (by decide +kernel) (by decide +kernel) (by decide +kernel) (by decide +kernel)
    fun _ => ⟨Sample.drawing, by decide +kernel⟩, ?_⟩
  obtain ⟨plain, h₁, hplain⟩ := Sample.exists_of_toOption
    (x := (Sample.site.handle Sample.drawings [] Sample.arrival
      (Sample.requestFor "/a.svgz".toList) Sample.site.negotiator).1.result)
    (f := fun x => (x.status, x.body, x.codings))
    (b := (200, .file "/srv/a.svgz".toList [.all] 32768, [gzipCoding])) (by decide +kernel)
  obtain ⟨zipped, h₂, hzipped⟩ := Sample.exists_of_toOption
    (x := (Sample.site.handle Sample.drawings [] Sample.arrival
      (Sample.gzipRequestFor "/a.svgz".toList) Sample.site.negotiator).1.result)
    (f := fun x => (x.status, x.body, x.codings))
    (b := (200, .file "/srv/a.svgz.gz".toList [.all] 32768, [gzipCoding])) (by decide +kernel)
  obtain ⟨hs₁, hb₁, hc₁⟩ : plain.status = 200 ∧ _ ∧ _ := by simpa only [Prod.mk.injEq] using hplain
  obtain ⟨hs₂, hb₂, hc₂⟩ : zipped.status = 200 ∧ _ ∧ _ := by
    simpa only [Prod.mk.injEq] using hzipped
  have hd₁ : plain.Decodes Sample.gunzip Sample.drawings Sample.drawing := by
    refine ⟨Sample.zipped, ?_, by rw [hc₁]; decide +kernel⟩
    rw [hb₁]
    exact ⟨by decide +kernel, by decide +kernel⟩
  have hd₂ : zipped.Decodes Sample.gunzip Sample.drawings Sample.zipped := by
    refine ⟨Sample.zippedTwice, ?_, by rw [hc₂]; decide +kernel⟩
    rw [hb₂]
    exact ⟨by decide +kernel, by decide +kernel⟩
  refine ⟨plain, zipped, h₁, hs₁, h₂, hs₂, hd₁, hd₂, ?_⟩
  -- one decoding unpacks the data once, the other leaves it packed
  rintro ⟨bytes, hx, hy⟩
  have he : Sample.drawing = Sample.zipped := (hd₁.unique hx).trans (hy.unique hd₂)
  exact absurd he (by decide)

end Site

end Docroot

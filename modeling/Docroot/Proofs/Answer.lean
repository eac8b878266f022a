import Mathlib.Tactic.Common
import Docroot.Proofs.Emission
import Docroot.Proofs.Lookup

/-!
What a site answers. A request for a file is answered by what the preconditions call for or by the
delivery of the file; every reply whose body is copied from a file arises in this way.
-/

namespace Docroot

/-- The request as it stands once its path is regular. -/
def Request.inquiry (r : Request) (boundary path : Text) : Inquiry where
  path := path
  query := r.query
  headers := r.headers
  headOnly := r.method == Service.head
  boundary := boundary

/-- The requests differ in the lines of one field only. -/
structure Request.AlikeBut (name : Text) (r₁ r₂ : Request) : Prop where
  method : r₁.method = r₂.method
  path : r₁.path = r₂.path
  query : r₁.query = r₂.query
  headers : ∀ m, m ≠ name → r₁.headers.getAll m = r₂.headers.getAll m

def Precondition.fieldNames : List Text :=
  [HeaderName.ifMatch, HeaderName.ifNoneMatch, HeaderName.ifModifiedSince,
    HeaderName.ifUnmodifiedSince]

namespace Request.AlikeBut

variable {name : Text} {r₁ r₂ : Request}

lemma lines (h : AlikeBut name r₁ r₂) {m : Text} (hm : m ≠ name) :
    r₁.headers.lines m = r₂.headers.lines m := by
  unfold Headers.lines
  rw [h.headers m hm]

lemma evaluate (h : AlikeBut name r₁ r₂) (hn : name ∉ Precondition.fieldNames)
    (resource : Resource) (useTags : Bool) :
    Precondition.evaluate r₁.headers resource useTags =
      Precondition.evaluate r₂.headers resource useTags := by
  have hj : ∀ m ∈ Precondition.fieldNames,
      Precondition.joined r₁.headers m = Precondition.joined r₂.headers m := by
    intro m hm
    unfold Precondition.joined
    rw [h.lines fun e => hn (e ▸ hm)]
  simp only [Precondition.fieldNames, List.forall_mem_cons] at hj
  obtain ⟨h1, h2, h3, h4, _⟩ := hj
  unfold Precondition.evaluate
  rw [h1, h2, h3, h4]

end Request.AlikeBut

def Request.withLines (r : Request) (name : Text) (values : List Bytes) : Request :=
  { r with headers := r.headers ++ values.map fun v => (name, v) }

lemma Request.alikeBut_withLines (r : Request) (name : Text) (values : List Bytes) :
    r.AlikeBut name (r.withLines name values) where
  method := rfl
  path := rfl
  query := rfl
  headers := by
    intro m hm
    rw [withLines, Headers.getAll_append_list, Headers.getAll_map_of_ne (Ne.symm hm),
      List.append_nil]

lemma Request.headOnly_of_get {r : Request} (hm : r.method = Service.get) (boundary path : Text) :
    (r.inquiry boundary path).headOnly = false := by
  show (r.method == Service.head) = false
  rw [hm]
  decide

namespace Service

open Serving

variable {s : Service}

/-- The reply when the work on a request has come to its end. -/
def settled : Except Abort (Option Reply) → Except Abandoned Reply
  | .ok (some reply) => .ok reply
  | .ok none => .ok (Reply.ofStatus 404)
  | .error (.failed f) => .ok (Reply.ofFailure f)
  | .error .undatable => .error ⟨⟩

/-- A reply that the work itself did not come to is bare. -/
lemma eq_or_bare_of_settled {x : Except Abort (Option Reply)} {reply : Reply}
    (h : settled x = .ok reply) : x = .ok (some reply) ∨ reply.Bare := by
  unfold settled at h
  split at h <;> cases h
  · exact Or.inl rfl
  · exact Or.inr (Reply.bare_ofStatus (by decide))
  · exact Or.inr (Reply.bare_ofFailure _)

lemma held_of_listingReply {q : Inquiry} {directory : Resource} {reply : Reply}
    (h : listingReply s q directory = .ok reply) : reply.Held := by
  unfold listingReply at h
  split at h
  · cases h; exact Reply.held_of_full
  · split at h
    · cases h
    · cases h; exact Reply.held_of_full
    · cases h
      split
      · exact Reply.held_of_empty
      · exact Reply.held_of_full

/-- The form of a file that is sent when the codings of `order` are accepted, with the draft that
its reply begins with. -/
def sent (s : Service) (order : List Text) (path : Text) (found : Found) : Resource × Draft :=
  presented order found (Representation.markGzip s.options path {})

/-- The compressed form of a file that the codings of `order` call for. -/
def variant? (order : List Text) (found : Found) : Option Variant :=
  match found.kind with
  | .compressible vs => chosen order vs
  | _ => none

lemma exists_of_variant? {order : List Text} {found : Found} {v : Variant}
    (h : variant? order found = some v) :
    ∃ vs, found.kind = .compressible vs ∧ chosen order vs = some v := by
  unfold variant? at h
  split at h
  · next vs hk => exact ⟨vs, hk, h⟩
  · cases h

/-- The override that marks a path as gzip data by its ending. -/
def gzipMark (options : Options) (path : Text) : List Override :=
  if options.gzipExtensions.any fun e => e.isSuffixOf path then
    [⟨HeaderName.contentEncoding, some (Text.utf8 "gzip".toList), true⟩]
  else []

/-- The overrides that present a compressed form as its base. -/
def basePresentation (base : Resource) (format : Format) : List Override :=
  ⟨HeaderName.contentType, base.contentType.bind Headers.value?, false⟩ ::
    (((Headers.value? format.encoding).map fun v =>
        ⟨HeaderName.contentEncoding, some v, true⟩).toList
      ++ [⟨HeaderName.etag,
        (base.tag.map fun t => EntityTag.withSuffix t format.suffix).bind Headers.value?, false⟩])

/-- The values that `Vary` has when a file is sent. -/
def variesBy (found : Found) : Headers :=
  match found.kind with
  | .compressible _ => [(HeaderName.vary, Text.utf8 "Accept-Encoding".toList)]
  | _ => []

lemma markGzip_eq (options : Options) (path : Text) :
    Representation.markGzip options path {} = ⟨200, [], gzipMark options path⟩ := by
  unfold Representation.markGzip gzipMark
  split <;> rfl

lemma presentAsBase_eq (base : Resource) (format : Format) (d : Draft) :
    Representation.presentAsBase base format d =
      ⟨d.status, d.headers, d.overrides ++ basePresentation base format⟩ := by
  unfold Representation.presentAsBase basePresentation
  cases Headers.value? format.encoding <;> simp [Draft.intercept, Draft.force]

/-- **What is sent** is the file itself, or the form that is called for, presented as the file. -/
theorem sent_eq (order : List Text) (path : Text) (found : Found) :
    sent s order path found =
      match variant? order found with
      | none => (found.resource, ⟨200, variesBy found, gzipMark s.options path⟩)
      | some v => (v.resource, ⟨200, variesBy found,
          gzipMark s.options path ++ basePresentation found.resource v.format⟩) := by
  unfold sent presented variant? variesBy
  rw [markGzip_eq]
  cases found.kind with
  | plain => rfl
  | welcome => rfl
  | compressible vs =>
    simp only
    cases chosen order vs with
    | none => rfl
    | some v =>
      simp only [presentAsBase_eq]
      rfl

lemma filter_gzipMark_of_ne {m : Text} (hm : m ≠ HeaderName.contentEncoding) (options : Options)
    (path : Text) : ((gzipMark options path).filter fun o => o.name == m) = [] := by
  unfold gzipMark
  split
  · simp [Ne.symm hm]
  · rfl

lemma filter_etag_sent (order : List Text) (path : Text) (found : Found) :
    ((sent s order path found).2.overrides.filter fun o => o.name == HeaderName.etag) =
      ((variant? order found).map fun v => ⟨HeaderName.etag,
        (found.resource.tag.map fun t => EntityTag.withSuffix t v.format.suffix).bind
          Headers.value?, false⟩).toList := by
  have ht : (HeaderName.contentType == HeaderName.etag) = false := by decide
  have he : (HeaderName.contentEncoding == HeaderName.etag) = false := by decide
  rw [sent_eq]
  cases variant? order found with
  | none => exact filter_gzipMark_of_ne (by decide) _ _
  | some v =>
    simp only [List.filter_append, filter_gzipMark_of_ne (by decide : HeaderName.etag ≠ _),
      basePresentation]
    cases Headers.value? v.format.encoding <;> simp [ht, he]

lemma filter_contentType_sent (order : List Text) (path : Text) (found : Found) :
    ((sent s order path found).2.overrides.filter fun o => o.name == HeaderName.contentType) =
      ((variant? order found).map fun _ => ⟨HeaderName.contentType,
        found.resource.contentType.bind Headers.value?, false⟩).toList := by
  have ht : (HeaderName.etag == HeaderName.contentType) = false := by decide
  have he : (HeaderName.contentEncoding == HeaderName.contentType) = false := by decide
  rw [sent_eq]
  cases variant? order found with
  | none => exact filter_gzipMark_of_ne (by decide) _ _
  | some v =>
    simp only [List.filter_append, filter_gzipMark_of_ne (by decide : HeaderName.contentType ≠ _),
      basePresentation]
    cases Headers.value? v.format.encoding <;> simp [ht, he]

/-- The coding that a path is marked with comes before the coding of a compressed form. -/
lemma filter_contentEncoding_sent (order : List Text) (path : Text) (found : Found) :
    ((sent s order path found).2.overrides.filter fun o => o.name == HeaderName.contentEncoding) =
      gzipMark s.options path ++ ((variant? order found).bind fun v =>
        (Headers.value? v.format.encoding).map fun value =>
          ⟨HeaderName.contentEncoding, some value, true⟩).toList := by
  have ht : (HeaderName.contentType == HeaderName.contentEncoding) = false := by decide
  have he : (HeaderName.etag == HeaderName.contentEncoding) = false := by decide
  have hg : ((gzipMark s.options path).filter fun o => o.name == HeaderName.contentEncoding) =
      gzipMark s.options path := by
    unfold gzipMark
    split
    · simp
    · rfl
  rw [sent_eq]
  cases variant? order found with
  | none => simp [hg]
  | some v =>
    simp only [List.filter_append, hg, basePresentation, Option.bind_some]
    cases Headers.value? v.format.encoding <;> simp [ht, he]

def overriddenNames : List Text :=
  [HeaderName.contentType, HeaderName.contentEncoding, HeaderName.etag]

lemma mem_overriddenNames_of_gzipMark {options : Options} {path : Text} {o : Override}
    (ho : o ∈ gzipMark options path) : o.name ∈ overriddenNames := by
  unfold gzipMark at ho
  split at ho
  · obtain rfl := List.mem_singleton.1 ho
    exact show HeaderName.contentEncoding ∈ overriddenNames by simp [overriddenNames]
  · exact absurd ho List.not_mem_nil

lemma mem_overriddenNames_of_basePresentation {base : Resource} {format : Format} {o : Override}
    (ho : o ∈ basePresentation base format) : o.name ∈ overriddenNames := by
  unfold basePresentation at ho
  simp only [List.mem_cons, List.mem_append, Option.mem_toList, Option.map_eq_some_iff,
    List.not_mem_nil, or_false] at ho
  rcases ho with rfl | ⟨v, -, rfl⟩ | rfl <;> simp [overriddenNames]

lemma free_sent {m : Text} (hm : m ∉ overriddenNames) (order : List Text) (path : Text)
    (found : Found) : (sent s order path found).2.Free m := by
  intro o ho he
  refine hm (he ▸ ?_)
  rw [sent_eq] at ho
  split at ho
  · exact mem_overriddenNames_of_gzipMark ho
  · rcases List.mem_append.1 ho with ho | ho
    · exact mem_overriddenNames_of_gzipMark ho
    · exact mem_overriddenNames_of_basePresentation ho

lemma status_headers_sent (order : List Text) (path : Text) (found : Found) :
    (sent s order path found).2.status = 200 ∧
      (sent s order path found).2.headers = variesBy found := by
  rw [sent_eq]
  split <;> exact ⟨rfl, rfl⟩

lemma getAll_sent_of_ne {m : Text} (hm : m ≠ HeaderName.vary) (order : List Text) (path : Text)
    (found : Found) : (sent s order path found).2.headers.getAll m = [] := by
  rw [(status_headers_sent order path found).2, variesBy]
  split
  · rw [Headers.getAll_singleton, if_neg (Ne.symm hm)]
  · rfl

/-- The delivery of a file in the form that is sent when the codings of `order` are accepted. -/
def delivery (s : Service) (q : Inquiry) (order : List Text) (path : Text) (found : Found) :
    Except Abort Reply :=
  let x := sent s order path found
  (Delivery.deliver s.options q.boundary q.headOnly q.path (q.headers.lines HeaderName.range)
    x.1 x.2).result

lemma delivery_eq {order : List Text} {path name : Text} {found : Found}
    (hs : (sent s order path found).1.source = .file name) (q : Inquiry) :
    delivery s q order path found =
      (sent s order path found).1.lastModified.map fun modified =>
        Delivery.replyFor s.options q.boundary q.headOnly (sent s order path found).1 name modified
          (sent s order path found).2 (Delivery.selection s.options
            (q.headers.lines HeaderName.range) (sent s order path found).1) :=
  Delivery.result_deliver s.options q.boundary q.headOnly q.path hs _ _

section Alike

variable {name : Text} {r₁ r₂ : Request}

lemma judged_of_alike (h : r₁.AlikeBut name r₂) (hn : name ∉ Precondition.fieldNames)
    (resource : Resource) (x : Except Abort Reply) :
    judged s r₁.headers resource x = judged s r₂.headers resource x := by
  unfold judged
  rw [h.evaluate hn]

lemma listingReply_of_alike (h : r₁.AlikeBut name r₂) (b₁ b₂ path : Text) (directory : Resource) :
    listingReply s (r₁.inquiry b₁ path) directory =
      listingReply s (r₂.inquiry b₂ path) directory := by
  unfold listingReply Request.inquiry
  rw [h.method, h.query]

lemma delivery_of_alike (h : r₁.AlikeBut name r₂) (hn : HeaderName.range ≠ name) (b path : Text)
    (order : List Text) (target : Text) (found : Found) :
    delivery s (r₁.inquiry b path) order target found =
      delivery s (r₂.inquiry b path) order target found := by
  unfold delivery Request.inquiry
  rw [h.method, h.lines hn]

end Alike

lemma run_conclude_file (q : Inquiry) (path : Text) (found : Found) (n : Negotiator) :
    (run (conclude s q (.file path found)) n).1 =
      judged s q.headers found.resource
        (delivery s q (consulted (q.headers.lines HeaderName.acceptEncoding) found n).1 path
          found) := by
  rw [conclude, run_answerFile]
  unfold judged
  cases Precondition.evaluate q.headers found.resource s.options.tags with
  | error e => rfl
  | ok verdict =>
    cases hv : verdict.reply? with
    | some reply => simp [hv]
    | none => simp [hv, run_send, delivery, sent]

end Service

namespace Site

open Serving Service

section

variable {site : Site} {t : Tree}

lemma lookup_of_leads {path target : Text} {found : Found}
    (h : Leads (site.service t) path (.file target found)) :
    (site.lookup t target).result = .ok (some found) ∧ found.resource.isDirectory = false := by
  cases h with
  | direct hf hd => exact ⟨hf, hd⟩
  | welcome hf hd hw ht hn => exact ⟨ht, hn⟩

lemma finds_of_leads {path target : Text} {found : Found}
    (h : Leads (site.service t) path (.file target found)) :
    site.Finds t target found ∧ found.resource.isDirectory = false := by
  obtain ⟨hf, hd⟩ := lookup_of_leads h
  exact ⟨finds_of_lookup hf, hd⟩

lemma holds_of_leads {path : Text} {directory : Resource}
    (h : Leads (site.service t) path (.listing directory)) : site.Holds t path directory := by
  cases h with
  | listing hf hd hw => exact (finds_of_lookup hf).holds

/-- The form that is sent of a file is itself a file at or below the root. -/
lemma Finds.holds_sent {path : Text} {found : Found} (h : site.Finds t path found)
    (hd : found.resource.isDirectory = false) (order : List Text) :
    ∃ p, site.Holds t p (sent (site.service t) order path found).1 ∧
      (sent (site.service t) order path found).1.isDirectory = false := by
  rw [sent_eq]
  cases hv : variant? order found with
  | none => exact ⟨path, h.holds, hd⟩
  | some v =>
    obtain ⟨vs, hk, hc⟩ := exists_of_variant? hv
    obtain ⟨-, hn, hh⟩ := h.variant vs hk v (mem_of_chosen hc)
    exact ⟨_, hh, hn⟩

/-- A delivery sends a file at or below the root, whose date has a written form. -/
lemma exists_sent_of_delivery {path target : Text} {found : Found}
    (hl : Leads (site.service t) path (.file target found)) {q : Inquiry} {order : List Text}
    {reply : Reply} (h : delivery (site.service t) q order target found = .ok reply) :
    ∃ p written, site.Holds t p (sent (site.service t) order target found).1 ∧
      (sent (site.service t) order target found).1.isDirectory = false ∧
      (sent (site.service t) order target found).1.lastModified = .ok written ∧
      reply = Delivery.replyFor site.options q.boundary q.headOnly
        (sent (site.service t) order target found).1 (FileLookup.nameOf site.root p) written
        (sent (site.service t) order target found).2
        (Delivery.selection site.options (q.headers.lines HeaderName.range)
          (sent (site.service t) order target found).1) := by
  obtain ⟨hf, hd⟩ := finds_of_leads hl
  obtain ⟨p, hh, hd⟩ := hf.holds_sent hd order
  rw [delivery_eq hh.source] at h
  cases hm : (sent (site.service t) order target found).1.lastModified with
  | error e =>
    rw [hm] at h
    cases h
  | ok written =>
    rw [hm] at h
    cases h
    exact ⟨p, written, hh, hd, rfl, rfl⟩

variable {q : Inquiry} {n : Negotiator}

lemma run_inquire_of_error {e : Abort} (ha : aim (site.service t) q.path q.query = .error e) :
    run (inquire (site.service t) q) n = (.error e, n) := by
  rw [run_inquire _ (site.marks t), ha]

lemma run_inquire_of_none (ha : aim (site.service t) q.path q.query = .ok none) :
    run (inquire (site.service t) q) n = (.ok none, n) := by
  rw [run_inquire _ (site.marks t), ha]

lemma run_inquire_of_some {a : Aim} (ha : aim (site.service t) q.path q.query = .ok (some a)) :
    run (inquire (site.service t) q) n =
      ((run (conclude (site.service t) q a) n).1.map some,
        (run (conclude (site.service t) q a) n).2) := by
  rw [run_inquire _ (site.marks t), ha]

end

variable (site : Site) (t : Tree) (b : Text) (arrival : Arrival) {r : Request} (n : Negotiator)

lemma result_handle :
    (site.handle t b arrival r n).1.result = (site.respond t b r n).1.result := by
  have hl : ∀ reply, (site.logAccess arrival r reply).result = .ok reply := by
    intro reply
    unfold logAccess
    split <;> rfl
  show Logged.result (_ >>= _) = _
  cases h : (site.respond t b r n).1.result with
  | error e => exact Logged.result_bind_error h
  | ok reply => rw [Logged.result_bind_ok h, hl]

lemma result_orNotFound (raw : Text) (x : Logged Abandoned (Option Reply)) :
    (orNotFound raw x).result = x.result.map fun o => o.getD (Reply.ofStatus 404) := by
  unfold orNotFound
  cases h : x.result with
  | error e => exact Logged.result_bind_error h
  | ok o =>
    rw [Logged.result_bind_ok h]
    cases o <;> rfl

theorem handle_of_irregular (hm : methodReply r.method = none)
    (hp : RequestPath.normalize? r.path = none) :
    (site.handle t b arrival r n).1.result = .ok (Reply.ofStatus 404) ∧
      (site.handle t b arrival r n).2 = n := by
  have hs : (site.service t).serve b r n = (⟨.ok none, [.rejectedPath r.path]⟩, n) ∨
      (site.service t).serve b r n = (pure none, n) := by
    unfold serve inquiry?
    rw [hp]
    split
    · exact Or.inl rfl
    · exact Or.inr rfl
  refine ⟨?_, ?_⟩
  · rw [result_handle]
    unfold respond
    rw [hm]
    rcases hs with h | h <;> simp [h, result_orNotFound, Except.map]
  · show (site.respond t b r n).2 = n
    unfold respond
    rw [hm]
    rcases hs with h | h <;> simp [h]

lemma get_or_head_of_methodReply {method : Text} (hm : methodReply method = none) :
    method = get ∨ method = head := by
  unfold methodReply at hm
  split at hm
  · assumption
  · split at hm <;> cases hm

lemma methodReply_get : methodReply get = none := by
  simp [methodReply]

lemma methodReply_head : methodReply Service.head = none := by
  simp [methodReply]

lemma handle_of_methodReply {x : Logged Abandoned Reply} (hm : methodReply r.method = some x) :
    (site.handle t b arrival r n).1.result = .ok Reply.options ∨
      (site.handle t b arrival r n).1.result = .ok Reply.methodNotAllowed := by
  rw [result_handle, respond, hm]
  unfold methodReply at hm
  split at hm
  · cases hm
  · split at hm <;> cases hm
    · exact Or.inl rfl
    · exact Or.inr rfl

theorem handle_of_regular (hm : methodReply r.method = none) {path : Text}
    (hp : RequestPath.normalize? r.path = some path) :
    (site.handle t b arrival r n).1.result =
        settled (run (inquire (site.service t) (r.inquiry b path)) n).1 ∧
      (site.handle t b arrival r n).2 =
        (run (inquire (site.service t) (r.inquiry b path)) n).2 := by
  have hs : (site.service t).serve b r n =
      (settle path (inquire (site.service t) (r.inquiry b path) n).work,
        (inquire (site.service t) (r.inquiry b path) n).negotiator) := by
    unfold serve inquiry?
    rw [hp, if_pos (get_or_head_of_methodReply hm)]
    rfl
  refine ⟨?_, ?_⟩
  · rw [result_handle]
    unfold respond
    rw [hm]
    simp only [result_orNotFound, hs, run]
    unfold settle settled
    rcases (inquire (site.service t) (r.inquiry b path) n).work.result with (f | _) | _ | reply <;>
      rfl
  · show (site.respond t b r n).2 = _
    unfold respond
    rw [hm]
    simp only [hs, run]

theorem handle_of_file (hm : methodReply r.method = none) {path target : Text} {found : Found}
    (hp : RequestPath.normalize? r.path = some path)
    (ha : aim (site.service t) path r.query = .ok (some (.file target found))) :
    (site.handle t b arrival r n).1.result =
      settled ((judged (site.service t) r.headers found.resource
        (delivery (site.service t) (r.inquiry b path)
          (consulted (r.headers.lines HeaderName.acceptEncoding) found n).1 target found)).map
            some) := by
  rw [(site.handle_of_regular t b arrival n hm hp).1, run_inquire _ (site.marks t),
    show aim (site.service t) (r.inquiry b path).path (r.inquiry b path).query = _ from ha]
  simp only [run_conclude_file]
  rfl

/-- How a request comes to the reply that it gets. -/
inductive Answers (r : Request) (reply : Reply) : Prop
  | bare (h : reply.Bare)
  | listing {path : Text} {directory : Resource} (hm : methodReply r.method = none)
      (hp : RequestPath.normalize? r.path = some path)
      (ha : aim (site.service t) path r.query = .ok (some (.listing directory)))
      (h : listingReply (site.service t) (r.inquiry b path) directory = .ok reply)
  | file {path target : Text} {found : Found} (hm : methodReply r.method = none)
      (hp : RequestPath.normalize? r.path = some path)
      (ha : aim (site.service t) path r.query = .ok (some (.file target found)))
      (he : Precondition.evaluate r.headers found.resource site.options.tags = .ok .proceed)
      (h : delivery (site.service t) (r.inquiry b path)
        (consulted (r.headers.lines HeaderName.acceptEncoding) found n).1 target found = .ok reply)

lemma answers_of_concluded {reply : Reply} (hm : methodReply r.method = none) {path : Text}
    (hp : RequestPath.normalize? r.path = some path) {a : Aim}
    (ha : aim (site.service t) path r.query = .ok (some a))
    (hc : (run (conclude (site.service t) (r.inquiry b path) a) n).1 = .ok reply) :
    site.Answers t b n r reply := by
  cases a with
  | fixed fixedReply =>
    cases hc
    cases leads_of_aim _ ha with
    | fixed h => exact .bare h
  | listing directory =>
    rw [run_conclude_listing] at hc
    rcases bare_or_of_judged _ hc with h | ⟨-, h⟩
    · exact .bare h
    · exact .listing hm hp ha h
  | file target found =>
    rw [run_conclude_file] at hc
    rcases bare_or_of_judged _ hc with h | ⟨he, h⟩
    · exact .bare h
    · exact .file hm hp ha he h

/-- **Every reply has its ground**: it is bare, or it is the listing or the delivery of what the
path leads to. -/
theorem answers_of_handle {reply : Reply}
    (h : (site.handle t b arrival r n).1.result = .ok reply) : site.Answers t b n r reply := by
  cases hm : methodReply r.method with
  | some x =>
    refine .bare ?_
    rcases site.handle_of_methodReply t b arrival n hm with hx | hx <;> rw [hx] at h <;> cases h
    · exact ⟨Reply.held_of_empty, show 204 ≠ 200 ∧ 204 ≠ 206 by decide⟩
    · exact ⟨Reply.held_of_full, show 405 ≠ 200 ∧ 405 ≠ 206 by decide⟩
  | none =>
    cases hp : RequestPath.normalize? r.path with
    | none =>
      rw [(site.handle_of_irregular t b arrival n hm hp).1] at h
      cases h
      exact .bare (Reply.bare_ofStatus (by decide))
    | some path =>
      rw [(site.handle_of_regular t b arrival n hm hp).1] at h
      rcases eq_or_bare_of_settled h with h | h
      · obtain ⟨a, ha, hc⟩ := exists_aim_of_run_inquire _ (site.marks t) h
        exact answers_of_concluded site t b n hm hp ha hc
      · exact .bare h

end Site

end Docroot

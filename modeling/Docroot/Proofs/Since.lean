import Mathlib.Tactic.Common
import Docroot.Proofs.DatePreconditions
import Docroot.Proofs.Presentation

/-!
Asking again with a date. The date that a reply carries is that of the form that was sent, and a
date that is asked with is held against the base. So the file is found unmodified with the date of
its reply just when the base is not newer than the form, to the second.
-/

namespace Docroot

open Text

namespace Request

variable {r : Request}

def Unconditional (r : Request) : Prop := ∀ m ∈ Precondition.fieldNames, r.headers.getAll m = []

instance (r : Request) : Decidable r.Unconditional :=
  inferInstanceAs (Decidable (∀ m ∈ Precondition.fieldNames, r.headers.getAll m = []))

lemma gets_withLines (hm : r.method = Service.get) (hr : r.Unconditional) (name : Text)
    (v : Bytes) : (r.withLines name [v]).Gets r.path [(name, v)] where
  method := hm
  path := rfl
  conditions := by
    intro m hmem
    rw [withLines, Headers.getAll_append_list, hr m hmem]
    rfl

end Request

namespace Site

open Service

variable {site : Site} {t : Tree} {b : Text} {arrival : Arrival} {n : Negotiator} {r : Request}
  {reply : Reply}

lemma getAll_lastModified_of_listingReply {q : Inquiry} {directory : Resource}
    (h : listingReply (site.service t) q directory = .ok reply) (hok : reply.status = 200) :
    reply.headers.getAll HeaderName.lastModified = [] := by
  unfold listingReply at h
  split at h
  · cases h
    exact absurd hok (by decide)
  · split at h
    · cases h
    · cases h
      exact absurd hok (by decide)
    · cases h
      simp only
      rw [← List.singleton_append, Headers.getAll_append_list, Headers.getAll_singleton,
        Headers.getAll_singleton, if_neg (by decide), if_neg (by decide)]
      rfl

/-- A success with a date is the delivery of a file. -/
lemma exists_delivery_of_lastModified (h : (site.handle t b arrival r n).1.result = .ok reply)
    (hok : reply.status = 200) {d : Bytes}
    (hd : d ∈ reply.headers.getAll HeaderName.lastModified) :
    ∃ o : site.Base t r.path, delivery (site.service t) (r.inquiry b o.path)
      (consulted (r.headers.lines HeaderName.acceptEncoding) o.found n).1 o.target o.found =
        .ok reply := by
  cases answers_of_handle site t b arrival n h with
  | bare hbare => exact absurd hok hbare.status.1
  | listing _ _ _ hl =>
    rw [getAll_lastModified_of_listingReply hl hok] at hd
    exact absurd hd List.not_mem_nil
  | file _ hp ha _ hdelivery =>
    obtain ⟨o, rfl, rfl, rfl⟩ := exists_base_of_aim hp ha
    exact ⟨o, hdelivery⟩

section

variable {raw date own : Text} {c : Request} {sent : Timestamp}

lemma Base.notModified_since_iff (o : site.Base t raw) (ho : HttpDate.format? o.modified = some own)
    (hs : HttpDate.format? sent = some date)
    (hc : c.Gets raw [(HeaderName.ifModifiedSince, utf8 date)]) :
    (∃ x, (site.handle t b arrival c n).1.result = .ok x ∧ x.status = 304) ↔
      o.modified.epochSeconds ≤ sent.epochSeconds := by
  have hm : o.found.resource.modified = some o.modified := by rw [o.resource]; rfl
  have he := Precondition.evaluate_ifModifiedSince o.found.resource site.options.tags
    (HttpDate.visible_of_format? hs) hc.conditions
  rw [Precondition.unchangedSince_of_format? hm ho hs] at he
  constructor
  · rintro ⟨x, hx, h304⟩
    by_contra hn
    simp only [Except.map, decide_eq_false hn, Bool.false_eq_true, if_false] at he
    exact (o.status_of_proceed hc he hx).1 h304
  · intro hle
    simp only [Except.map, decide_eq_true hle, if_true] at he
    exact ⟨_, o.handle_of_verdict hc he rfl, rfl⟩

lemma Base.failed_since_iff (o : site.Base t raw) (hs : HttpDate.format? sent = some date)
    (hc : c.Gets raw [(HeaderName.ifUnmodifiedSince, utf8 date)]) :
    (∃ x, (site.handle t b arrival c n).1.result = .ok x ∧ x.status = 412) ↔
      sent.epochSeconds < o.modified.epochSeconds := by
  have hm : o.found.resource.modified = some o.modified := by rw [o.resource]; rfl
  have he := Precondition.evaluate_ifUnmodifiedSince o.found.resource site.options.tags
    (HttpDate.visible_of_format? hs) hc.conditions
  rw [Precondition.changedSince_of_format? hm hs] at he
  constructor
  · rintro ⟨x, hx, h412⟩
    by_contra hn
    simp only [decide_eq_false hn, Bool.false_eq_true, if_false] at he
    exact (o.status_of_proceed hc he hx).2 h412
  · intro hlt
    simp only [decide_eq_true hlt, if_true] at he
    exact ⟨_, o.handle_of_verdict hc he rfl, rfl⟩

end

/-- **Revalidation by date**: let a dated tree answer a request without preconditions by a success
with a date. The request with this date added is answered that the file is not modified if and only
if the base is not newer than the form that was sent, and that the file has been modified if and
only if it is; if the base itself was sent, the first is the case. -/
theorem since_iff (ht : t.Dated) (hm : r.method = Service.get) (hr : r.Unconditional)
    (h : (site.handle t b arrival r n).1.result = .ok reply) (hok : reply.status = 200) {d : Bytes}
    (hd : d ∈ reply.headers.getAll HeaderName.lastModified) :
    ∃ o : site.Base t r.path, ∃ form file, o.Form form file ∧
      (∃ segments size, reply.body = .file file.name segments size) ∧
      ∀ (b' : Text) (arrival' : Arrival) (n' : Negotiator),
        ((∃ x, (site.handle t b' arrival' (r.withLines HeaderName.ifModifiedSince [d])
            n').1.result = .ok x ∧ x.status = 304) ↔
          o.modified.epochSeconds ≤ file.modified.epochSeconds) ∧
        ((∃ x, (site.handle t b' arrival' (r.withLines HeaderName.ifUnmodifiedSince [d])
            n').1.result = .ok x ∧ x.status = 412) ↔
          file.modified.epochSeconds < o.modified.epochSeconds) := by
  obtain ⟨o, hdelivery⟩ := exists_delivery_of_lastModified h hok hd
  obtain ⟨file, date, hform, hdate, rfl⟩ := o.exists_form_of_delivery hdelivery
  have hsome := Delivery.ne_unsatisfiable_of_status _ _ _ _ _ (Or.inl hok)
  obtain rfl : d = utf8 date := List.mem_singleton.1
    ((congrArg (d ∈ ·) (Base.getAll_lastModified_sent hdate hsome)).mp hd)
  obtain ⟨own, hown⟩ := (ht _ _ (Tree.stat_eq_ok_iff.1 o.stat).2 : o.modified.Dated).exists_format?
  refine ⟨o, _, file, hform, ?_, fun b' arrival' n' => ⟨?_, ?_⟩⟩
  · obtain ⟨segments, hs⟩ := Delivery.exists_copied_of_bodyFor site.options b false file.resource
      (some date) file.name (sent (site.service t) _ o.target o.found).2 hsome
    rw [Request.headOnly_of_get hm]
    exact ⟨segments, site.options.bufferSize, hs⟩
  · exact o.notModified_since_iff hown hdate (Request.gets_withLines hm hr _ _)
  · exact o.failed_since_iff hdate (Request.gets_withLines hm hr _ _)

end Site

namespace Sample

def agedTree : Tree :=
  ⟨[(["srv".toList], ⟨.directory, ⟨0⟩⟩),
    (["srv".toList, "a.txt".toList], ⟨.file (utf8 "hello".toList), ⟨784111779000000000⟩⟩),
    (["srv".toList, "a.txt.gz".toList], ⟨.file [31, 139], ⟨784111777000000000⟩⟩)]⟩

def gzipRequest : Request := request [(HeaderName.acceptEncoding, utf8 "gzip".toList)]

def formDate : Bytes := utf8 "Sun, 06 Nov 1994 08:49:37 GMT".toList

lemma exists_aged :
    ∃ reply, (site.handle agedTree [] arrival gzipRequest site.negotiator).1.result = .ok reply ∧
      reply.status = 200 ∧ reply.headers.getAll HeaderName.lastModified = [formDate] := by
  obtain ⟨reply, h, hreply⟩ := exists_of_toOption
    (x := (site.handle agedTree [] arrival gzipRequest site.negotiator).1.result)
    (f := fun x => (x.status, x.headers.getAll HeaderName.lastModified)) (b := (200, [formDate]))
    (by decide +kernel)
  exact ⟨reply, h, Prod.mk.inj hreply⟩

end Sample

namespace Site

theorem since_iff_sample :
    (∃ x, (Sample.site.handle Sample.agedTree [] Sample.arrival
        (Sample.gzipRequest.withLines HeaderName.ifModifiedSince [Sample.formDate])
        Sample.site.negotiator).1.result = .ok x ∧ x.status = 304) ∨
      ∃ x, (Sample.site.handle Sample.agedTree [] Sample.arrival
        (Sample.gzipRequest.withLines HeaderName.ifUnmodifiedSince [Sample.formDate])
        Sample.site.negotiator).1.result = .ok x ∧ x.status = 412 := by
  obtain ⟨reply, h, hs, hd⟩ := Sample.exists_aged
  obtain ⟨o, form, file, -, -, hall⟩ := since_iff (Tree.dated_of_entries (by decide)) rfl
    (by decide : Sample.gzipRequest.Unconditional) h hs (hd ▸ List.mem_singleton_self _)
  obtain ⟨h304, h412⟩ := hall [] Sample.arrival Sample.site.negotiator
  rcases Nat.lt_or_ge file.modified.epochSeconds o.modified.epochSeconds with hlt | hge
  · exact Or.inr (h412.2 hlt)
  · exact Or.inl (h304.2 hge)

/-- A file that is newer than its compressed form is sent again to somebody who asks with the date
of the form, and counts as modified since that date. -/
theorem modified_since_own_date :
    Sample.agedTree.Dated ∧ Sample.gzipRequest.Unconditional ∧
      ∃ plain again failed,
        (Sample.site.handle Sample.agedTree [] Sample.arrival Sample.gzipRequest
          Sample.site.negotiator).1.result = .ok plain ∧
        plain.status = 200 ∧ plain.headers.getAll HeaderName.lastModified = [Sample.formDate] ∧
        (Sample.site.handle Sample.agedTree [] Sample.arrival
          (Sample.gzipRequest.withLines HeaderName.ifModifiedSince [Sample.formDate])
          Sample.site.negotiator).1.result = .ok again ∧ again.status = 200 ∧
        (Sample.site.handle Sample.agedTree [] Sample.arrival
          (Sample.gzipRequest.withLines HeaderName.ifUnmodifiedSince [Sample.formDate])
          Sample.site.negotiator).1.result = .ok failed ∧ failed.status = 412 := by
  obtain ⟨plain, h, hs, hd⟩ := Sample.exists_aged
  obtain ⟨again, ha, has⟩ := Sample.exists_of_toOption (f := Reply.status) (b := 200)
    (x := (Sample.site.handle Sample.agedTree [] Sample.arrival
      (Sample.gzipRequest.withLines HeaderName.ifModifiedSince [Sample.formDate])
      Sample.site.negotiator).1.result) (by decide +kernel)
  obtain ⟨failed, hf, hfs⟩ := Sample.exists_of_toOption (f := Reply.status) (b := 412)
    (x := (Sample.site.handle Sample.agedTree [] Sample.arrival
      (Sample.gzipRequest.withLines HeaderName.ifUnmodifiedSince [Sample.formDate])
      Sample.site.negotiator).1.result) (by decide +kernel)
  exact ⟨Tree.dated_of_entries (by decide), by decide, plain, again, failed, h, hs, hd, ha, has, hf,
    hfs⟩

end Site

end Docroot

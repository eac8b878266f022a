import Mathlib.Tactic.Common
import Docroot.Proofs.Alike
import Docroot.Proofs.Since
import Docroot.Proofs.Totality

/-!
What preconditions take the place of. They are looked at only once the path leads to a file or to a
directory that is to be listed, so a request that they decide is, without them, answered by the file
or by what becomes of the listing; redirections and missing resources are never hidden by them. A
listing that is refused is hidden, since it is refused after the preconditions have been looked at.
-/

namespace Docroot

open Text

/-- The request without its preconditions. -/
def Request.plain (r : Request) : Request :=
  { r with headers := r.headers.filter fun f => !(Precondition.fieldNames.contains f.1) }

namespace Request

variable {r : Request}

lemma getAll_plain_of_mem {m : Text} (hm : m ∈ Precondition.fieldNames) :
    r.plain.headers.getAll m = [] := by
  unfold plain Headers.getAll
  rw [List.filter_filter, List.filter_eq_nil_iff.2, List.map_nil]
  intro f _ hf
  simp only [Bool.and_eq_true, beq_iff_eq] at hf
  simp [hf.1, hm] at hf

lemma getAll_plain_of_not_mem {m : Text} (hm : m ∉ Precondition.fieldNames) :
    r.plain.headers.getAll m = r.headers.getAll m := by
  unfold plain Headers.getAll
  rw [List.filter_filter]
  refine congrArg (List.map Prod.snd) (List.filter_congr fun f _ => ?_)
  by_cases h : f.1 = m
  · simp [h, hm]
  · simp [h]

lemma unconditional_plain (r : Request) : r.plain.Unconditional := fun _ => getAll_plain_of_mem

end Request

namespace Precondition

lemma evaluate_of_unconditional {r : Request} (h : r.Unconditional) (resource : Resource)
    (useTags : Bool) : evaluate r.headers resource useTags = .ok .proceed := by
  have hj : ∀ m ∈ fieldNames, joined r.headers m = none := fun m hm => joined_eq_none (h m hm)
  simp only [fieldNames, List.forall_mem_cons] at hj
  obtain ⟨h1, h2, h3, h4, -⟩ := hj
  rw [evaluate_of_no_tags h1 h2, h3, h4]
  rfl

end Precondition

namespace Site

open Serving Service

variable {site : Site} {t : Tree} {b : Text} {arrival : Arrival} {n : Negotiator} {r : Request}
  {reply : Reply}

/-- Preconditions that are decisive are about what the path leads to. -/
lemma Grounds.exists_verdict (h : site.Grounds t b n r reply)
    (hs : reply.status = 304 ∨ reply.status = 412) :
    ∃ path a resource verdict, RequestPath.normalize? r.path = some path ∧
      aim (site.service t) path r.query = .ok (some a) ∧ a.subject? = some resource ∧
      Precondition.evaluate r.headers resource site.options.tags = .ok verdict ∧
      verdict.reply? = some reply := by
  have hnot : reply.status ∉ [302, 400, 403, 404, 500] ∧ reply.status ≠ 200 ∧
      reply.status ≠ 206 ∧ reply.status ≠ 416 ∧ reply.status ≠ 403 := by
    rcases hs with hs | hs <;> simp [hs]
  obtain ⟨hground, h200, h206, h416, h403⟩ := hnot
  obtain ⟨path, a, hp, ha, hg⟩ := h.of_status hground
  rcases hg with ⟨resource, verdict, hv⟩ | ⟨directory, rfl, hl⟩ | ⟨target, found, rfl, hd⟩
  · exact ⟨path, a, resource, verdict, hp, ha, hv⟩
  · rcases status_of_listingReply hl with h | h <;> contradiction
  · obtain ⟨o, rfl, rfl, rfl⟩ := exists_base_of_aim hp ha
    rcases status_of_delivery o hd with h | h | h <;> contradiction

lemma Grounds.exists_subject (h : site.Grounds t b n r reply)
    (hs : reply.status = 304 ∨ reply.status = 412) :
    ∃ path a resource, RequestPath.normalize? r.path = some path ∧
      aim (site.service t) path r.query = .ok (some a) ∧ a.subject? = some resource := by
  obtain ⟨path, a, resource, -, hp, ha, hsub, -, -⟩ := h.exists_verdict hs
  exact ⟨path, a, resource, hp, ha, hsub⟩

lemma status_of_settled_listing {path : Text} {directory : Resource}
    (hl : Leads (site.service t) path (.listing directory)) {q : Inquiry}
    (h : settled ((listingReply (site.service t) q directory).map some) = .ok reply) :
    reply.status = 200 ∨ site.options.listings = false ∧ reply.status = 403 ∨
      site.options.listings = true ∧
        t.list directory.location = .error .permissionDenied ∧ reply.status = 403 := by
  have hlisting : (site.service t).listing = Listing.ofTree t := rfl
  unfold listingReply at h
  split at h
  · next ho =>
    cases h
    exact Or.inr (Or.inl ⟨by simpa [service] using ho, rfl⟩)
  · next ho =>
    have ho' : site.options.listings = true := by simpa [service] using ho
    rw [hlisting] at h
    rcases ofTree_of_leads hl (RequestPath.encode q.path) (1 < q.path.length) q.query with
      ⟨hdenied, hx⟩ | ⟨page, hx⟩ | hx <;> rw [hx] at h <;> cases h
    · exact Or.inr (Or.inr ⟨ho', hdenied, rfl⟩)
    · exact Or.inl rfl

section

variable {c : Request} {path : Text}

lemma handle_listing_of_unconditional (hc : c.Unconditional) (hm : methodReply c.method = none)
    (hp : RequestPath.normalize? c.path = some path) {directory : Resource}
    (ha : aim (site.service t) path c.query = .ok (some (.listing directory))) :
    (site.handle t b arrival c n).1.result =
      settled ((listingReply (site.service t) (c.inquiry b path) directory).map some) := by
  have he := Precondition.evaluate_of_unconditional hc directory (site.service t).options.tags
  have hi : run (inquire (site.service t) (c.inquiry b path)) n = _ := run_inquire_of_some ha
  rw [(site.handle_of_regular t b arrival n hm hp).1, hi, run_conclude_listing]
  exact congrArg (fun x => settled (x.map some)) (judged_of_proceed (site.service t) _ he)

lemma handle_file_of_unconditional (hc : c.Unconditional) (hm : methodReply c.method = none)
    (hp : RequestPath.normalize? c.path = some path) {target : Text} {found : Found}
    (ha : aim (site.service t) path c.query = .ok (some (.file target found))) :
    (site.handle t b arrival c n).1.result =
      settled ((delivery (site.service t) (c.inquiry b path)
        (consulted (c.headers.lines HeaderName.acceptEncoding) found n).1 target found).map
          some) := by
  rw [site.handle_of_file t b arrival n hm hp ha,
    judged_of_proceed _ _ (Precondition.evaluate_of_unconditional hc found.resource _)]

end

lemma status_of_settled_delivery {path target : Text} {found : Found}
    (hl : Leads (site.service t) path (.file target found)) {q : Inquiry}
    (hq : q.headers.lines HeaderName.range = []) {order : List Text}
    (h : settled ((delivery (site.service t) q order target found).map some) = .ok reply) :
    reply.status = 200 := by
  obtain ⟨hf, hd⟩ := finds_of_leads hl
  obtain ⟨p, hh, -⟩ := hf.holds_sent hd order
  rw [delivery_eq hh.source] at h
  cases hm : (sent (site.service t) order target found).1.lastModified with
  | error e =>
    rw [hm, Resource.eq_undatable_of_lastModified hm] at h
    cases h
  | ok written =>
    rw [hm, hq] at h
    cases h
    have hsel : Delivery.selection (site.service t).options []
        (sent (site.service t) order target found).1 = .whole := by
      simp [Delivery.selection]
    refine (Delivery.status_draftFor _ _ _ _ _ _).trans ?_
    rw [hsel]
    exact (status_headers_sent _ _ _).1

/-- **Decisive preconditions**: let a request without `Range` be answered that the resource has not
changed, or that a precondition failed. Without its preconditions it is answered by a success; only
where its path leads to a directory without welcome file, the reply may be that listings are off, or
that the names in the directory may not be read. There is a reply in every tree all of whose dates
have a written form. -/
theorem status_plain_of_intercepted (hm : r.method = Service.get)
    (hr : r.headers.getAll HeaderName.range = [])
    (h : (site.handle t b arrival r n).1.result = .ok reply)
    (hs : reply.status = 304 ∨ reply.status = 412) (b' : Text) (arrival' : Arrival)
    (n' : Negotiator) :
    (t.Dated → ∃ x, (site.handle t b' arrival' r.plain n').1.result = .ok x) ∧
      ∀ x, (site.handle t b' arrival' r.plain n').1.result = .ok x →
        x.status = 200 ∨ ∃ path directory, RequestPath.normalize? r.path = some path ∧
          Leads (site.service t) path (.listing directory) ∧
          (site.options.listings = false ∧ x.status = 403 ∨
            site.options.listings = true ∧
              t.list directory.location = .error .permissionDenied ∧ x.status = 403) := by
  have hmr : methodReply r.method = none := hm ▸ methodReply_get
  have hmp : methodReply r.plain.method = none := hmr
  refine ⟨fun ht => exists_reply_of_dated ht hmp, fun x hx => ?_⟩
  obtain ⟨path, a, resource, hp, ha, hsub⟩ := (grounds_of_handle hmr h).exists_subject hs
  have hl := leads_of_aim _ ha
  have hplain := r.unconditional_plain
  -- what the request aims at does not depend on its fields
  cases a with
  | fixed fixedReply => cases hsub
  | listing directory =>
    rw [handle_listing_of_unconditional hplain hmp hp ha] at hx
    exact (status_of_settled_listing hl hx).imp_right
      fun hother => ⟨path, directory, hp, hl, hother⟩
  | file target found =>
    left
    rw [handle_file_of_unconditional hplain hmp hp ha] at hx
    have hrange : r.plain.headers.lines HeaderName.range = [] := by
      unfold Headers.lines
      rw [Request.getAll_plain_of_not_mem (by decide), hr]
      rfl
    exact status_of_settled_delivery hl hrange hx

end Site

namespace Sample

def closedSite : Site :=
  ⟨"/srv".toList, { resources := { root := "/srv".toList, listings := false } },
    { listings := false }⟩

def unchangedRequest : Request :=
  { requestFor "/".toList with headers := [(HeaderName.ifNoneMatch, utf8 "*".toList)] }

def otherRequest : Request := request [(HeaderName.ifMatch, utf8 "\"other\"".toList)]

end Sample

namespace Site

theorem status_plain_of_intercepted_sample :
    ∃ reply x, (Sample.site.handle (Sample.tree ⟨0⟩) [] Sample.arrival Sample.otherRequest
        Sample.site.negotiator).1.result = .ok reply ∧ reply.status = 412 ∧
      (Sample.site.handle (Sample.tree ⟨0⟩) [] Sample.arrival Sample.otherRequest.plain
        Sample.site.negotiator).1.result = .ok x ∧ x.status = 200 := by
  obtain ⟨reply, h, hs⟩ := Sample.exists_of_toOption (f := Reply.status) (b := 412)
    (x := (Sample.site.handle (Sample.tree ⟨0⟩) [] Sample.arrival Sample.otherRequest
      Sample.site.negotiator).1.result) (by decide +kernel)
  obtain ⟨hex, hall⟩ := status_plain_of_intercepted rfl (by decide) h (Or.inr hs) []
    Sample.arrival Sample.site.negotiator
  obtain ⟨x, hx⟩ := hex (Tree.dated_of_entries (by decide))
  refine ⟨reply, x, h, hs, hx, (hall x hx).resolve_right ?_⟩
  rintro ⟨path, directory, hp, hl, -⟩
  obtain rfl : path = "/a.txt".toList := by
    have hpath : RequestPath.normalize? Sample.otherRequest.path = some "/a.txt".toList := by
      decide +kernel
    exact Option.some.inj (hp.symm.trans hpath)
  have hfile : ((Sample.site.lookup (Sample.tree ⟨0⟩) "/a.txt".toList).result.toOption.join.map
      fun found => found.resource.isDirectory) = some false := by decide +kernel
  cases hl with
  | listing hf hd _ =>
    rw [show (Sample.site.lookup (Sample.tree ⟨0⟩) "/a.txt".toList).result = _ from hf] at hfile
    exact absurd (hd.symm.trans (Option.some.inj hfile)) (by decide)

/-- Where listings are off, a directory that is refused to everybody is told to be unchanged to who
asks whether it is. -/
theorem refused_listing_hidden :
    Sample.unchangedRequest.method = Service.get ∧
      Sample.unchangedRequest.headers.getAll HeaderName.range = [] ∧
      ∃ reply x, (Sample.closedSite.handle (Sample.tree ⟨0⟩) [] Sample.arrival
          Sample.unchangedRequest Sample.closedSite.negotiator).1.result = .ok reply ∧
        reply.status = 304 ∧
        (Sample.closedSite.handle (Sample.tree ⟨0⟩) [] Sample.arrival
          Sample.unchangedRequest.plain Sample.closedSite.negotiator).1.result = .ok x ∧
        x.status = 403 := by
  obtain ⟨reply, h, hs⟩ := Sample.exists_of_toOption (f := Reply.status) (b := 304)
    (x := (Sample.closedSite.handle (Sample.tree ⟨0⟩) [] Sample.arrival
      Sample.unchangedRequest Sample.closedSite.negotiator).1.result) (by decide +kernel)
  obtain ⟨x, hx, hxs⟩ := Sample.exists_of_toOption (f := Reply.status) (b := 403)
    (x := (Sample.closedSite.handle (Sample.tree ⟨0⟩) [] Sample.arrival
      Sample.unchangedRequest.plain Sample.closedSite.negotiator).1.result) (by decide +kernel)
  exact ⟨rfl, by decide, reply, x, h, hs, hx, hxs⟩

end Site

end Docroot

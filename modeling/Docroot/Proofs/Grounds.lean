import Mathlib.Tactic.Common
import Docroot.Proofs.Answer
import Docroot.Proofs.Regular

/-!
The ground of each reply. A path alone may fix the reply: what it leads to is not there, is not
served, or is served elsewhere. Every other reply tells of a failure, is called for by the
preconditions, or is the listing or the delivery of what the path leads to.
-/

namespace Docroot

lemma Reply.status_ofFailure (f : Failure) :
    (ofFailure f).status = 400 ∨ (ofFailure f).status = 500 := by
  cases f
  · exact Or.inl rfl
  · exact Or.inr rfl

lemma Precondition.Verdict.status_of_reply? {verdict : Verdict} {reply : Reply}
    (h : verdict.reply? = some reply) : reply.status = 304 ∨ reply.status = 412 := by
  cases verdict <;> cases h
  · exact Or.inl rfl
  · exact Or.inr rfl

namespace Service

open Serving

variable (s : Service)

/-- A client that asks for the first path is sent to the second one. -/
inductive Redirects (path : Text) : Text → Prop
  | directory {found : Found} (hf : (s.lookup path).result = .ok (some found))
      (hd : found.resource.isDirectory = true) (hs : ¬ ['/'] <:+ path) :
      Redirects path (path ++ ['/'])
  | file {found : Found} (hf : (s.lookup path).result = .ok (some found))
      (hd : found.resource.isDirectory = false) (hs : ['/'] <:+ path)
      (hl : 1 < path.length) : Redirects path path.dropLast
  | welcome {directory : Found} {target : Text}
      (hf : (s.lookup path).result = .ok (some directory))
      (hd : directory.resource.isDirectory = true) (hs : ['/'] <:+ path)
      (hw : s.welcome path directory.resource = .ok (some target))
      (hr : s.options.redirectWelcome = true) : Redirects path target

/-- How a path fixes a reply. -/
inductive Fixes (path : Text) (query : Option Text) : Reply → Prop
  | missing : Fixes path query (Reply.ofStatus 404)
  | refused : Fixes path query (Reply.ofStatus 403)
  | elsewhere {intended : Text} (h : s.Redirects path intended) :
      Fixes path query
        (Reply.redirected (RequestPath.withQuery (RequestPath.encode intended) query))

end Service

namespace Service

open Serving

variable {s : Service}

lemma Fixes.status {path : Text} {query : Option Text} {reply : Reply}
    (h : s.Fixes path query reply) :
    reply.status = 404 ∨ reply.status = 403 ∨ reply.status = 302 := by
  cases h with
  | missing => exact Or.inl rfl
  | refused => exact Or.inr (Or.inl rfl)
  | elsewhere _ => exact Or.inr (Or.inr rfl)

lemma fixes_of_aimAtDirectory {path : Text} {query : Option Text} {directory : Found}
    {reply : Reply} (hf : (s.lookup path).result = .ok (some directory))
    (hd : directory.resource.isDirectory = true) (hs : ['/'] <:+ path)
    (h : aimAtDirectory s path query directory.resource = .ok (.fixed reply)) :
    s.Fixes path query reply := by
  unfold aimAtDirectory at h
  split at h
  · cases h
  · cases h
  · next target hw =>
    split at h
    · next hr =>
      cases h
      exact .elsewhere (.welcome hf hd hs hw hr)
    · unfold aimAtTarget at h
      split at h
      · cases h
      · cases h
        exact .missing
      · split at h <;> cases h
        exact .refused

theorem fixes_of_aim {path : Text} {query : Option Text} {reply : Reply}
    (h : aim s path query = .ok (some (.fixed reply))) : s.Fixes path query reply := by
  unfold aim at h
  split at h
  · cases h
  · cases h
  · next found hf =>
    obtain ⟨a, ha, hab⟩ := exists_of_map_eq_ok h
    cases hab
    unfold aimAt at ha
    split at ha
    · next hd =>
      split at ha
      · next hs => exact fixes_of_aimAtDirectory hf hd (List.isSuffixOf_iff_suffix.1 hs) ha
      · next hs =>
        cases ha
        have hslash : RequestPath.encode ['/'] = ['/'] := by decide
        rw [← hslash, ← RequestPath.encode_append]
        exact .elsewhere (.directory hf hd fun h => hs (List.isSuffixOf_iff_suffix.2 h))
    · next hd =>
      split at ha
      · next hs =>
        cases ha
        rw [Bool.and_eq_true, decide_eq_true_eq] at hs
        exact .elsewhere (.file hf (by simpa using hd) (List.isSuffixOf_iff_suffix.1 hs.1) hs.2)
      · cases ha

lemma status_of_listingReply {q : Inquiry} {directory : Resource} {reply : Reply}
    (h : listingReply s q directory = .ok reply) : reply.status = 403 ∨ reply.status = 200 := by
  unfold listingReply at h
  split at h
  · cases h
    exact Or.inl rfl
  · split at h <;> cases h
    · exact Or.inl rfl
    · exact Or.inr rfl

end Service

/-- The resource that the preconditions of a request are about. -/
def Aim.subject? : Aim → Option Resource
  | fixed _ => none
  | listing directory => some directory
  | file _ found => some found.resource

namespace Site

open Serving Service

variable (site : Site) (t : Tree) (b : Text) (n : Negotiator)

/-- The ground of the reply to a request for a resource. -/
inductive Grounds (r : Request) : Reply → Prop
  | nowhere : Grounds r (Reply.ofStatus 404)
  | failed (f : Failure) : Grounds r (Reply.ofFailure f)
  | fixed {path : Text} {reply : Reply} (hp : RequestPath.normalize? r.path = some path)
      (h : (site.service t).Fixes path r.query reply) : Grounds r reply
  | verdict {path : Text} {a : Aim} {resource : Resource} {verdict : Precondition.Verdict}
      {reply : Reply} (hp : RequestPath.normalize? r.path = some path)
      (ha : aim (site.service t) path r.query = .ok (some a)) (hs : a.subject? = some resource)
      (he : Precondition.evaluate r.headers resource site.options.tags = .ok verdict)
      (h : verdict.reply? = some reply) : Grounds r reply
  | listing {path : Text} {directory : Resource} {reply : Reply}
      (hp : RequestPath.normalize? r.path = some path)
      (ha : aim (site.service t) path r.query = .ok (some (.listing directory)))
      (h : listingReply (site.service t) (r.inquiry b path) directory = .ok reply) :
      Grounds r reply
  | file {path target : Text} {found : Found} {reply : Reply}
      (hp : RequestPath.normalize? r.path = some path)
      (ha : aim (site.service t) path r.query = .ok (some (.file target found)))
      (h : delivery (site.service t) (r.inquiry b path)
        (consulted (r.headers.lines HeaderName.acceptEncoding) found n).1 target found =
          .ok reply) :
      Grounds r reply

variable {site t b n} {r : Request}

lemma grounds_of_concluded {reply : Reply} {path : Text}
    (hp : RequestPath.normalize? r.path = some path) {a : Aim}
    (ha : aim (site.service t) path r.query = .ok (some a))
    (hc : (run (conclude (site.service t) (r.inquiry b path) a) n).1 = .ok reply) :
    site.Grounds t b n r reply := by
  cases a with
  | fixed fixedReply =>
    cases hc
    exact .fixed hp (fixes_of_aim ha)
  | listing directory =>
    rw [run_conclude_listing] at hc
    rcases verdict_or_of_judged _ hc with ⟨verdict, he, hv⟩ | ⟨-, h⟩
    · exact .verdict hp ha rfl he hv
    · exact .listing hp ha h
  | file target found =>
    rw [run_conclude_file] at hc
    rcases verdict_or_of_judged _ hc with ⟨verdict, he, hv⟩ | ⟨-, h⟩
    · exact .verdict hp ha rfl he hv
    · exact .file hp ha h

/-- A reply that tells of no failure and is not fixed by its path is called for by the
preconditions, or is the listing or the delivery of what the path leads to. -/
lemma Grounds.of_status {reply : Reply} (h : site.Grounds t b n r reply)
    (hs : reply.status ∉ [302, 400, 403, 404, 500]) :
    ∃ path a, RequestPath.normalize? r.path = some path ∧
      aim (site.service t) path r.query = .ok (some a) ∧
      ((∃ resource verdict, a.subject? = some resource ∧
          Precondition.evaluate r.headers resource site.options.tags = .ok verdict ∧
          verdict.reply? = some reply) ∨
        (∃ directory, a = .listing directory ∧
          listingReply (site.service t) (r.inquiry b path) directory = .ok reply) ∨
        ∃ target found, a = .file target found ∧
          delivery (site.service t) (r.inquiry b path)
            (consulted (r.headers.lines HeaderName.acceptEncoding) found n).1 target found =
              .ok reply) := by
  cases h with
  | nowhere => exact absurd (by decide) hs
  | failed f => rcases Reply.status_ofFailure f with h | h <;> simp [h] at hs
  | fixed _ hf => rcases hf.status with h | h | h <;> simp [h] at hs
  | verdict hp ha hsub he hv => exact ⟨_, _, hp, ha, Or.inl ⟨_, _, hsub, he, hv⟩⟩
  | listing hp ha hl => exact ⟨_, _, hp, ha, Or.inr (Or.inl ⟨_, rfl, hl⟩)⟩
  | file hp ha hd => exact ⟨_, _, hp, ha, Or.inr (Or.inr ⟨_, _, rfl, hd⟩)⟩

/-- **Grounds**: every reply to a request for a resource has one of these grounds. -/
theorem grounds_of_handle {arrival : Arrival} {reply : Reply} (hm : methodReply r.method = none)
    (h : (site.handle t b arrival r n).1.result = .ok reply) : site.Grounds t b n r reply := by
  cases hp : RequestPath.normalize? r.path with
  | none =>
    rw [(site.handle_of_irregular t b arrival n hm hp).1] at h
    cases h
    exact .nowhere
  | some path =>
    rw [(site.handle_of_regular t b arrival n hm hp).1] at h
    unfold settled at h
    split at h
    · next x hx =>
      cases h
      obtain ⟨a, ha, hc⟩ := exists_aim_of_run_inquire _ (site.marks t) hx
      exact grounds_of_concluded hp ha hc
    · cases h
      exact .nowhere
    · cases h
      exact .failed _
    · cases h

end Site

end Docroot

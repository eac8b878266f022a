import Mathlib.Tactic.Common
import Docroot.Proofs.Grounds
import Docroot.Proofs.Memory

/-!
Requests for the head alone. `HEAD` is answered as `GET` is, field by field, and the memory learns
the same; what is left out is the body of a success, of a redirection, and of a range that does not
exist. A message that tells of an error stays.
-/

namespace Docroot

namespace Status

/-- A reply with the status has its body left out when only the head is asked for. -/
def OmitsBody (status : Nat) : Prop := 200 ≤ status ∧ status < 400 ∨ status = 416

instance (status : Nat) : Decidable (OmitsBody status) :=
  inferInstanceAs (Decidable (200 ≤ status ∧ status < 400 ∨ status = 416))

end Status

namespace Reply

/-- What is given of a reply when only its head is asked for. -/
def head (reply : Reply) : Reply :=
  if Status.OmitsBody reply.status then { reply with body := .empty } else reply

@[simp] lemma status_head (reply : Reply) : reply.head.status = reply.status := by
  unfold head
  split <;> rfl

@[simp] lemma headers_head (reply : Reply) : reply.head.headers = reply.headers := by
  unfold head
  split <;> rfl

lemma body_head {reply : Reply} (h : Status.OmitsBody reply.status) : reply.head.body = .empty := by
  rw [head, if_pos h]

lemma head_of_empty {reply : Reply} (h : reply.body = .empty) : reply.head = reply := by
  obtain ⟨status, headers, body⟩ := reply
  obtain rfl : body = .empty := h
  unfold head
  split <;> rfl

lemma head_of_not_omitsBody {reply : Reply} (h : ¬ Status.OmitsBody reply.status) :
    reply.head = reply :=
  if_neg h

lemma head_ofStatus {status : Nat} (h : ¬ Status.OmitsBody status) :
    (ofStatus status).head = ofStatus status :=
  head_of_not_omitsBody h

lemma head_ofFailure (f : Failure) : (ofFailure f).head = ofFailure f := by
  cases f with
  | malformedPrecondition reason =>
    exact head_of_not_omitsBody (show ¬ Status.OmitsBody 400 by decide)
  | io e => exact head_ofStatus (by decide)

end Reply

lemma Precondition.Verdict.head_of_reply? {verdict : Verdict} {reply : Reply}
    (h : verdict.reply? = some reply) : reply.head = reply := by
  cases verdict <;> cases h
  · exact Reply.head_of_empty rfl
  · exact Reply.head_ofStatus (by decide)

lemma Delivery.replyFor_headOnly (options : Options) (boundary : Text) (resource : Resource)
    (name : Text) (modified : Option Text) {d : Draft} (hd : d.status = 200)
    (selected : ByteRange.Selection) :
    replyFor options boundary true resource name modified d selected =
      (replyFor options boundary false resource name modified d selected).head := by
  have hbody : bodyFor options boundary true resource name modified d selected = .empty := by
    match selected with
    | .whole => rfl
    | .unsatisfiable => rfl
    | .parts [_] => rfl
    | .parts [] => rfl
    | .parts (_ :: _ :: _) => rfl
  have homits : Status.OmitsBody
      (draftFor options boundary resource modified d selected).status := by
    rw [status_draftFor, hd]
    cases selected with
    | whole => exact show Status.OmitsBody 200 by decide
    | unsatisfiable => exact show Status.OmitsBody 416 by decide
    | parts ranges => exact show Status.OmitsBody 206 by decide
  have hhead : (replyFor options boundary false resource name modified d selected).head =
      ⟨_, _, .empty⟩ := if_pos homits
  rw [hhead, ← hbody]
  rfl

namespace Service

open Serving

variable {s : Service}

lemma head_of_fixes {path : Text} {query : Option Text} {reply : Reply}
    (h : s.Fixes path query reply) : reply.head = reply := by
  cases h with
  | missing => exact Reply.head_ofStatus (by decide)
  | refused => exact Reply.head_ofStatus (by decide)
  | elsewhere _ => exact Reply.head_of_empty rfl

lemma listingReply_headOnly {q : Inquiry} (hq : q.headOnly = false) (directory : Resource) :
    listingReply s { q with headOnly := true } directory =
      (listingReply s q directory).map Reply.head := by
  have h403 : (Reply.ofStatus 403).head = Reply.ofStatus 403 := Reply.head_ofStatus (by decide)
  unfold listingReply
  simp only [hq]
  split
  · simp only [Except.map, h403]
  · rcases s.listing directory (RequestPath.encode q.path) (1 < q.path.length) q.query with
      e | _ | page
    · rfl
    · simp only [Except.map, h403]
    · rfl

lemma delivery_headOnly {q : Inquiry} (hq : q.headOnly = false) {order : List Text}
    {path name : Text} {found : Found}
    (hs : (sent s order path found).1.source = .file name) :
    delivery s { q with headOnly := true } order path found =
      (delivery s q order path found).map Reply.head := by
  rw [delivery_eq hs, delivery_eq hs]
  cases (sent s order path found).1.lastModified with
  | error e => rfl
  | ok modified =>
    simp only [Except.map, hq, Delivery.replyFor_headOnly s.options q.boundary _ name modified
      (status_headers_sent order path found).1]

lemma judged_head (headers : Headers) (resource : Resource) (x : Except Abort Reply) :
    judged s headers resource (x.map Reply.head) =
      (judged s headers resource x).map Reply.head := by
  unfold judged
  rcases Precondition.evaluate headers resource s.options.tags with e | verdict
  · rfl
  · simp only
    cases hv : verdict.reply? with
    | none => rfl
    | some reply => simp only [Except.map, Precondition.Verdict.head_of_reply? hv]

lemma settled_head (x : Except Abort (Option Reply)) :
    settled (x.map (Option.map Reply.head)) = (settled x).map Reply.head := by
  have h404 : (Reply.ofStatus 404).head = Reply.ofStatus 404 := Reply.head_ofStatus (by decide)
  rcases x with (f | _) | _ | reply
  · simp only [Except.map, settled, Reply.head_ofFailure]
  · rfl
  · simp only [Except.map, settled, Option.map_none, h404]
  · rfl

end Service

namespace Site

open Serving Service

variable {site : Site} {t : Tree} {n : Negotiator}

lemma run_conclude_headOnly {q : Inquiry} (hq : q.headOnly = false) {a : Aim}
    (ha : aim (site.service t) q.path q.query = .ok (some a)) :
    (run (conclude (site.service t) { q with headOnly := true } a) n).1 =
      (run (conclude (site.service t) q a) n).1.map Reply.head := by
  cases a with
  | fixed reply =>
    show Except.ok reply = Except.ok reply.head
    rw [head_of_fixes (fixes_of_aim ha)]
  | listing directory =>
    rw [run_conclude_listing, run_conclude_listing]
    simp only
    rw [listingReply_headOnly hq, judged_head]
  | file target found =>
    obtain ⟨hf, hd⟩ := finds_of_leads (leads_of_aim _ ha)
    obtain ⟨p, hh, -⟩ := hf.holds_sent hd
      (consulted (q.headers.lines HeaderName.acceptEncoding) found n).1
    rw [run_conclude_file, run_conclude_file]
    simp only
    rw [delivery_headOnly hq hh.source, judged_head]

lemma run_inquire_headOnly {q : Inquiry} (hq : q.headOnly = false) :
    run (inquire (site.service t) { q with headOnly := true }) n =
      ((run (inquire (site.service t) q) n).1.map (Option.map Reply.head),
        (run (inquire (site.service t) q) n).2) := by
  rcases ha : aim (site.service t) q.path q.query with e | _ | a
  · rw [run_inquire_of_error ha, run_inquire_of_error (q := { q with headOnly := true }) ha]
    rfl
  · rw [run_inquire_of_none ha, run_inquire_of_none (q := { q with headOnly := true }) ha]
    rfl
  · have hmemory : (run (conclude (site.service t) { q with headOnly := true } a) n).2 =
        (run (conclude (site.service t) q a) n).2 :=
      memory_conclude_congr _ q { q with headOnly := true } rfl a n
    rw [run_inquire_of_some ha, run_inquire_of_some (q := { q with headOnly := true }) ha,
      run_conclude_headOnly hq ha, hmemory]
    cases (run (conclude (site.service t) q a) n).1 <;> rfl

/-- **The head of the same reply**: `HEAD` gets the head of what `GET` gets, and both leave the
memory as the other one does. -/
theorem handle_headOnly (site : Site) (t : Tree) (b : Text) (arrival arrival' : Arrival)
    (r : Request) (n : Negotiator) :
    (site.handle t b arrival' { r with method := Service.head } n).1.result =
        (site.handle t b arrival { r with method := get } n).1.result.map Reply.head ∧
      (site.handle t b arrival' { r with method := Service.head } n).2 =
        (site.handle t b arrival { r with method := get } n).2 := by
  have hget : methodReply ({ r with method := get } : Request).method = none := methodReply_get
  have hhead : methodReply ({ r with method := Service.head } : Request).method = none :=
    methodReply_head
  cases hp : RequestPath.normalize? r.path with
  | none =>
    obtain ⟨h1, h2⟩ := site.handle_of_irregular t b arrival n hget hp
    obtain ⟨h1', h2'⟩ := site.handle_of_irregular t b arrival' n hhead hp
    refine ⟨?_, h2'.trans h2.symm⟩
    rw [h1, h1']
    exact congrArg Except.ok (Reply.head_ofStatus (by decide)).symm
  | some path =>
    obtain ⟨h1, h2⟩ := site.handle_of_regular t b arrival n hget hp
    obtain ⟨h1', h2'⟩ := site.handle_of_regular t b arrival' n hhead hp
    have hq : ({ r with method := Service.head } : Request).inquiry b path =
        { ({ r with method := get } : Request).inquiry b path with headOnly := true } := rfl
    rw [h1, h1', h2, h2', hq, run_inquire_headOnly (Request.headOnly_of_get rfl b path)]
    exact ⟨settled_head _, rfl⟩

/-- **A mirror**: for the same path, query and header fields, with any memory and the same delimiter
of parts, `HEAD` gets the status and the fields that `GET` gets, or neither gets a reply, and the
memory learns the same. A reply to `HEAD` that is a success, a redirection or about a range that
does not exist has no body. -/
theorem head_mirrors_get (site : Site) (t : Tree) (b : Text) (arrival arrival' : Arrival)
    (r : Request) (n : Negotiator) :
    ((site.handle t b arrival' { r with method := Service.head } n).1.result.map fun x =>
          (x.status, x.headers)) =
        ((site.handle t b arrival { r with method := get } n).1.result.map fun x =>
          (x.status, x.headers)) ∧
      (site.handle t b arrival' { r with method := Service.head } n).2 =
        (site.handle t b arrival { r with method := get } n).2 ∧
      ∀ reply,
        (site.handle t b arrival' { r with method := Service.head } n).1.result = .ok reply →
        Status.OmitsBody reply.status → reply.body = .empty := by
  obtain ⟨hresult, hmemory⟩ := handle_headOnly site t b arrival arrival' r n
  refine ⟨?_, hmemory, ?_⟩
  · rw [hresult]
    cases (site.handle t b arrival { r with method := get } n).1.result with
    | error e => rfl
    | ok reply => simp only [Except.map, Reply.status_head, Reply.headers_head]
  · intro reply h homits
    rw [hresult] at h
    obtain ⟨full, -, rfl⟩ := exists_of_map_eq_ok h
    rw [Reply.status_head] at homits
    exact Reply.body_head homits

theorem head_mirrors_get_sample :
    ∃ reply, (Sample.site.handle (Sample.tree ⟨0⟩) [] Sample.arrival
        { Sample.request [] with method := Service.head } Sample.site.negotiator).1.result =
          .ok reply ∧
      reply.status = 200 ∧
      reply.headers.getAll HeaderName.contentLength = [Reply.numeral 5] ∧ reply.body = .empty := by
  obtain ⟨-, -, hbody⟩ := head_mirrors_get Sample.site (Sample.tree ⟨0⟩) [] Sample.arrival
    Sample.arrival (Sample.request []) Sample.site.negotiator
  obtain ⟨reply, h, hreply⟩ := Sample.exists_of_toOption
    (x := (Sample.site.handle (Sample.tree ⟨0⟩) [] Sample.arrival
      { Sample.request [] with method := Service.head } Sample.site.negotiator).1.result)
    (f := fun x => (x.status, x.headers.getAll HeaderName.contentLength))
    (b := (200, [Reply.numeral 5])) (by decide +kernel)
  obtain ⟨hs, hl⟩ := Prod.mk.inj hreply
  exact ⟨reply, h, hs, hl, hbody reply h (by rw [hs]; decide)⟩

end Site

end Docroot

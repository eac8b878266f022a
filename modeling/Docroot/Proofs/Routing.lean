import Mathlib.Tactic.Common
import Docroot.Proofs.Result
import Docroot.Service

/-!
Where a request leads. The path alone decides whether the reply is fixed, is about a directory that
has no welcome file, or is about one file; what the header fields of the request ask for comes into
play after that. Each function of the service has one equation here that says what it does, and the
answer to an inquiry is the aim of its path with the conclusion that is drawn from it.
-/

namespace Docroot

namespace Reply

def redirected (location : Text) : Reply where
  status := 302
  headers := ((Headers.value? location).map fun v => (HeaderName.location, v)).toList ++
    [(HeaderName.contentLength, numeral 0)]
  body := .empty

/-- The content stands as the tag of the request says. -/
def unchanged (tag : Option Text) : Reply where
  status := 304
  headers := ((tag.bind Headers.value?).map fun v => (HeaderName.etag, v)).toList
  body := .empty

/-- The body is at hand when the reply is given. -/
def Held (reply : Reply) : Prop := ∀ name segments size, reply.body ≠ .file name segments size

/-- The reply carries nothing of a resource: its body is at hand, and the request has no success. -/
structure Bare (reply : Reply) : Prop where
  held : reply.Held
  status : reply.status ≠ 200 ∧ reply.status ≠ 206

lemma held_of_empty {status : Nat} {headers : Headers} : Held ⟨status, headers, .empty⟩ := by
  intro name segments size h
  cases h

lemma held_of_full {status : Nat} {headers : Headers} {data : Bytes} :
    Held ⟨status, headers, .full data⟩ := by
  intro name segments size h
  cases h

lemma bare_ofStatus {status : Nat} (h : status ≠ 200 ∧ status ≠ 206) : (ofStatus status).Bare :=
  ⟨held_of_full, h⟩

lemma bare_redirected (location : Text) : (redirected location).Bare :=
  ⟨held_of_empty, show 302 ≠ 200 ∧ 302 ≠ 206 by decide⟩

lemma bare_ofFailure (f : Failure) : (ofFailure f).Bare := by
  cases f
  · exact ⟨held_of_full, show 400 ≠ 200 ∧ 400 ≠ 206 by decide⟩
  · exact bare_ofStatus (by decide)

variable {ε : Type}

lemma result_redirect (location : Text) :
    (redirect location : Logged ε Reply).result = .ok (redirected location) :=
  result_withField 302 HeaderName.location location _

lemma result_notModified (tag : Option Text) :
    (notModified tag : Logged ε Reply).result = .ok (unchanged tag) := by
  cases tag with
  | none => rfl
  | some t => rw [notModified, result_withField]; simp [unchanged]

end Reply

namespace Precondition.Verdict

/-- The reply that a verdict calls for in place of the resource. -/
def reply? : Verdict → Option Reply
  | proceed => none
  | notModified tag => some (Reply.unchanged tag)
  | failed => some (Reply.ofStatus 412)

lemma bare_of_reply? {verdict : Verdict} {reply : Reply} (h : verdict.reply? = some reply) :
    reply.Bare := by
  cases verdict <;> cases h
  · exact ⟨Reply.held_of_empty, show 304 ≠ 200 ∧ 304 ≠ 206 by decide⟩
  · exact Reply.bare_ofStatus (by decide)

end Precondition.Verdict

/-- Where a path leads. -/
inductive Aim
  | fixed (reply : Reply)
  | listing (directory : Resource)
  | file (path : Text) (found : Found)
deriving DecidableEq

namespace Service

open Serving

variable (s : Service)

/-- The directories are just what is marked for a welcome file. -/
def Marks : Prop :=
  ∀ path found, (s.lookup path).result = .ok (some found) →
    (found.kind = .welcome ↔ found.resource.isDirectory = true)

def aimAtTarget (target : Text) : Except Abort Aim :=
  match (s.lookup target).result with
  | .error e => .error (.failed (.io e))
  | .ok none => .ok (.fixed (Reply.ofStatus 404))
  | .ok (some found) =>
    if found.resource.isDirectory then .ok (.fixed (Reply.ofStatus 403))
    else .ok (.file target found)

def aimAtDirectory (path : Text) (query : Option Text) (directory : Resource) :
    Except Abort Aim :=
  match s.welcome path directory with
  | .error e => .error (.failed (.io e))
  | .ok none => .ok (.listing directory)
  | .ok (some target) =>
    if s.options.redirectWelcome then
      .ok (.fixed (Reply.redirected (RequestPath.withQuery (RequestPath.encode target) query)))
    else aimAtTarget s target

def aimAt (path : Text) (query : Option Text) (found : Found) : Except Abort Aim :=
  if found.resource.isDirectory then
    if ['/'].isSuffixOf path then aimAtDirectory s path query found.resource
    else .ok (.fixed (Reply.redirected
      (RequestPath.withQuery (RequestPath.encode path ++ ['/']) query)))
  else if ['/'].isSuffixOf path && decide (1 < path.length) then
    .ok (.fixed (Reply.redirected
      (RequestPath.withQuery (RequestPath.encode path.dropLast) query)))
  else .ok (.file path found)

/-- Where a regular path leads, if it leads anywhere. -/
def aim (path : Text) (query : Option Text) : Except Abort (Option Aim) :=
  match (s.lookup path).result with
  | .error e => .error (.failed (.io e))
  | .ok none => .ok none
  | .ok (some found) => (aimAt s path query found).map some

/-- How a path comes to lead where it does. -/
inductive Leads (path : Text) : Aim → Prop
  | fixed {reply : Reply} (h : reply.Bare) : Leads path (.fixed reply)
  | listing {found : Found} (hf : (s.lookup path).result = .ok (some found))
      (hd : found.resource.isDirectory = true) (hw : s.welcome path found.resource = .ok none) :
      Leads path (.listing found.resource)
  | direct {found : Found} (hf : (s.lookup path).result = .ok (some found))
      (hd : found.resource.isDirectory = false) : Leads path (.file path found)
  | welcome {directory found : Found} {target : Text}
      (hf : (s.lookup path).result = .ok (some directory))
      (hd : directory.resource.isDirectory = true)
      (hw : s.welcome path directory.resource = .ok (some target))
      (ht : (s.lookup target).result = .ok (some found))
      (hn : found.resource.isDirectory = false) : Leads path (.file target found)

lemma leads_of_aimAtDirectory {path : Text} {query : Option Text} {directory : Found} {a : Aim}
    (hf : (s.lookup path).result = .ok (some directory))
    (hd : directory.resource.isDirectory = true)
    (h : aimAtDirectory s path query directory.resource = .ok a) : Leads s path a := by
  unfold aimAtDirectory at h
  split at h
  · cases h
  · next hw =>
    cases h
    exact .listing hf hd hw
  · next target hw =>
    split at h
    · cases h
      exact .fixed (Reply.bare_redirected _)
    · unfold aimAtTarget at h
      split at h
      · cases h
      · cases h
        exact .fixed (Reply.bare_ofStatus (by decide))
      · next found ht =>
        split at h
        · cases h
          exact .fixed (Reply.bare_ofStatus (by decide))
        · next hn =>
          cases h
          exact .welcome hf hd hw ht (by simpa using hn)

theorem leads_of_aim {path : Text} {query : Option Text} {a : Aim}
    (h : aim s path query = .ok (some a)) : Leads s path a := by
  unfold aim at h
  split at h
  · cases h
  · cases h
  · next found hf =>
    obtain ⟨b, hb, hab⟩ := exists_of_map_eq_ok h
    cases hab
    unfold aimAt at hb
    split at hb
    · next hd =>
      split at hb
      · exact leads_of_aimAtDirectory s hf hd hb
      · cases hb
        exact .fixed (Reply.bare_redirected _)
    · next hd =>
      split at hb <;> cases hb
      · exact .fixed (Reply.bare_redirected _)
      · exact .direct hf (by simpa using hd)

/-- The query plays a part only in redirections. -/
lemma aim_congr (path : Text) (query query' : Option Text) :
    aim s path query' = aim s path query ∨
      ∃ reply, aim s path query = .ok (some (.fixed reply)) := by
  unfold aim
  split
  · exact Or.inl rfl
  · exact Or.inl rfl
  · unfold aimAt
    split
    · split
      · unfold aimAtDirectory
        split
        · exact Or.inl rfl
        · exact Or.inl rfl
        · split
          · exact Or.inr ⟨_, rfl⟩
          · exact Or.inl rfl
      · exact Or.inr ⟨_, rfl⟩
    · split
      · exact Or.inr ⟨_, rfl⟩
      · exact Or.inl rfl

/-- What an inquiry makes of where its path leads. -/
def conclude (q : Inquiry) : Aim → Serving Reply
  | .fixed reply => pure reply
  | .listing directory => do
    match ← intercepted s q directory with
    | some reply => pure reply
    | none => answerListing s q directory
  | .file path found => answerFile s q path found

/-- The reply that the preconditions of a request call for, or `x` if they call for none. -/
def judged (headers : Headers) (resource : Resource) (x : Except Abort Reply) :
    Except Abort Reply :=
  match Precondition.evaluate headers resource s.options.tags with
  | .error e => .error e
  | .ok verdict =>
    match verdict.reply? with
    | some reply => .ok reply
    | none => x

lemma judged_of_proceed {headers : Headers} {resource : Resource} (x : Except Abort Reply)
    (h : Precondition.evaluate headers resource s.options.tags = .ok .proceed) :
    judged s headers resource x = x := by
  unfold judged
  rw [h]
  rfl

/-- The reply of a judgement is called for by the preconditions, or they let it pass. -/
lemma verdict_or_of_judged {headers : Headers} {resource : Resource} {x : Except Abort Reply}
    {reply : Reply} (h : judged s headers resource x = .ok reply) :
    (∃ verdict, Precondition.evaluate headers resource s.options.tags = .ok verdict ∧
        verdict.reply? = some reply) ∨
      Precondition.evaluate headers resource s.options.tags = .ok .proceed ∧ x = .ok reply := by
  unfold judged at h
  split at h
  · cases h
  · next verdict he =>
    cases hv : verdict.reply? with
    | some y =>
      rw [hv] at h
      cases h
      exact Or.inl ⟨verdict, he, hv⟩
    | none =>
      rw [hv] at h
      cases verdict <;> cases hv
      exact Or.inr ⟨he, h⟩

lemma bare_or_of_judged {headers : Headers} {resource : Resource} {x : Except Abort Reply}
    {reply : Reply} (h : judged s headers resource x = .ok reply) :
    reply.Bare ∨
      Precondition.evaluate headers resource s.options.tags = .ok .proceed ∧ x = .ok reply :=
  (verdict_or_of_judged s h).imp_left fun ⟨_, _, hv⟩ => Precondition.Verdict.bare_of_reply? hv

lemma run_intercepted (q : Inquiry) (resource : Resource) (n : Negotiator) :
    run (intercepted s q resource) n =
      ((Precondition.evaluate q.headers resource s.options.tags).map Precondition.Verdict.reply?,
        n) := by
  unfold intercepted
  rw [run_bind]
  simp only [run_lift, Logged.result_ofExcept]
  cases Precondition.evaluate q.headers resource s.options.tags with
  | error e => rfl
  | ok verdict =>
    cases verdict with
    | proceed => rfl
    | failed => rfl
    | notModified tag =>
      have h : (Reply.notModified tag : Logged Abort Reply).result = .ok (Reply.unchanged tag) :=
        Reply.result_notModified tag
      simp [run_bind, h, Except.map, Precondition.Verdict.reply?]

lemma run_answerFile (q : Inquiry) (path : Text) (found : Found) (n : Negotiator) :
    run (answerFile s q path found) n =
      match Precondition.evaluate q.headers found.resource s.options.tags with
      | .error e => (.error e, n)
      | .ok verdict =>
        match verdict.reply? with
        | some reply => (.ok reply, n)
        | none => run (send s q found (Representation.markGzip s.options path {})) n := by
  rw [answerFile, run_bind, run_intercepted]
  cases Precondition.evaluate q.headers found.resource s.options.tags with
  | error e => rfl
  | ok verdict =>
    simp only [Except.map]
    cases verdict.reply? <;> rfl

lemma run_answerTarget (q : Inquiry) (target : Text) (n : Negotiator) :
    run (answerTarget s q target) n =
      run (lift (.ofExcept (aimAtTarget s target)) >>= conclude s q) n := by
  rw [answerTarget, run_bind, run_bind]
  simp only [run_reading, run_lift, Logged.result_ofExcept, aimAtTarget]
  rcases (s.lookup target).result with e | _ | found
  · rfl
  · rfl
  · by_cases hd : found.resource.isDirectory = true
    · simp [Except.mapError, hd, conclude]
    · simp [Except.mapError, hd, conclude]

lemma run_answerDirectory (q : Inquiry) (directory : Resource) (n : Negotiator) :
    run (answerDirectory s q directory) n =
      run (lift (.ofExcept (aimAtDirectory s q.path q.query directory)) >>= conclude s q) n := by
  rw [answerDirectory, run_bind, run_bind (lift _)]
  simp only [run_reading, run_lift, Logged.result_ofExcept, aimAtDirectory]
  rcases s.welcome q.path directory with e | _ | target
  · rfl
  · rfl
  · by_cases hr : s.options.redirectWelcome = true
    · simp [Except.mapError, welcomeAction, hr, run_bind, conclude, Reply.result_redirect]
    · simp [Except.mapError, welcomeAction, hr, run_bind (tell _), run_answerTarget]
      rw [run_bind]
      simp

lemma run_answer {q : Inquiry} {found : Found} (n : Negotiator)
    (hk : found.kind = .welcome ↔ found.resource.isDirectory = true) :
    run (answer s q found) n =
      run (lift (.ofExcept (aimAt s q.path q.query found)) >>= conclude s q) n := by
  unfold answer aimAt
  by_cases hd : found.resource.isDirectory = true
  · have hm : answerMarked s q found {} = answerDirectory s q found.resource := by
      unfold answerMarked
      rw [hk.2 hd]
    by_cases hs : ['/'].isSuffixOf q.path = true
    · simp [hd, hs, hm, run_answerDirectory]
    · simp [hd, hs, run_bind, conclude, Reply.result_redirect]
  · have hm : ∀ d, answerMarked s q found d = send s q found d := by
      intro d
      unfold answerMarked
      split
      · next h => exact absurd (hk.1 h) hd
      · rfl
    by_cases hs : (['/'].isSuffixOf q.path && decide (1 < q.path.length)) = true
    · simp [hd, hs, run_bind, conclude, Reply.result_redirect]
    · simp only [hd, hs, if_false, Bool.false_eq_true, hm]
      rw [run_bind (lift _)]
      rfl

/-- The form of a found file that is sent when the codings of `order` are accepted, with the draft
of its reply. -/
def presented (order : List Text) (found : Found) (d : Draft) : Resource × Draft :=
  match found.kind with
  | .compressible variants =>
    let d := d.append HeaderName.vary (Text.utf8 "Accept-Encoding".toList)
    match chosen order variants with
    | some v => (v.resource, Representation.presentAsBase found.resource v.format d)
    | none => (found.resource, d)
  | _ => (found.resource, d)

/-- The codings that are asked for when a found file is sent, and the memory after that. A file
without compressed forms asks for none. -/
def consulted (lines : List Text) (found : Found) (n : Negotiator) : List Text × Negotiator :=
  match found.kind with
  | .compressible _ => n.order lines
  | _ => ([], n)

lemma run_send (q : Inquiry) (found : Found) (d : Draft) (n : Negotiator) :
    run (send s q found d) n =
      let c := consulted (q.headers.lines HeaderName.acceptEncoding) found n
      ((Delivery.deliver s.options q.boundary q.headOnly q.path
        (q.headers.lines HeaderName.range) (presented c.1 found d).1
        (presented c.1 found d).2).result, c.2) := by
  unfold send presented consulted
  cases found.kind with
  | plain => rfl
  | welcome => rfl
  | compressible variants =>
    simp only
    rw [run_bind_ok (run_preferred _ n)]
    cases chosen (n.order (q.headers.lines HeaderName.acceptEncoding)).1 variants <;> rfl

/-- The reply about a directory that has no welcome file. -/
def listingReply (q : Inquiry) (directory : Resource) : Except Abort Reply :=
  if !s.options.listings then .ok (Reply.ofStatus 403)
  else match s.listing directory (RequestPath.encode q.path) (1 < q.path.length) q.query with
    | .error e => .error e
    | .ok none => .ok (Reply.ofStatus 403)
    | .ok (some page) =>
      .ok ⟨200,
        [(HeaderName.contentType, Text.utf8 "text/html; charset=utf-8".toList),
          (HeaderName.contentLength, Reply.numeral (Text.utf8 page).length)],
        if q.headOnly then .empty else .full (Text.utf8 page)⟩

lemma run_answerListing (q : Inquiry) (directory : Resource) (n : Negotiator) :
    run (answerListing s q directory) n = (listingReply s q directory, n) := by
  unfold answerListing listingReply
  split
  · rfl
  · rw [run_bind]
    simp only [run_lift, Logged.result_ofExcept]
    rcases s.listing directory (RequestPath.encode q.path) (1 < q.path.length) q.query with
      e | _ | page <;> rfl

lemma run_conclude_listing (q : Inquiry) (directory : Resource) (n : Negotiator) :
    run (conclude s q (.listing directory)) n =
      (judged s q.headers directory (listingReply s q directory), n) := by
  rw [conclude, run_bind, run_intercepted, judged]
  cases Precondition.evaluate q.headers directory s.options.tags with
  | error e => rfl
  | ok verdict =>
    simp only [Except.map]
    cases verdict.reply? with
    | some reply => rfl
    | none => exact run_answerListing s q directory n

theorem run_inquire (hs : s.Marks) (q : Inquiry) (n : Negotiator) :
    run (inquire s q) n =
      match aim s q.path q.query with
      | .error e => (.error e, n)
      | .ok none => (.ok none, n)
      | .ok (some a) => ((run (conclude s q a) n).1.map some, (run (conclude s q a) n).2) := by
  rw [inquire, run_bind, aim]
  simp only [run_reading]
  cases hf : (s.lookup q.path).result with
  | error e => rfl
  | ok o =>
    cases o with
    | none => rfl
    | some found =>
      simp only [Except.mapError]
      rw [run_bind, run_answer s n (hs _ _ hf), run_bind]
      simp only [run_lift, Logged.result_ofExcept]
      cases aimAt s q.path q.query found with
      | error e => rfl
      | ok a =>
        simp only [Except.map]
        rcases run (conclude s q a) n with ⟨r, m⟩
        cases r <;> rfl

lemma exists_aim_of_run_inquire (hs : s.Marks) {q : Inquiry} {n : Negotiator} {reply : Reply}
    (h : (run (inquire s q) n).1 = .ok (some reply)) :
    ∃ a, aim s q.path q.query = .ok (some a) ∧ (run (conclude s q a) n).1 = .ok reply := by
  rw [run_inquire s hs] at h
  rcases ha : aim s q.path q.query with e | _ | a
  · rw [ha] at h
    cases h
  · rw [ha] at h
    cases h
  · rw [ha] at h
    obtain ⟨x, hx, hxr⟩ := exists_of_map_eq_ok h
    cases hxr
    exact ⟨a, rfl, hx⟩

end Service

end Docroot

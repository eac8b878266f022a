import Mathlib.Tactic.Common
import Docroot.Proofs.Answer

/-!
The memory of the negotiator over time. Whatever requests a site has answered and however the bound
of the memory was changed, what is remembered of a value is the order that the value gives, so the
codings that a request accepts do not depend on the requests before it.
-/

namespace Docroot

namespace Negotiator

def codings (preferred : List Text) (lines : List Text) : List Text :=
  if (Text.trim (key lines)).isEmpty then [] else orderOf preferred (key lines)

/-- What is remembered of each value is its order. -/
structure Sound (preferred : List Text) (n : Negotiator) : Prop where
  preference : n.preferred = preferred
  known : ∀ e ∈ n.known, e.2 = orderOf preferred e.1

variable {preferred : List Text} {n : Negotiator}

lemma sound_new (names : List Text) (capacity : Nat) :
    (new names capacity).Sound (names.map Text.lower) where
  preference := rfl
  known := fun _ he => absurd he List.not_mem_nil

lemma Sound.setCapacity (h : n.Sound preferred) (capacity : Nat) :
    (n.setCapacity capacity).Sound preferred where
  preference := h.preference
  known := by
    intro e he
    simp only [Negotiator.setCapacity] at he
    split at he
    · exact absurd he List.not_mem_nil
    · exact h.known e he

lemma Sound.remember (h : n.Sound preferred) (value : Text) :
    (n.remember value (orderOf preferred value)).Sound preferred := by
  unfold Negotiator.remember
  split
  · exact h
  · refine ⟨h.preference, ?_⟩
    intro e he
    rcases List.mem_append.1 he with he | he
    · split at he
      · exact absurd he List.not_mem_nil
      · exact h.known e he
    · rw [List.mem_singleton.1 he]

/-- A sound memory gives the codings that the lines themselves give. -/
lemma Sound.order_fst (h : n.Sound preferred) (lines : List Text) :
    (n.order lines).1 = codings preferred lines := by
  unfold order codings
  by_cases ht : (Text.trim (key lines)).isEmpty = true
  · simp [ht]
  · simp only [ht, if_false, Bool.false_eq_true]
    cases hf : n.known.lookup (key lines) with
    | none => rw [h.preference]
    | some found =>
      obtain ⟨before, after, hk, _⟩ := List.lookup_eq_some_iff.1 hf
      exact h.known (key lines, found) (by simp [hk])

lemma Sound.order_snd (h : n.Sound preferred) (lines : List Text) :
    (n.order lines).2.Sound preferred := by
  unfold order
  simp only
  split
  · exact h
  · split
    · exact h
    · rw [h.preference]
      exact h.remember _

end Negotiator

namespace Service

open Serving

variable (s : Service)

/-- The memory learns at most one value from an inquiry. -/
lemma memory_of_conclude (q : Inquiry) (a : Aim) (n : Negotiator) :
    (run (conclude s q a) n).2 = n ∨ ∃ lines, (run (conclude s q a) n).2 = (n.order lines).2 := by
  cases a with
  | fixed reply => exact Or.inl rfl
  | listing directory =>
    left
    rw [run_conclude_listing]
  | file path found =>
    rw [conclude, run_answerFile]
    split
    · exact Or.inl rfl
    · split
      · exact Or.inl rfl
      · rw [run_send]
        unfold consulted
        split
        · exact Or.inr ⟨_, rfl⟩
        · exact Or.inl rfl

lemma memory_conclude_congr (q q' : Inquiry) (h : q'.headers = q.headers) (a : Aim)
    (n : Negotiator) : (run (conclude s q' a) n).2 = (run (conclude s q a) n).2 := by
  cases a with
  | fixed reply => rfl
  | listing directory => rw [run_conclude_listing, run_conclude_listing]
  | file path found =>
    rw [conclude, conclude, run_answerFile, run_answerFile, run_send, run_send, h]
    split
    · rfl
    · split <;> rfl

end Service

namespace Site

open Serving Service

variable (site : Site)

/-- The memories that a site can come to, by requests for any tree and changes of the bound. -/
inductive Reachable : Negotiator → Prop
  | start : Reachable site.negotiator
  | request {n : Negotiator} (h : Reachable n) (t : Tree) (boundary : Text) (arrival : Arrival)
      (r : Request) : Reachable (site.handle t boundary arrival r n).2
  | capacity {n : Negotiator} (h : Reachable n) (capacity : Nat) :
      Reachable (n.setCapacity capacity)

def preferred : List Text := site.negotiator.preferred

lemma memory_of_handle (t : Tree) (b : Text) (arrival : Arrival) (r : Request) (n : Negotiator) :
    (site.handle t b arrival r n).2 = n ∨
      ∃ lines, (site.handle t b arrival r n).2 = (n.order lines).2 := by
  cases hm : methodReply r.method with
  | some reply =>
    left
    show (site.respond t b r n).2 = n
    unfold respond
    rw [hm]
  | none =>
    cases hp : RequestPath.normalize? r.path with
    | none => exact Or.inl (site.handle_of_irregular t b arrival n hm hp).2
    | some path =>
      rw [(site.handle_of_regular t b arrival n hm hp).2, run_inquire _ (site.marks t)]
      split
      · exact Or.inl rfl
      · exact Or.inl rfl
      · exact memory_of_conclude _ _ _ _

variable {site}

/-- **Soundness of the memory**: whatever the history, it holds right orders. -/
theorem Reachable.sound {n : Negotiator} (h : site.Reachable n) : n.Sound site.preferred := by
  induction h with
  | start => exact Negotiator.sound_new _ _
  | @request n h t b arrival r ih =>
    rcases site.memory_of_handle t b arrival r n with hm | ⟨lines, hm⟩
    · rw [hm]
      exact ih
    · rw [hm]
      exact ih.order_snd lines
  | capacity h c ih => exact ih.setCapacity c

/-- The codings that a request is answered with when they are consulted for `found`. -/
def accepted (site : Site) (headers : Headers) (found : Found) : List Text :=
  match found.kind with
  | .compressible _ =>
    Negotiator.codings site.preferred (headers.lines HeaderName.acceptEncoding)
  | _ => []

lemma Reachable.consulted {n : Negotiator} (h : site.Reachable n) (headers : Headers)
    (found : Found) :
    (consulted (headers.lines HeaderName.acceptEncoding) found n).1 =
      site.accepted headers found := by
  unfold Service.consulted accepted
  cases found.kind with
  | compressible vs => exact h.sound.order_fst _
  | plain => rfl
  | welcome => rfl

/-- What a site makes of where a path leads. -/
def concluded (site : Site) (t : Tree) (q : Inquiry) : Aim → Except Abort Reply
  | .fixed reply => .ok reply
  | .listing directory =>
    judged (site.service t) q.headers directory (listingReply (site.service t) q directory)
  | .file path found =>
    judged (site.service t) q.headers found.resource
      (delivery (site.service t) q (site.accepted q.headers found) path found)

/-- What a site answers to an inquiry. -/
def answered (site : Site) (t : Tree) (q : Inquiry) : Except Abort (Option Reply) :=
  match aim (site.service t) q.path q.query with
  | .error e => .error e
  | .ok none => .ok none
  | .ok (some a) => (site.concluded t q a).map some

/-- What a site answers to a request. -/
def reply (site : Site) (t : Tree) (b : Text) (r : Request) : Except Abandoned Reply :=
  match methodReply r.method with
  | some x => x.result
  | none =>
    match RequestPath.normalize? r.path with
    | none => .ok (Reply.ofStatus 404)
    | some path => settled (site.answered t (r.inquiry b path))

lemma Reachable.run_conclude {n : Negotiator} (h : site.Reachable n) (t : Tree) (q : Inquiry)
    (a : Aim) : (run (conclude (site.service t) q a) n).1 = site.concluded t q a := by
  cases a with
  | fixed reply => rfl
  | file path found => rw [run_conclude_file, h.consulted, concluded]
  | listing directory => rw [run_conclude_listing, concluded]

/-- **No trace of the past**: the answer to a request is the same in every memory that the site can
come to. -/
theorem Reachable.result_handle {n : Negotiator} (h : site.Reachable n) (t : Tree) (b : Text)
    (arrival : Arrival) (r : Request) :
    (site.handle t b arrival r n).1.result = site.reply t b r := by
  unfold reply
  cases hm : methodReply r.method with
  | some x =>
    rw [Site.result_handle]
    unfold respond
    rw [hm]
  | none =>
    cases hp : RequestPath.normalize? r.path with
    | none => exact (site.handle_of_irregular t b arrival n hm hp).1
    | some path =>
      rw [(site.handle_of_regular t b arrival n hm hp).1, run_inquire _ (site.marks t)]
      show settled _ = settled (site.answered t (r.inquiry b path))
      unfold answered
      rcases aim (site.service t) (r.inquiry b path).path (r.inquiry b path).query with e | _ | a
      · rfl
      · rfl
      · simp only [h.run_conclude]

end Site

/-! ### A small site -/

namespace Sample

def tree (modified : Timestamp) : Tree :=
  ⟨[(["srv".toList], ⟨.directory, modified⟩),
    (["srv".toList, "a.txt".toList], ⟨.file (Text.utf8 "hello".toList), modified⟩),
    (["srv".toList, "a.txt.gz".toList], ⟨.file [31, 139], modified⟩)]⟩

def site : Site := ⟨"/srv".toList, { resources := { root := "/srv".toList } }, {}⟩

def arrival : Arrival := { remote := "127.0.0.1".toList }

def request (headers : Headers) : Request := ⟨Service.get, "/a.txt".toList, none, headers⟩

/-- A request for a path that says nothing more. -/
def requestFor (path : Text) : Request := ⟨Service.get, path, none, []⟩

/-- The result of a computation, of which something is known by evaluation. -/
lemma exists_of_toOption {ε α β : Type} {x : Except ε α} {f : α → β} {b : β}
    (h : x.toOption.map f = some b) : ∃ a, x = .ok a ∧ f a = b := by
  cases x with
  | error e => cases h
  | ok a => exact ⟨a, rfl, Option.some.inj h⟩

lemma eq_error_of_toOption {x : Except Abandoned Reply} (h : x.toOption.isNone = true) :
    x = .error ⟨⟩ := by
  cases x with
  | error e => rfl
  | ok reply => cases h

lemma exists_plain {modified : Timestamp} (hm : modified = ⟨0⟩ ∨ modified = ⟨999999⟩) :
    ∃ plain, (site.handle (tree modified) [] arrival (request []) site.negotiator).1.result =
      .ok plain ∧ plain.status = 200 ∧ plain.body = .file "/srv/a.txt".toList [.all] 32768 := by
  obtain ⟨plain, hp, hplain⟩ := exists_of_toOption
    (x := (site.handle (tree modified) [] arrival (request []) site.negotiator).1.result)
    (f := fun x => (x.status, x.body)) (b := (200, .file "/srv/a.txt".toList [.all] 32768))
    (by rcases hm with rfl | rfl <;> decide +kernel)
  exact ⟨plain, hp, Prod.mk.inj hplain⟩

end Sample

end Docroot

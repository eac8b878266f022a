import Mathlib.Tactic.Common
import Docroot.Proofs.Judgement
import Docroot.Proofs.Sharing

/-!
When the work on a request is given up. A failure is told in a reply, so the only way to get none is
a modification time that has no written form: that of the form to be sent, that of a file or
directory whose date a precondition asks for, or one that a listing has to show.
-/

namespace Docroot

namespace Service

/-- A judgement stops where the preconditions stop, or where they let a reply pass that stops. -/
lemma judged_eq_error_iff {s : Service} {headers : Headers} {resource : Resource}
    {x : Except Abort Reply} {e : Abort} :
    judged s headers resource x = .error e ↔
      Precondition.evaluate headers resource s.options.tags = .error e ∨
        Precondition.evaluate headers resource s.options.tags = .ok .proceed ∧ x = .error e := by
  unfold judged
  rcases Precondition.evaluate headers resource s.options.tags with e' | verdict
  · simp
  · cases verdict <;> simp [Precondition.Verdict.reply?]

lemma settled_eq_error_iff {x : Except Abort (Option Reply)} :
    settled x = .error ⟨⟩ ↔ x = .error .undatable := by
  rcases x with (f | _) | _ | reply <;> simp [settled]

end Service

namespace Site

open Serving Service

/-- What a path leads to cannot be answered for want of a date. -/
inductive Stuck (site : Site) (t : Tree) (r : Request) (n : Negotiator) : Aim → Prop
  | listing {directory : Resource}
      (ha : Precondition.AsksDate r.headers directory site.options.tags) (hu : directory.Undated) :
      Stuck site t r n (.listing directory)
  | listed {directory : Resource} {names : List (Text × TreeEntry)} {x : Text × TreeEntry}
      (he : Precondition.evaluate r.headers directory site.options.tags = .ok .proceed)
      (hl : site.options.listings = true) (hn : t.list directory.location = .ok names)
      (hx : x ∈ names) (hu : ¬ x.2.modified.OnCalendar) : Stuck site t r n (.listing directory)
  | base {target : Text} {found : Found}
      (ha : Precondition.AsksDate r.headers found.resource site.options.tags)
      (hu : found.resource.Undated) : Stuck site t r n (.file target found)
  | form {target : Text} {found : Found}
      (he : Precondition.evaluate r.headers found.resource site.options.tags = .ok .proceed)
      (hu : (sent (site.service t) (consulted (r.headers.lines HeaderName.acceptEncoding) found n).1
        target found).1.Undated) : Stuck site t r n (.file target found)

variable {site : Site} {t : Tree} {b : Text} {arrival : Arrival} {r : Request} {n : Negotiator}

lemma delivery_eq_undatable_iff {path target : Text} {found : Found}
    (hl : Leads (site.service t) path (.file target found)) {q : Inquiry} {order : List Text} :
    delivery (site.service t) q order target found = .error .undatable ↔
      (sent (site.service t) order target found).1.Undated := by
  obtain ⟨hf, hd⟩ := finds_of_leads hl
  obtain ⟨p, hh, -⟩ := hf.holds_sent hd order
  rw [delivery_eq hh.source, ← Resource.lastModified_eq_undatable_iff]
  cases (sent (site.service t) order target found).1.lastModified <;> simp [Except.map]

lemma conclude_eq_undatable_iff {path : Text} {a : Aim} (hl : Leads (site.service t) path a) :
    (run (conclude (site.service t) (r.inquiry b path) a) n).1 = .error .undatable ↔
      site.Stuck t r n a := by
  cases a with
  | fixed reply =>
    refine iff_of_false (fun h => by cases h) (fun h => by cases h)
  | listing directory =>
    rw [run_conclude_listing]
    show judged (site.service t) r.headers directory _ = _ ↔ _
    rw [judged_eq_error_iff, Precondition.evaluate_eq_undatable_iff, listingReply_eq_undatable_iff]
    constructor
    -- the preconditions read the date of the directory, the page those of what it lists
    · rintro (⟨ha, hu⟩ | ⟨he, ho, -, names, hn, x, hx, hu⟩)
      · exact .listing ha hu
      · exact .listed he ho hn hx hu
    · intro h
      cases h with
      | listing ha hu => exact Or.inl ⟨ha, hu⟩
      | listed he ho hn hx hu =>
        exact Or.inr ⟨he, ho, (exists_folder_of_leads hl).1, _, hn, _, hx, hu⟩
  | file target found =>
    rw [run_conclude_file]
    show judged (site.service t) r.headers found.resource _ = _ ↔ _
    rw [judged_eq_error_iff, Precondition.evaluate_eq_undatable_iff, delivery_eq_undatable_iff hl]
    constructor
    · rintro (⟨ha, hu⟩ | ⟨he, hu⟩)
      · exact .base ha hu
      · exact .form he hu
    · intro h
      cases h with
      | base ha hu => exact Or.inl ⟨ha, hu⟩
      | form he hu => exact Or.inr ⟨he, hu⟩

lemma inquire_eq_undatable_iff {path : Text} :
    (run (inquire (site.service t) (r.inquiry b path)) n).1 = .error .undatable ↔
      ∃ a, aim (site.service t) path r.query = .ok (some a) ∧ site.Stuck t r n a := by
  have hends := @ends_aim site t path r.query
  rw [run_inquire _ (site.marks t),
    show aim _ (r.inquiry b path).path (r.inquiry b path).query = aim _ path r.query from rfl]
  rcases ha : aim (site.service t) path r.query with e | _ | a
  · rw [ha] at hends
    refine iff_of_false (fun h => ?_) ?_
    · cases h
      exact hends rfl
    · rintro ⟨a, h, -⟩
      cases h
  · refine iff_of_false (fun h => by cases h) ?_
    rintro ⟨a, h, -⟩
    cases h
  · have hc := conclude_eq_undatable_iff (b := b) (r := r) (n := n) (leads_of_aim _ ha)
    simp only
    constructor
    · intro h
      refine ⟨a, rfl, hc.1 ?_⟩
      cases hr : (run (conclude (site.service t) (r.inquiry b path) a) n).1 with
      | error e => simpa [hr, Except.map] using h
      | ok reply => simp [hr, Except.map] at h
    · rintro ⟨a', h, hstuck⟩
      cases h
      simp [hc.2 hstuck, Except.map]

/-- **Given up**: no reply is given just when the path of a request for a resource leads to
something that cannot be answered for want of a date. -/
theorem abandoned_iff (site : Site) (t : Tree) (b : Text) (arrival : Arrival) (r : Request)
    (n : Negotiator) :
    (site.handle t b arrival r n).1.result = .error ⟨⟩ ↔
      (r.method = get ∨ r.method = head) ∧ ∃ path a, RequestPath.normalize? r.path = some path ∧
        aim (site.service t) path r.query = .ok (some a) ∧ site.Stuck t r n a := by
  cases hm : methodReply r.method with
  | some x =>
    -- a method other than these is answered before anything is looked at
    obtain ⟨reply, hr⟩ : ∃ reply, (site.handle t b arrival r n).1.result = .ok reply := by
      rw [result_handle, respond, hm]
      unfold methodReply at hm
      split at hm
      · cases hm
      · split at hm <;> cases hm <;> exact ⟨_, rfl⟩
    have hnot : ¬ (r.method = get ∨ r.method = head) := by
      intro h
      rw [methodReply, if_pos h] at hm
      cases hm
    rw [hr]
    exact iff_of_false (fun h => by cases h) fun h => hnot h.1
  | none =>
    have hget := get_or_head_of_methodReply hm
    cases hp : RequestPath.normalize? r.path with
    | none =>
      rw [(site.handle_of_irregular t b arrival n hm hp).1]
      refine iff_of_false (fun h => by cases h) ?_
      rintro ⟨-, path, a, h, -⟩
      cases h
    | some path =>
      rw [(site.handle_of_regular t b arrival n hm hp).1, settled_eq_error_iff,
        inquire_eq_undatable_iff]
      constructor
      · rintro ⟨a, ha, hs⟩
        exact ⟨hget, path, a, rfl, ha, hs⟩
      · rintro ⟨-, path', a, h, ha, hs⟩
        cases h
        exact ⟨a, ha, hs⟩

/-- A file that was modified a nanosecond before 1970, or after 9999, gets a request for it no
reply; nor does a request for the listing of its directory get one if it was modified in the year
318857. -/
theorem abandoned_undated :
    (Sample.site.handle (Sample.tree ⟨-1⟩) [] Sample.arrival (Sample.request [])
        Sample.site.negotiator).1.result = .error ⟨⟩ ∧
      (Sample.site.handle (Sample.tree ⟨253402300800000000000⟩) [] Sample.arrival
        (Sample.request []) Sample.site.negotiator).1.result = .error ⟨⟩ ∧
      (Sample.site.handle (Sample.tree ⟨10000000000000000000000⟩) [] Sample.arrival
        (Sample.requestFor "/".toList) Sample.site.negotiator).1.result = .error ⟨⟩ := by
  exact ⟨Sample.eq_error_of_toOption (by decide +kernel),
    Sample.eq_error_of_toOption (by decide +kernel),
    Sample.eq_error_of_toOption (by decide +kernel)⟩

lemma not_undated_of_holds {path : Text} {resource : Resource} (h : site.Holds t path resource)
    (ht : t.Dated) : ¬ resource.Undated := by
  rw [← Resource.lastModified_eq_undatable_iff]
  exact h.ends_lastModified ht

/-- **Dated trees**: a request for a resource of a tree all of whose dates have a written form gets
a reply. -/
theorem exists_reply_of_dated (ht : t.Dated) (hm : methodReply r.method = none) :
    ∃ reply, (site.handle t b arrival r n).1.result = .ok reply := by
  cases hr : (site.handle t b arrival r n).1.result with
  | ok reply => exact ⟨reply, rfl⟩
  | error e =>
    exfalso
    cases hp : RequestPath.normalize? r.path with
    | none =>
      rw [(site.handle_of_irregular t b arrival n hm hp).1] at hr
      cases hr
    | some path =>
      rw [(site.handle_of_regular t b arrival n hm hp).1, settled_eq_error_iff,
        inquire_eq_undatable_iff] at hr
      obtain ⟨a, ha, hs⟩ := hr
      have hl := leads_of_aim _ ha
      cases hs with
      | listing _ hu => exact not_undated_of_holds (holds_of_leads hl) ht hu
      | listed _ _ hn hx hu =>
        obtain ⟨p, hp⟩ := Tree.exists_find?_of_mem_list hn hx
        exact hu (ht p _ hp).onCalendar
      | base _ hu => exact not_undated_of_holds (finds_of_leads hl).1.holds ht hu
      | form _ hu =>
        obtain ⟨hf, hd⟩ := finds_of_leads hl
        obtain ⟨p, hh, -⟩ := hf.holds_sent hd _
        exact not_undated_of_holds hh ht hu

end Site

end Docroot

import Mathlib.Tactic.Common
import Docroot.Proofs.Listed
import Docroot.Proofs.Memory

/-!
What a cache that many clients share may rely on. When every modification time has a written form,
each request gets a reply; the reply does not depend on the requests before it, and where it depends
on the codings that the client accepts, it says so in `Vary`.
-/

namespace Docroot

namespace Site

open Service

variable {site : Site} {t : Tree}

lemma Holds.exists_lastModified {path : Text} {resource : Resource}
    (h : site.Holds t path resource) (ht : t.Dated) :
    ∃ modified, resource.lastModified = .ok modified := by
  obtain ⟨place, e, hs, -, -, rfl⟩ := h
  obtain ⟨date, hd⟩ := (ht _ _ (Tree.stat_eq_ok_iff.1 hs).2 : e.modified.Dated).exists_format?
  unfold Resource.lastModified FileLookup.resourceOf
  simp only [hd]
  exact ⟨_, rfl⟩

lemma Holds.ends_lastModified {path : Text} {resource : Resource} (h : site.Holds t path resource)
    (ht : t.Dated) : Ends resource.lastModified := by
  obtain ⟨modified, hm⟩ := h.exists_lastModified ht
  rw [hm]
  exact Ends.ok modified

lemma ends_aim (path : Text) (query : Option Text) : Ends (aim (site.service t) path query) := by
  have ht : ∀ target, Ends (aimAtTarget (site.service t) target) := by
    intro target
    unfold aimAtTarget
    split
    · exact Ends.failed _
    · exact Ends.ok _
    · split <;> exact Ends.ok _
  unfold aim
  split
  · exact Ends.failed _
  · exact Ends.ok _
  · refine Ends.map ?_
    unfold aimAt
    split
    · split
      · unfold aimAtDirectory
        split
        · exact Ends.failed _
        · exact Ends.ok _
        · split
          · exact Ends.ok _
          · exact ht _
      · exact Ends.ok _
    · split <;> exact Ends.ok _

lemma ends_listingReply (ht : t.Dated) (q : Inquiry) (directory : Resource) :
    Ends (listingReply (site.service t) q directory) := by
  intro h
  obtain ⟨-, -, names, hn, x, hx, hu⟩ := listingReply_eq_undatable_iff.1 h
  obtain ⟨p, hp⟩ := Tree.exists_find?_of_mem_list hn hx
  exact hu (ht p x.2 hp).onCalendar

lemma ends_judged {headers : Headers} {resource : Resource} (h : Ends resource.lastModified)
    {x : Except Abort Reply} (hx : Ends x) : Ends (judged (site.service t) headers resource x) := by
  have he := Precondition.ends_evaluate h headers (site.service t).options.tags
  unfold judged
  split
  · next e hv =>
    rw [hv] at he
    intro h
    cases h
    exact he rfl
  · split
    · exact Ends.ok _
    · exact hx

end Site

/-- The reply says that it depends on the codings that the client accepts. -/
def Reply.Varies (reply : Reply) : Prop :=
  reply.headers.getAll HeaderName.vary = [Text.utf8 "Accept-Encoding".toList]

namespace Service

lemma exists_delivery {site : Site} {t : Tree} (ht : t.Dated) {path : Text} {found : Found}
    (hf : site.Finds t path found) (hd : found.resource.isDirectory = false) (q : Inquiry)
    (order : List Text) :
    ∃ reply, delivery (site.service t) q order path found = .ok reply ∧
      ∀ vs, found.kind = .compressible vs → reply.Varies := by
  obtain ⟨p, hh, -⟩ := hf.holds_sent hd order
  obtain ⟨modified, hm⟩ := hh.exists_lastModified ht
  rw [delivery_eq hh.source q, hm]
  refine ⟨_, rfl, fun vs hk => ?_⟩
  refine (Delivery.getAll_finish_draftFor _ _ _ _ (by decide) (by decide)
    (free_sent (by decide) _ _ _) _).trans ?_
  rw [(status_headers_sent _ _ _).2, variesBy, hk]
  rfl

end Service

namespace Site

open Service

variable {site : Site} {t : Tree}

lemma ends_concluded (ht : t.Dated) (q : Inquiry) {a : Aim}
    (ha : Leads (site.service t) q.path a) : Ends (site.concluded t q a) := by
  cases a with
  | fixed reply => exact Ends.ok reply
  | listing directory =>
    exact ends_judged ((holds_of_leads ha).ends_lastModified ht) (ends_listingReply ht q directory)
  | file target found =>
    obtain ⟨hf, hd⟩ := finds_of_leads ha
    obtain ⟨reply, hr, -⟩ := exists_delivery ht hf hd q (site.accepted q.headers found)
    refine ends_judged (hf.holds.ends_lastModified ht) ?_
    rw [hr]
    exact Ends.ok reply

lemma exists_reply (ht : t.Dated) (b : Text) (r : Request) : ∃ x, site.reply t b r = .ok x := by
  unfold reply
  split
  · next x hx =>
    unfold methodReply at hx
    split at hx
    · cases hx
    · split at hx <;> cases hx <;> exact ⟨_, rfl⟩
  · split
    · exact ⟨_, rfl⟩
    · next path _ =>
      -- no stage of the answer fails in a way that has no reply
      have he : Ends (site.answered t (r.inquiry b path)) := by
        have hq := @ends_aim site t path r.query
        unfold answered
        split
        · next e h =>
          rw [show aim _ path r.query = _ from h] at hq
          intro hc
          cases hc
          exact hq rfl
        · exact Ends.ok _
        · next a h => exact (ends_concluded ht _ (leads_of_aim _ h)).map
      unfold settled
      split
      · exact ⟨_, rfl⟩
      · exact ⟨_, rfl⟩
      · exact ⟨_, rfl⟩
      · next h => exact absurd h he

lemma judged_cases (s : Service) (headers : Headers) (resource : Resource)
    (x y : Except Abort Reply) :
    judged s headers resource x = judged s headers resource y ∨
      judged s headers resource x = x ∧ judged s headers resource y = y := by
  unfold judged
  split
  · exact Or.inl rfl
  · split
    · exact Or.inl rfl
    · exact Or.inr ⟨rfl, rfl⟩

/-- Requests that differ in the codings that they accept get one reply, or replies that vary. -/
lemma concluded_of_alike (ht : t.Dated) {r₁ r₂ : Request}
    (h : r₁.AlikeBut HeaderName.acceptEncoding r₂) (b path : Text) {a : Aim}
    (ha : Leads (site.service t) path a) :
    site.concluded t (r₁.inquiry b path) a = site.concluded t (r₂.inquiry b path) a ∨
      ∃ x y, site.concluded t (r₁.inquiry b path) a = .ok x ∧
        site.concluded t (r₂.inquiry b path) a = .ok y ∧ x.Varies ∧ y.Varies := by
  have hj : ∀ resource x, judged (site.service t) r₁.headers resource x =
      judged (site.service t) r₂.headers resource x := judged_of_alike h (by decide)
  cases a with
  | fixed reply => exact Or.inl rfl
  | listing directory =>
    left
    show judged _ r₁.headers directory _ = judged _ r₂.headers directory _
    rw [hj, listingReply_of_alike h b b path directory]
  | file target found =>
    obtain ⟨hf, hd⟩ := finds_of_leads ha
    show judged _ r₁.headers found.resource _ = judged _ r₂.headers found.resource _ ∨ ∃ x y,
      judged _ r₁.headers found.resource _ = .ok x ∧
        judged _ r₂.headers found.resource _ = .ok y ∧ _
    rw [hj]
    by_cases hk : ∃ vs, found.kind = .compressible vs
    · obtain ⟨vs, hk⟩ := hk
      rcases judged_cases (site.service t) r₂.headers found.resource _ _ with he | ⟨hx, hy⟩
      · exact Or.inl he
      · right
        obtain ⟨x, hx', hvx⟩ := exists_delivery ht hf hd (r₁.inquiry b path)
          (site.accepted (r₁.inquiry b path).headers found)
        obtain ⟨y, hy', hvy⟩ := exists_delivery ht hf hd (r₂.inquiry b path)
          (site.accepted (r₂.inquiry b path).headers found)
        exact ⟨x, y, hx.trans hx', hy.trans hy', hvx vs hk, hvy vs hk⟩
    · left
      -- a file without compressed forms asks for no codings
      have hn : ∀ headers, site.accepted headers found = [] := by
        intro headers
        unfold accepted
        split
        · next vs hv => exact absurd ⟨vs, hv⟩ hk
        · rfl
      rw [hn, hn, delivery_of_alike h (by decide) b path _ target found]

lemma reply_of_alike (ht : t.Dated) {r₁ r₂ : Request}
    (h : r₁.AlikeBut HeaderName.acceptEncoding r₂) (b : Text) :
    site.reply t b r₁ = site.reply t b r₂ ∨
      ∃ x y, site.reply t b r₁ = .ok x ∧ site.reply t b r₂ = .ok y ∧ x.Varies ∧ y.Varies := by
  unfold reply
  rw [h.method, h.path]
  cases methodReply r₂.method with
  | some x => exact Or.inl rfl
  | none =>
    cases RequestPath.normalize? r₂.path with
    | none => exact Or.inl rfl
    | some path =>
      have h₁ : aim (site.service t) (r₁.inquiry b path).path (r₁.inquiry b path).query =
          aim (site.service t) path r₂.query := by
        rw [← h.query]
        rfl
      have h₂ : aim (site.service t) (r₂.inquiry b path).path (r₂.inquiry b path).query =
          aim (site.service t) path r₂.query := rfl
      simp only [answered, h₁, h₂]
      cases ha : aim (site.service t) path r₂.query with
      | error e => exact Or.inl rfl
      | ok o =>
        cases o with
        | none => exact Or.inl rfl
        | some a =>
          rcases concluded_of_alike ht h b path (leads_of_aim _ ha) with he | ⟨x, y, hx, hy, hv⟩
          · left
            simp only [he]
          · right
            simp only [hx, hy]
            exact ⟨x, y, rfl, rfl, hv⟩

/-- **Shared caches**: for a tree that is dated and does not change, a request gets the same reply
whatever the site was asked before; and requests that differ only in the codings that they accept
get replies that are equal or both say that they vary. The delimiter of several parts is the same
throughout. -/
theorem eq_or_varies_of_alike (site : Site) {t : Tree} (ht : t.Dated) {n₁ n₂ : Negotiator}
    (h₁ : site.Reachable n₁) (h₂ : site.Reachable n₂) (b : Text) (arrival₁ arrival₂ : Arrival) :
    (∀ r, (site.handle t b arrival₁ r n₁).1.result = (site.handle t b arrival₂ r n₂).1.result) ∧
    ∀ r₁ r₂ : Request, r₁.AlikeBut HeaderName.acceptEncoding r₂ →
      ∃ x y, (site.handle t b arrival₁ r₁ n₁).1.result = .ok x ∧
        (site.handle t b arrival₂ r₂ n₂).1.result = .ok y ∧ (x ≠ y → x.Varies ∧ y.Varies) := by
  refine ⟨fun r => ?_, fun r₁ r₂ h => ?_⟩
  · rw [h₁.result_handle, h₂.result_handle]
  · rw [h₁.result_handle, h₂.result_handle]
    obtain ⟨x, hx⟩ : ∃ x, site.reply t b r₁ = .ok x := exists_reply ht b r₁
    obtain ⟨y, hy⟩ : ∃ y, site.reply t b r₂ = .ok y := exists_reply ht b r₂
    refine ⟨x, y, hx, hy, fun hne => ?_⟩
    rcases reply_of_alike ht h b with he | ⟨x', y', hx', hy', hv⟩
    · rw [hx, hy] at he
      cases he
      exact absurd rfl hne
    · rw [hx] at hx'
      rw [hy] at hy'
      cases hx'
      cases hy'
      exact hv

/-- A client that accepts gzip gets another reply than one that accepts nothing, even once the first
reply is remembered, and both say so. -/
theorem eq_or_varies_of_alike_sample :
    let site := Sample.site
    let t := Sample.tree ⟨0⟩
    let gzip := Sample.request [(HeaderName.acceptEncoding, Text.utf8 "gzip".toList)]
    let later := (site.handle t [] Sample.arrival gzip site.negotiator).2.setCapacity 7
    ∃ x y, (site.handle t [] Sample.arrival (Sample.request []) site.negotiator).1.result = .ok x ∧
      (site.handle t [] Sample.arrival gzip later).1.result = .ok y ∧ x.Varies ∧ y.Varies := by
  intro site t gzip later
  have ht : t.Dated := Tree.dated_of_entries (by decide)
  have ha : (Sample.request []).AlikeBut HeaderName.acceptEncoding gzip :=
    (Sample.request []).alikeBut_withLines HeaderName.acceptEncoding [Text.utf8 "gzip".toList]
  obtain ⟨x, y, hx, hy, hv⟩ := (eq_or_varies_of_alike site ht .start
    (.capacity (.request .start t [] Sample.arrival gzip) 7) [] Sample.arrival Sample.arrival).2
      (Sample.request []) gzip ha
  have hb : (site.handle t [] Sample.arrival (Sample.request []) site.negotiator).1.result.toOption
      ≠ (site.handle t [] Sample.arrival gzip later).1.result.toOption := by decide +kernel
  refine ⟨x, y, hx, hy, hv ?_⟩
  rintro rfl
  exact hb (by rw [hx, hy])

end Site

end Docroot

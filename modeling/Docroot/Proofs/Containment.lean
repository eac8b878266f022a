import Mathlib.Tactic.Common
import Docroot.Proofs.Listed
import Docroot.Proofs.Memory

/-!
Nothing outside the document root is served. Links may lead anywhere, but each way to a file or to a
listing ends with a look at the place that the links lead to, and a place that is not below the root
is not there for anybody.
-/

namespace Docroot

/-- The body is copied from a file that lies at or below `top`, all links followed. -/
def Reply.CopiedBelow (t : Tree) (top : Place) (name : Text) : Prop :=
  ∃ place data modified, t.stat name = .ok (place, ⟨.file data, modified⟩) ∧ top <+: place

/-- The page is the listing of the directory that the path of a request leads to, and this directory
lies at or below `top`, all links followed. -/
def Reply.ListedBelow (t : Tree) (top : Place) (root : Text) (r : Request) (page : Bytes) : Prop :=
  ∃ path place folder modified text, RequestPath.normalize? r.path = some path ∧
    t.stat (FileLookup.nameOf root path) = .ok (place, ⟨.directory folder, modified⟩) ∧
    top <+: place ∧ page = Text.utf8 text ∧
    Listing.render? (RequestPath.encode path) (1 < path.length) r.query
      ((t.seen folder place).map fun x => Listing.item x.1 x.2) = some text

namespace Site

open Service

variable {site : Site} {t t₀ : Tree} {settings : Settings}

lemma exists_top_of_openIn (h : (openIn t₀ settings).result = .ok site) :
    ∃ top, t₀.resolve settings.resources.root = .ok top ∧ site.root = top.name := by
  obtain ⟨root, hr, h⟩ := Logged.exists_of_result_bind h
  obtain ⟨options, -, h⟩ := Logged.exists_of_result_bind h
  cases h
  obtain ⟨top, ht, hname, -⟩ := Tree.resolve_of_canonicalize hr
  exact ⟨top, ht, hname⟩

lemma prefix_of_within {top place : Place} (ht : t₀.Settled top) (hp : t.Settled place)
    (h : PathName.within top.name place.name = true) : top <+: place :=
  (Place.within_name_iff (Place.named_of_settled ht) (Place.named_of_settled hp)).1 h

lemma body_of_delivery {top : Place} (hr : site.root = top.name) (ht : t₀.Settled top)
    {path target : Text} {found : Found} (hl : Leads (site.service t) path (.file target found))
    {q : Inquiry} {order : List Text} {reply : Reply}
    (h : delivery (site.service t) q order target found = .ok reply) :
    reply.body = .empty ∨ (∃ name segments size, reply.body = .file name segments size ∧
      Reply.CopiedBelow t top name) ∨ reply.status = 416 := by
  obtain ⟨p, written, hh, hd, -, rfl⟩ := exists_sent_of_delivery hl h
  obtain ⟨place, data, modified, hs, hw, -⟩ := hh.exists_file hd
  rw [hr] at hw
  have hbelow : Reply.CopiedBelow t top (FileLookup.nameOf site.root p) :=
    ⟨place, data, modified, hs, prefix_of_within ht (Tree.settled_stat hs) hw⟩
  rcases Delivery.bodyFor_cases site.options q.boundary q.headOnly _ written _ _ _ with
    hb | ⟨segments, hb⟩ | hu
  · exact Or.inl hb
  · exact Or.inr (Or.inl ⟨_, _, _, hb, hbelow⟩)
  · right
    right
    unfold Delivery.replyFor
    rw [hu]
    exact Delivery.status_draftFor _ _ _ _ _ .unsatisfiable

lemma listedBelow_of_listingReply {top : Place} (hr : site.root = top.name) (ht : t₀.Settled top)
    {r : Request} {b path : Text} (hp : RequestPath.normalize? r.path = some path)
    {directory : Resource} (hl : Leads (site.service t) path (.listing directory)) {reply : Reply}
    (h : listingReply (site.service t) (r.inquiry b path) directory = .ok reply)
    (hs : reply.status = 200 ∨ reply.status = 206) {page : Bytes} (hb : reply.body = .full page) :
    Reply.ListedBelow t top site.root r page := by
  obtain ⟨-, place, folder, modified, hstat, hw, hlist⟩ := exists_folder_of_leads hl
  have hforbidden : ¬ ((Reply.ofStatus 403).status = 200 ∨ (Reply.ofStatus 403).status = 206) := by
    decide
  unfold listingReply at h
  split at h
  · cases h
    exact absurd hs hforbidden
  · split at h
    · cases h
    · cases h
      exact absurd hs hforbidden
    · next text htext =>
      cases h
      -- a full body is no reply to a request for the head
      have hpage : Text.utf8 text = page := by
        simp only at hb
        split at hb <;> cases hb
        rfl
      obtain ⟨names, hn, hrender⟩ := Listing.exists_names_of_ofTree htext
      obtain rfl : names = t.seen folder place := by
        rw [hlist] at hn
        split at hn
        · exact (Except.ok.inj hn).symm
        · cases hn
      rw [hr] at hw
      exact ⟨path, place, folder, modified, text, hp, hstat,
        prefix_of_within ht (Tree.settled_stat hstat) hw, hpage.symm, hrender⟩

/-- **Containment**: a successful reply with a body brings bytes of a file, or lists a directory,
that lies at or below the document root in whole names, wherever links lead. -/
theorem below_top_of_handle (ho : (openIn t₀ settings).result = .ok site) {b : Text}
    {arrival : Arrival} {r : Request} {n : Negotiator} {reply : Reply}
    (h : (site.handle t b arrival r n).1.result = .ok reply)
    (hs : reply.status = 200 ∨ reply.status = 206) :
    ∃ top, t₀.resolve settings.resources.root = .ok top ∧
      match reply.body with
      | .empty => True
      | .file name _ _ => Reply.CopiedBelow t top name
      | .full page => Reply.ListedBelow t top site.root r page := by
  obtain ⟨top, hres, hroot⟩ := exists_top_of_openIn ho
  have ht := Tree.settled_resolve hres
  refine ⟨top, hres, ?_⟩
  cases answers_of_handle site t b arrival n h with
  | bare hbare => exact absurd hs (by have := hbare.status; omega)
  | listing _ hp ha hl =>
    cases hb : reply.body with
    | empty => trivial
    | file name segments size => exact absurd hb (held_of_listingReply hl name segments size)
    | full page => exact listedBelow_of_listingReply hroot ht hp (leads_of_aim _ ha) hl hs hb
  | file _ _ ha _ hd =>
    rcases body_of_delivery hroot ht (leads_of_aim _ ha) hd with hb | ⟨_, _, _, hb, hc⟩ | hb
    · rw [hb]
      trivial
    · rw [hb]
      exact hc
    · omega

theorem below_top_of_handle_sample :
    ∃ top, (Sample.tree ⟨0⟩).resolve "/srv".toList = .ok top ∧
      Reply.CopiedBelow (Sample.tree ⟨0⟩) top "/srv/a.txt".toList := by
  obtain ⟨reply, h, hs, hb⟩ := Sample.exists_plain (Or.inl rfl)
  obtain ⟨site, ho, rfl⟩ := Sample.exists_of_toOption (f := id) (b := Sample.site)
    (x := (openIn (Sample.tree ⟨0⟩) Sample.site.settings).result) (by decide +kernel)
  obtain ⟨top, hr, hbody⟩ := below_top_of_handle ho h (Or.inl hs)
  rw [hb] at hbody
  exact ⟨top, hr, hbody⟩

end Site

end Docroot

import Mathlib.Tactic.Common
import Docroot.Proofs.Judgement
import Docroot.Proofs.Table

/-!
The listing of a directory of a tree. It has an item for each object that stands in the directory,
and there is one unless the names may not be read; the work stops if it has to show a time that
there is no date for.
-/

namespace Docroot

namespace Tree

variable {t : Tree} {p : Place}

lemma mem_children_iff {name : Text} {e : TreeEntry} :
    (name, e) ∈ t.children p ↔ t.find? (p ++ [name]) = some e := by
  unfold children
  rw [List.mem_filterMap]
  constructor
  · rintro ⟨q, -, h⟩
    split at h
    · next hq =>
      obtain ⟨last, hlast, h⟩ := Option.bind_eq_some_iff.1 h
      obtain ⟨x, hx, h⟩ := Option.map_eq_some_iff.1 h
      cases h
      obtain ⟨before, rfl⟩ := List.getLast?_eq_some_iff.1 hlast
      rw [List.dropLast_concat] at hq
      exact hq ▸ hx
    · cases h
  · intro h
    have hlookup : t.entries.lookup (p ++ [name]) = some e := by
      rwa [find?, if_neg (by simp)] at h
    obtain ⟨before, after, hentries, -⟩ := List.lookup_eq_some_iff.1 hlookup
    refine ⟨p ++ [name], ?_, by simp [h]⟩
    rw [List.mem_eraseDups, hentries]
    simp

lemma exists_of_list {path : Text} {names : List (Text × TreeEntry)}
    (h : t.list path = .ok names) :
    ∃ place folder modified, t.stat path = .ok (place, ⟨.directory folder, modified⟩) ∧
      folder.readable = true ∧ names = t.seen folder place := by
  unfold list at h
  split at h
  · cases h
  · next place folder modified hs =>
    split at h
    · next hr =>
      cases h
      exact ⟨place, folder, modified, hs, hr, rfl⟩
    · cases h
  · cases h

lemma exists_find?_of_mem_list {path : Text} {names : List (Text × TreeEntry)}
    (h : t.list path = .ok names) {x : Text × TreeEntry} (hx : x ∈ names) :
    ∃ q, t.find? q = some x.2 := by
  obtain ⟨place, folder, -, -, -, rfl⟩ := exists_of_list h
  unfold seen at hx
  split at hx
  · exact ⟨_, mem_children_iff.1 hx⟩
  · exact absurd hx List.not_mem_nil

/-- An object that is no file is a directory: a name is followed until it leads to no link. -/
lemma exists_folder_of_stat {path : Text} {e : TreeEntry} (h : t.stat path = .ok (p, e))
    (hn : ∀ data, e.node ≠ .file data) : ∃ folder, e.node = .directory folder := by
  obtain ⟨-, hfind⟩ := stat_eq_ok_iff.1 h
  cases hnode : e.node with
  | file data => exact absurd hnode (hn data)
  | directory folder => exact ⟨folder, rfl⟩
  | link target =>
    exfalso
    rcases List.eq_nil_or_concat p with rfl | ⟨q, s, rfl⟩
    · cases hfind
      cases hnode
    · obtain ⟨e', he', hl⟩ := (settled_stat h q s (by simp)).there
      rw [List.concat_eq_append, he'] at hfind
      cases hfind
      exact hl target hnode

end Tree

lemma Timestamp.Dated.onCalendar {m : Timestamp} (h : m.Dated) : m.OnCalendar := by
  obtain ⟨hd0, hd1⟩ := HttpDate.dayNumber_bounds h.1 h.2
  have hy : 1970 ≤ m.date.year ∧ m.date.year ≤ 9999 := Date.year_bounds hd0 hd1
  exact ⟨by omega, by omega⟩

namespace Listing

variable {t : Tree} {directory : Resource} {base : Text} {parent : Bool} {query : Option Text}

@[simp] lemma onCalendar_item (name : Text) (e : TreeEntry) :
    (item name e).OnCalendar ↔ e.modified.OnCalendar := by
  simp [Item.OnCalendar, item]

lemma exists_names_of_ofTree {page : Text}
    (h : ofTree t directory base parent query = .ok (some page)) :
    ∃ names, t.list directory.location = .ok names ∧
      render? base parent query (names.map fun x => item x.1 x.2) = some page := by
  unfold ofTree at h
  split at h
  · cases h
  · split at h
    · cases h
    · cases h
    · next names hn =>
      split at h
      · next hr =>
        cases h
        exact ⟨names, hn, hr⟩
      · cases h

lemma ofTree_of_denied (h : t.list directory.location = .error .permissionDenied) :
    ofTree t directory base parent query = .ok none := by
  unfold ofTree
  rw [h]
  split <;> rfl

lemma ofTree_of_list {names : List (Text × TreeEntry)} (hd : directory.isDirectory = true)
    (h : t.list directory.location = .ok names) :
    (∃ page, ofTree t directory base parent query = .ok (some page)) ∨
      ofTree t directory base parent query = .error .undatable := by
  unfold ofTree
  rw [hd, h]
  cases hr : render? base parent query (names.map fun x => item x.1 x.2) with
  | some page => exact Or.inl ⟨page, by simp [hr]⟩
  | none => exact Or.inr (by simp [hr])

/-- **The work on a listing stops** just when a time is to be shown that there is no date for. -/
theorem ofTree_eq_undatable_iff :
    ofTree t directory base parent query = .error .undatable ↔
      directory.isDirectory = true ∧ ∃ names, t.list directory.location = .ok names ∧
        ∃ x ∈ names, ¬ x.2.modified.OnCalendar := by
  have hrender : ∀ names : List (Text × TreeEntry),
      render? base parent query (names.map fun x => item x.1 x.2) = none ↔
        ∃ x ∈ names, ¬ x.2.modified.OnCalendar := by
    intro names
    rw [← not_iff_not, ← ne_eq, Option.ne_none_iff_exists', exists_render?_iff]
    simp only [List.forall_mem_map, onCalendar_item, not_exists, not_and, not_not]
  unfold ofTree
  cases hd : directory.isDirectory with
  | false => simp
  | true =>
    rcases hl : t.list directory.location with e | names
    · cases e <;> simp
    · simp only [Bool.not_true, Bool.false_eq_true, if_false, true_and, Except.ok.injEq,
        exists_eq_left', ← hrender]
      cases render? base parent query (names.map fun x => item x.1 x.2) <;> simp

end Listing

namespace Site

open Service

variable {site : Site} {t : Tree}

/-- What is listed for a path is the directory that the path leads to. -/
lemma exists_folder_of_leads {path : Text} {directory : Resource}
    (hl : Leads (site.service t) path (.listing directory)) :
    directory.isDirectory = true ∧ ∃ place folder modified,
      t.stat (FileLookup.nameOf site.root path) = .ok (place, ⟨.directory folder, modified⟩) ∧
      PathName.within site.root place.name = true ∧
      t.list directory.location =
        if folder.readable then .ok (t.seen folder place) else .error .permissionDenied := by
  have hd : directory.isDirectory = true := by
    cases hl with
    | listing _ hd _ => exact hd
  obtain ⟨place, ⟨node, modified⟩, hs, hshort, hw, hres⟩ := holds_of_leads hl
  obtain ⟨folder, rfl⟩ := Tree.exists_folder_of_stat hs fun data hn => by
    simp only at hn
    rw [hres, hn] at hd
    cases hd
  refine ⟨hd, place, folder, modified, hs, hw, ?_⟩
  rw [hres]
  exact Tree.list_name hs hshort

lemma ofTree_of_leads {path : Text} {directory : Resource}
    (hl : Leads (site.service t) path (.listing directory)) (base : Text) (parent : Bool)
    (query : Option Text) :
    t.list directory.location = .error .permissionDenied ∧
        Listing.ofTree t directory base parent query = .ok none ∨
      (∃ page, Listing.ofTree t directory base parent query = .ok (some page)) ∨
      Listing.ofTree t directory base parent query = .error .undatable := by
  obtain ⟨hd, place, folder, modified, -, -, hlist⟩ := exists_folder_of_leads hl
  cases hr : folder.readable with
  | false =>
    rw [hr, if_neg (by simp)] at hlist
    exact Or.inl ⟨hlist, Listing.ofTree_of_denied hlist⟩
  | true =>
    rw [hr, if_pos rfl] at hlist
    exact Or.inr (Listing.ofTree_of_list hd hlist)

lemma listingReply_eq_undatable_iff {q : Inquiry} {directory : Resource} :
    listingReply (site.service t) q directory = .error .undatable ↔
      site.options.listings = true ∧ directory.isDirectory = true ∧
        ∃ names, t.list directory.location = .ok names ∧
          ∃ x ∈ names, ¬ x.2.modified.OnCalendar := by
  rw [← @Listing.ofTree_eq_undatable_iff t directory (RequestPath.encode q.path)
    (1 < q.path.length) q.query]
  unfold listingReply service
  split
  · next ho => simp [show site.options.listings = false by simpa using ho]
  · next ho =>
    simp only [show site.options.listings = true by simpa using ho, true_and]
    split
    · next e he => simp [he]
    · next he => simp [he]
    · next page he => simp [he]

end Site

end Docroot

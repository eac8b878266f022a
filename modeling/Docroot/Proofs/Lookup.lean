import Mathlib.Tactic.Common
import Docroot.Proofs.Canonical
import Docroot.Proofs.Routing
import Docroot.Site

/-!
What the look-ups of a site find. A found resource is an object of the tree at or below the root,
the directories are just what is marked for a welcome file, and each compressed form is itself such
an object, under the name of the resource with the ending of its format.
-/

namespace Docroot

namespace FileLookup

def nameOf (root path : Text) : Text := PathName.join root (Text.strip (· == '/') path)

/-- What is found is the object that the name of the path stands for, under its absolute name. -/
lemma exists_of_lookup {t : Tree} {root path : Text} {accepts : Text → Text → Bool} {found : Found}
    (h : (lookup t root accepts path).result = .ok (some found)) :
    ∃ place e, t.stat (nameOf root path) = .ok (place, e) ∧
      t.canonicalize (nameOf root path) = .ok place.name ∧ accepts path place.name = true ∧
      found = ⟨resourceOf (nameOf root path) place.name e, .plain⟩ := by
  have hnone : ∀ {e : IoError}, (if e.isAbsence then pure none else Logged.fail e :
      Logged IoError (Option Found)).result ≠ .ok (some found) := by
    intro e h
    split at h <;> cases h
  unfold lookup at h
  simp only at h
  split at h
  · exact absurd h hnone
  · next place e hs =>
    split at h
    · exact absurd h hnone
    · next location hc =>
      obtain ⟨p, hp, rfl, -⟩ := Tree.resolve_of_canonicalize hc
      obtain rfl : p = place := Except.ok.inj (hp.symm.trans (Tree.stat_eq_ok_iff.1 hs).1)
      split at h
      · next ha =>
        cases h
        exact ⟨p, e, hs, hc, ha, rfl⟩
      · cases h

lemma result_lookup_of_stat {t : Tree} {root path : Text} {accepts : Text → Text → Bool}
    {place : Place} {e : TreeEntry} {x : Option Found}
    (hs : t.stat (nameOf root path) = .ok (place, e)) (ha : accepts path place.name = true)
    (h : (lookup t root accepts path).result = .ok x) :
    x = some ⟨resourceOf (nameOf root path) place.name e, .plain⟩ := by
  unfold lookup at h
  simp only [show t.stat (PathName.join root _) = _ from hs] at h
  rcases Tree.canonicalize_of_resolve (Tree.stat_eq_ok_iff.1 hs).1 with hc | hc
  · simp only [show t.canonicalize (PathName.join root _) = _ from hc, ha, if_true] at h
    cases h
    rfl
  · simp only [show t.canonicalize (PathName.join root _) = _ from hc] at h
    cases h

end FileLookup

namespace CompressedLookup

/-- The form of the resource at `path` that stands beside it for a format. -/
def form? (inner : Lookup) (path : Text) (f : Format) : Option Variant :=
  match (inner (path ++ f.extension)).result with
  | .ok (some x) => if x.resource.isDirectory then none else some ⟨f, x.resource⟩
  | _ => none

lemma form?_eq_some {inner : Lookup} {path : Text} {f : Format} {v : Variant}
    (h : form? inner path f = some v) :
    v.format = f ∧ v.resource.isDirectory = false ∧
      ∃ x, (inner (path ++ f.extension)).result = .ok (some x) ∧ v.resource = x.resource := by
  unfold form? at h
  split at h
  · next x hx =>
    split at h
    · cases h
    · next hd =>
      cases h
      exact ⟨rfl, by simpa using hd, x, hx, rfl⟩
  · cases h

lemma variants_eq {inner : Lookup} {path : Text} {fs : List Format} {vs : List Variant}
    (h : (variants inner path fs).result = .ok vs) : vs = fs.filterMap (form? inner path) := by
  induction fs generalizing vs with
  | nil =>
    cases h
    rfl
  | cons f fs ih =>
    obtain ⟨found, hf, h⟩ := Logged.exists_of_result_bind h
    obtain ⟨rest, hr, h⟩ := Logged.exists_of_result_bind h
    obtain rfl := ih hr
    rw [List.filterMap_cons]
    rcases found with _ | x
    · cases h
      rw [form?, hf]
    · have hform : form? inner path f =
          if x.resource.isDirectory then none else some ⟨f, x.resource⟩ := by rw [form?, hf]
      rw [hform]
      by_cases hd : x.resource.isDirectory = true
      · simp only [hd, if_true, Logged.result_pure, Except.ok.injEq] at h ⊢
        exact h.symm
      · simp only [hd, if_false, Logged.result_pure, Except.ok.injEq, Bool.false_eq_true] at h ⊢
        exact h.symm

lemma exists_of_variants {inner : Lookup} {path : Text} {fs : List Format} {vs : List Variant}
    (h : (variants inner path fs).result = .ok vs) {f : Format} (hf : f ∈ fs) :
    ∃ found, (inner (path ++ f.extension)).result = .ok found := by
  induction fs generalizing vs with
  | nil => exact absurd hf List.not_mem_nil
  | cons g fs ih =>
    obtain ⟨found, hg, h⟩ := Logged.exists_of_result_bind h
    obtain ⟨rest, hr, -⟩ := Logged.exists_of_result_bind h
    rcases List.mem_cons.1 hf with rfl | hf
    · exact ⟨found, hg⟩
    · exact ih hr hf

/-- The kind of what was found, once the forms beside it are known. -/
def kindWith (kind : Kind) : List Variant → Kind
  | [] => kind
  | vs => .compressible vs

@[simp] lemma kindWith_plain_eq_compressible {vs ws : List Variant} :
    kindWith .plain vs = .compressible ws ↔ vs ≠ [] ∧ vs = ws := by
  cases vs <;> simp [kindWith]

@[simp] lemma kindWith_plain_ne_welcome (vs : List Variant) : kindWith .plain vs ≠ .welcome := by
  cases vs <;> simp [kindWith]

/-- Attaching forms leaves a directory as it is; another resource is compressible when there is a
form of it. -/
lemma attach_eq {inner : Lookup} {formats : List Format} {path : Text} {found attached : Found}
    (h : (attach inner formats path found).result = .ok attached) :
    attached = if found.resource.isDirectory then found
      else { found with kind := kindWith found.kind (formats.filterMap (form? inner path)) } := by
  unfold attach at h
  by_cases hd : found.resource.isDirectory = true
  · rw [if_pos hd] at h ⊢
    cases h
    rfl
  · rw [if_neg hd] at h ⊢
    obtain ⟨vs, hvs, h⟩ := Logged.exists_of_result_bind h
    rw [← variants_eq hvs]
    rcases vs with _ | ⟨v, vs⟩ <;> cases h <;> rfl

end CompressedLookup

lemma Service.mem_of_chosen {order : List Text} {vs : List Variant} {v : Variant}
    (h : Service.chosen order vs = some v) : v ∈ vs := by
  obtain ⟨token, -, ht⟩ := List.exists_of_findSome?_eq_some h
  exact List.mem_of_find?_eq_some ht

lemma Service.chosen_nil (order : List Text) : Service.chosen order [] = none :=
  List.findSome?_eq_none_iff.2 fun _ _ => rfl

namespace Site

variable {site : Site} {t : Tree} {path : Text}

/-- The resource is the object that a path leads to, and lies at or below the root. -/
def Holds (site : Site) (t : Tree) (path : Text) (resource : Resource) : Prop :=
  ∃ place e, t.stat (FileLookup.nameOf site.root path) = .ok (place, e) ∧ place.Short ∧
    PathName.within site.root place.name = true ∧
    resource = FileLookup.resourceOf (FileLookup.nameOf site.root path) place.name e

/-- What is known of anything that is found at a path. -/
structure Finds (site : Site) (t : Tree) (path : Text) (found : Found) : Prop where
  holds : site.Holds t path found.resource
  welcome : found.kind = .welcome ↔ found.resource.isDirectory = true
  variant : ∀ vs, found.kind = .compressible vs → ∀ v ∈ vs,
    v.format ∈ site.settings.resources.formats ∧ v.resource.isDirectory = false ∧
      site.Holds t (path ++ v.format.extension) v.resource

lemma holds_of_files {found : Found} (h : (site.files t path).result = .ok (some found)) :
    found.kind = .plain ∧ site.Holds t path found.resource := by
  obtain ⟨place, e, hs, hc, ha, rfl⟩ := FileLookup.exists_of_lookup h
  obtain ⟨p, -, hp, hshort⟩ := Tree.resolve_of_canonicalize hc
  exact ⟨rfl, place, e, hs, by rwa [Place.Short, hp], ha, rfl⟩

/-- The forms of a path that the site has files for, in the order of its formats. -/
def forms (site : Site) (t : Tree) (path : Text) : List Variant :=
  site.settings.resources.formats.filterMap (CompressedLookup.form? (site.files t) path)

lemma holds_of_mem_forms {v : Variant} (h : v ∈ site.forms t path) :
    v.format ∈ site.settings.resources.formats ∧ v.resource.isDirectory = false ∧
      site.Holds t (path ++ v.format.extension) v.resource := by
  obtain ⟨f, hf, hv⟩ := List.mem_filterMap.1 h
  obtain ⟨rfl, hd, x, hx, hr⟩ := CompressedLookup.form?_eq_some hv
  exact ⟨hf, hd, hr ▸ (holds_of_files hx).2⟩

lemma exists_of_lookup {found : Found} (h : (site.lookup t path).result = .ok (some found)) :
    ∃ base attached, (site.files t path).result = .ok (some base) ∧
      (CompressedLookup.attach (site.files t) site.settings.resources.formats path base).result =
        .ok attached ∧
      found = WelcomeLookup.mark attached := by
  obtain ⟨o, ho, h⟩ := Logged.exists_of_result_bind h
  obtain ⟨inner, hi, ho⟩ := Logged.exists_of_result_bind ho
  rcases inner with _ | base
  · cases ho
    cases h
  · obtain ⟨attached, ha, ho⟩ := Logged.exists_of_result_bind ho
    cases ho
    cases h
    exact ⟨base, attached, hi, ha, rfl⟩

/-- What is found is an object of the tree; a directory is marked for its welcome file, and anything
else is compressible when there is a form of it. -/
lemma eq_of_lookup {found : Found} (h : (site.lookup t path).result = .ok (some found)) :
    site.Holds t path found.resource ∧
      found.kind = if found.resource.isDirectory then .welcome
        else CompressedLookup.kindWith .plain (site.forms t path) := by
  obtain ⟨base, attached, hi, ha, rfl⟩ := exists_of_lookup h
  obtain ⟨hk, hb⟩ := holds_of_files hi
  obtain rfl := CompressedLookup.attach_eq ha
  by_cases hd : base.resource.isDirectory = true
  · simpa [WelcomeLookup.mark, hd] using hb
  · simpa [WelcomeLookup.mark, hd, hk, forms] using hb

lemma exists_files_of_lookup {found : Found}
    (h : (site.lookup t path).result = .ok (some found))
    (hd : found.resource.isDirectory = false) {f : Format}
    (hf : f ∈ site.settings.resources.formats) :
    ∃ x, (site.files t (path ++ f.extension)).result = .ok x := by
  obtain ⟨base, attached, -, ha, rfl⟩ := exists_of_lookup h
  have hmarked : (WelcomeLookup.mark attached).resource = base.resource := by
    rw [CompressedLookup.attach_eq ha, WelcomeLookup.mark]
    split_ifs <;> rfl
  have hbase : base.resource.isDirectory = false := hmarked ▸ hd
  unfold CompressedLookup.attach at ha
  rw [hbase, if_neg (by simp)] at ha
  obtain ⟨vs, hvs, -⟩ := Logged.exists_of_result_bind ha
  exact CompressedLookup.exists_of_variants hvs hf

lemma finds_of_lookup {found : Found} (h : (site.lookup t path).result = .ok (some found)) :
    site.Finds t path found := by
  obtain ⟨hb, hk⟩ := eq_of_lookup h
  by_cases hd : found.resource.isDirectory = true
  · refine ⟨hb, by simp [hk, hd], fun vs hv => ?_⟩
    simp [hk, hd] at hv
  · refine ⟨hb, by simp [hk, hd], fun vs hv x hx => ?_⟩
    simp only [hk, hd, if_false, Bool.false_eq_true,
      CompressedLookup.kindWith_plain_eq_compressible] at hv
    exact holds_of_mem_forms (hv.2 ▸ hx)

lemma Holds.source {resource : Resource} (h : site.Holds t path resource) :
    resource.source = .file (FileLookup.nameOf site.root path) := by
  obtain ⟨place, e, -, -, -, rfl⟩ := h
  rfl

lemma marks (site : Site) (t : Tree) : (site.service t).Marks :=
  fun _ _ h => (finds_of_lookup h).welcome

lemma Holds.exists_file {resource : Resource} (h : site.Holds t path resource)
    (hd : resource.isDirectory = false) :
    ∃ place data modified,
      t.stat (FileLookup.nameOf site.root path) = .ok (place, ⟨.file data, modified⟩) ∧
      PathName.within site.root place.name = true ∧
      resource = FileLookup.resourceOf (FileLookup.nameOf site.root path) place.name
        ⟨.file data, modified⟩ := by
  obtain ⟨place, ⟨node, modified⟩, hs, -, hw, rfl⟩ := h
  cases node with
  | file data => exact ⟨place, data, modified, hs, hw, rfl⟩
  | directory folder => simp [FileLookup.resourceOf] at hd
  | link target => simp [FileLookup.resourceOf] at hd

end Site

end Docroot

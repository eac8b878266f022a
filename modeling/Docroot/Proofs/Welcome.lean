import Mathlib.Tactic.Common
import Docroot.Proofs.Descent

/-!
The welcome file of a directory. It is found under the name of the place where the directory lies,
and asked for again under the path of the directory with its name at the end; a look-up of that path
finds the same file, or nothing that is there.
-/

namespace Docroot

namespace WelcomeLookup

/-- The welcome file of a directory is a file in it that has one of the names. -/
lemma exists_of_target {t : Tree} {path : Text} {directory : Resource} {names : List Text}
    {x : Text} (h : target t path directory names = .ok (some x)) :
    ∃ name ∈ names, x = path ++ name ∧ ∃ place data modified,
      t.stat (PathName.join directory.location name) = .ok (place, ⟨.file data, modified⟩) := by
  induction names with
  | nil => cases h
  | cons name names ih =>
    have hrest : target t path directory names = .ok (some x) →
        ∃ name' ∈ name :: names, x = path ++ name' ∧ ∃ place data modified,
          t.stat (PathName.join directory.location name') =
            .ok (place, ⟨.file data, modified⟩) := by
      intro h
      obtain ⟨name', hm, hx⟩ := ih h
      exact ⟨name', List.mem_cons_of_mem name hm, hx⟩
    unfold target at h
    split at h
    · next place data modified hs =>
      cases h
      exact ⟨name, List.mem_cons_self, rfl, place, data, modified, hs⟩
    · exact hrest h
    · exact hrest h
    · cases h

end WelcomeLookup

namespace Site

open RequestPath

variable {site : Site} {t : Tree}

/-- The welcome files of the site are named by one segment each. -/
def NamesFiles (site : Site) : Prop :=
  ∀ name ∈ site.settings.resources.welcomeFiles, PathName.Single name

instance (site : Site) : Decidable site.NamesFiles :=
  inferInstanceAs (Decidable (∀ name ∈ site.settings.resources.welcomeFiles, PathName.Single name))

lemma isDirectory_congr {path path' : Text} {found found' : Found}
    (hs : Text.strip (· == '/') path' = Text.strip (· == '/') path)
    (h : (site.lookup t path).result = .ok (some found))
    (h' : (site.lookup t path').result = .ok (some found')) :
    found'.resource.isDirectory = found.resource.isDirectory := by
  obtain ⟨place, e, hstat, -, -, hr⟩ := (finds_of_lookup h).holds
  obtain ⟨place', e', hstat', -, -, hr'⟩ := (finds_of_lookup h').holds
  have hname : FileLookup.nameOf site.root path' = FileLookup.nameOf site.root path := by
    unfold FileLookup.nameOf
    rw [hs]
  rw [hname, hstat] at hstat'
  cases hstat'
  rw [hr, hr', hname]

structure Welcomes (site : Site) (t : Tree) (path target : Text) : Prop where
  named : ∃ name ∈ site.settings.resources.welcomeFiles, target = path ++ name
  regular : Regular target
  noSlash : ¬ ['/'] <:+ target
  found : ∀ found, (site.lookup t target).result = .ok (some found) →
    found.resource.isDirectory = false

/-- **The path of a welcome file** does not lead to a directory, whatever links lead to where the
file is. -/
theorem welcomes_of_target (hw : site.NamesFiles) {path target : Text} (hr : Regular path)
    (hs : ['/'] <:+ path) {directory : Found}
    (hf : (site.lookup t path).result = .ok (some directory))
    (h : (site.service t).welcome path directory.resource = .ok (some target)) :
    site.Welcomes t path target := by
  obtain ⟨d, e, hd, -, -, hres⟩ := (finds_of_lookup hf).holds
  obtain ⟨name, hm, rfl, p, data, modified, hp⟩ := WelcomeLookup.exists_of_target h
  have hloc : directory.resource.location = d.name := by rw [hres]; rfl
  rw [hloc] at hp
  have hn : Plain name := Tree.plain_of_file (Tree.settled_stat hd) (hw name hm) hp
  obtain ⟨hregular, hslash, segments, hplain, hpath, htarget⟩ := hr.append_name hs hn
  refine ⟨⟨name, hm, rfl⟩, hregular, hslash, fun found hfound => ?_⟩
  obtain ⟨q, e', hq, -, -, hres'⟩ := (finds_of_lookup hfound).holds
  unfold FileLookup.nameOf at hd hq
  rw [hpath] at hd
  rw [htarget] at hq
  obtain rfl := Tree.place_unique hplain hn hd hp hq
  have he := (Tree.stat_eq_ok_iff.1 hp).2.symm.trans (Tree.stat_eq_ok_iff.1 hq).2
  cases he
  rw [hres']
  rfl

end Site

namespace Sample

def indexTree (modified : Timestamp) : Tree :=
  ⟨[(["srv".toList], ⟨.directory, ⟨0⟩⟩), (["srv".toList, "d".toList], ⟨.directory, ⟨0⟩⟩),
    (["srv".toList, "d".toList, "index.html".toList], ⟨.file (Text.utf8 "x".toList), modified⟩)]⟩

end Sample

end Docroot

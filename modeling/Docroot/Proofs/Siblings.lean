import Mathlib.Tactic.Common
import Docroot.Proofs.Missing

/-!
The files beside a resource. They are looked up one after another, so the first whose name is
obstructed, or leads where absolute names are too long, makes the look-up of the resource itself
fail; those that are missing, that are directories or that are not accepted are passed over.
-/

namespace Docroot

namespace Tree

variable {t : Tree} {name : Text}

/-! ### Absolute names that are too long -/

/-- The name leads to an object, but on the way an object is met under an absolute name that is too
long for a path name. -/
structure Outgrows (t : Tree) (name : Text) : Prop where
  leads : ∃ p, t.resolve name = .ok p
  comes : ∃ k p s rest, k ≤ linkBound ∧
    Comes t.turn k [] (Text.splitOn '/' name) p (s :: rest) ∧
    s ∉ [[], ['.'], ['.', '.']] ∧ pathBound ≤ (Text.utf8 (Place.name (p ++ [s]))).length

lemma comes_of_turnByName {k : Nat} {p q : Place} {names left : List Text}
    (h : Comes t.turnByName k p names q left) : Comes t.turn k p names q left := by
  induction h with
  | here p names => exact .here p names
  | step hs _ ih => exact .step (turn_of_turnByName hs).1 ih
  | link hs _ ih => exact .link (turn_of_turnByName hs).1 ih

/-- A walk by absolute names that gets to its end comes wherever the other walk comes. -/
lemma exists_walk_of_comes {k : Nat} {p q : Place} {names left : List Text}
    (h : Comes t.turn k p names q left) {links : Nat} {r : Place}
    (hw : walkBy t.turnByName links p names = .ok r) :
    ∃ fewer, walkBy t.turnByName fewer q left = .ok r := by
  induction h generalizing links with
  | here p names => exact ⟨links, hw⟩
  | @step _ p _ _ s _ _ hs _ ih =>
    rw [walk_cons] at hw
    rcases t.turnByName_eq_or p s with he | he <;> rw [he] at hw
    · rw [hs] at hw
      exact ih hw
    · cases hw
  | @link _ p _ _ s _ _ _ hs _ ih =>
    rw [walk_cons] at hw
    rcases t.turnByName_eq_or p s with he | he <;> rw [he] at hw
    · rw [hs] at hw
      cases links with
      | zero => cases hw
      | succ links => exact ih hw
    · cases hw

lemma resolveBy_of_resolve {turn turn' : Place → Text → Except IoError Turn} {p : Place}
    (h : resolveBy turn name = .ok p) :
    resolveBy turn' name = walkBy turn' linkBound [] (Text.splitOn '/' name) := by
  unfold resolveBy at h ⊢
  split_ifs at h ⊢
  rfl

/-- **An object has no absolute name** just when absolute names outgrow a path name on the way to
it. -/
theorem outgrows_iff :
    t.Outgrows name ↔
      (∃ p, t.resolve name = .ok p) ∧ t.canonicalize name = .error .nameTooLong := by
  constructor
  · rintro ⟨⟨p, hp⟩, k, q, s, rest, -, hc, hs, hl⟩
    refine ⟨⟨p, hp⟩, (canonicalize_of_resolve hp).resolve_left fun hname => ?_⟩
    rw [canonicalize, resolveBy_of_resolve hp] at hname
    cases hw : walkBy t.turnByName linkBound [] (Text.splitOn '/' name) with
    | error e =>
      rw [hw] at hname
      cases hname
    | ok r =>
      -- the second walk comes to the same name and stops there
      obtain ⟨fewer, hf⟩ := exists_walk_of_comes hc hw
      rw [walk_cons, turnByName, if_pos ⟨hs, hl⟩] at hf
      cases hf
  · rintro ⟨⟨p, hp⟩, hname⟩
    refine ⟨⟨p, hp⟩, ?_⟩
    have hends := ends_walk t.turnByName linkBound [] (Text.splitOn '/' name)
    rw [canonicalize, resolveBy_of_resolve hp] at hname
    rcases hw : walkBy t.turnByName linkBound [] (Text.splitOn '/' name) with e | r
    · rw [hw] at hname hends
      cases hname
      cases hends with
      | @stuck k q s rest _ hk hc hs =>
        refine ⟨k, q, s, rest, hk, comes_of_turnByName hc, ?_⟩
        -- stuck at a name that is not too long, the first walk would have been stuck, too
        by_contra hshort
        rw [turnByName, if_neg hshort] at hs
        have hwalk : walkBy t.turn linkBound [] (Text.splitOn '/' name) = .ok p :=
          (resolveBy_of_resolve hp).symm.trans hp
        rw [walk_of_comes (comes_of_turnByName hc) hk, walk_cons, hs] at hwalk
        cases hwalk
    · rw [hw] at hname
      cases hname

end Tree

def Found.variants (found : Found) : List Variant :=
  match found.kind with
  | .compressible vs => vs
  | _ => []

@[simp] lemma Found.variants_kindWith_plain (resource : Resource) (vs : List Variant) :
    Found.variants ⟨resource, CompressedLookup.kindWith .plain vs⟩ = vs := by
  cases vs <;> rfl

namespace CompressedLookup

variable {inner : Lookup} {path : Text}

/-- The look-up of the file for a format comes to an end without failing. -/
def Clears (inner : Lookup) (path : Text) (f : Format) : Prop :=
  ∃ found, (inner (path ++ f.extension)).result = .ok found

lemma result_variants_cons {f : Format} (hf : Clears inner path f) (fs : List Format) :
    (variants inner path (f :: fs)).result =
      (variants inner path fs).result.map fun vs => (form? inner path f).toList ++ vs := by
  obtain ⟨found, hf⟩ := hf
  rw [variants, Logged.result_bind_ok hf, Logged.result_bind]
  cases (variants inner path fs).result with
  | error e => rfl
  | ok vs =>
    rcases found with _ | x
    · simp [form?, hf, Except.map, bind, Except.bind]
    · by_cases hd : x.resource.isDirectory = true <;>
        simp [form?, hf, hd, Except.map, bind, Except.bind]

lemma result_variants {fs : List Format} (h : ∀ f ∈ fs, Clears inner path f) :
    (variants inner path fs).result = .ok (fs.filterMap (form? inner path)) := by
  induction fs with
  | nil => rfl
  | cons f fs ih =>
    rw [List.forall_mem_cons] at h
    rw [result_variants_cons h.1, ih h.2, List.filterMap_cons]
    cases form? inner path f <;> rfl

lemma result_variants_of_error {before after : List Format} {f : Format} {e : IoError}
    (h : ∀ g ∈ before, Clears inner path g)
    (hf : (inner (path ++ f.extension)).result = .error e) :
    (variants inner path (before ++ f :: after)).result = .error e := by
  induction before with
  | nil => exact Logged.result_bind_error hf
  | cons g before ih =>
    rw [List.forall_mem_cons] at h
    rw [List.cons_append, result_variants_cons h.1, ih h.2]
    rfl

lemma result_lookup {found : Found} {formats : List Format}
    (hf : (inner path).result = .ok (some found)) (hd : found.resource.isDirectory = false) :
    (lookup inner formats path).result =
      (variants inner path formats).result.map fun vs =>
        some { found with kind := kindWith found.kind vs } := by
  unfold lookup attach
  rw [Logged.result_bind_ok hf]
  simp only [hd, Bool.false_eq_true, if_false]
  rw [Logged.result_bind, Logged.result_bind]
  rcases (variants inner path formats).result with e | _ | ⟨v, vs⟩ <;> rfl

end CompressedLookup

section

variable {t : Tree} {root path : Text} {accepts : Text → Text → Bool}

/-- The name of the file for a format beside the resource at a path is obstructed, or leads where
absolute names are too long. -/
def Tree.Bars (t : Tree) (root path : Text) (f : Format) : Prop :=
  t.Obstructs (FileLookup.nameOf root (path ++ f.extension)) ∨
    t.Outgrows (FileLookup.nameOf root (path ++ f.extension))

namespace FileLookup

/-- A look-up fails just when something obstructs its name, or its name leads where absolute names
are too long. -/
lemma fails_iff :
    (∃ e, (lookup t root accepts path).result = .error e) ↔
      t.Obstructs (nameOf root path) ∨ t.Outgrows (nameOf root path) := by
  rw [Tree.obstructs_iff, Tree.outgrows_iff]
  simp only [← Tree.stat_eq_error_iff]
  rcases hs : t.stat (nameOf root path) with e | ⟨place, x⟩
  · have hnone : ¬ ∃ p, t.resolve (nameOf root path) = .ok p := by
      rw [Tree.stat_eq_error_iff.1 hs]
      simp
    rw [result_lookup_of_error hs]
    cases ha : e.isAbsence <;> simp [ha, hnone]
  · have hr := (Tree.stat_eq_ok_iff.1 hs).1
    unfold lookup
    simp only [show t.stat (PathName.join root _) = _ from hs]
    rcases Tree.canonicalize_of_resolve hr with hc | hc
    · simp only [show t.canonicalize (PathName.join root _) = _ from hc]
      refine iff_of_false ?_ (by simp [hc])
      rintro ⟨e, h⟩
      split at h <;> cases h
    · simp only [show t.canonicalize (PathName.join root _) = _ from hc]
      exact iff_of_true ⟨.nameTooLong, rfl⟩ (Or.inr ⟨⟨place, hr⟩, hc⟩)

lemma kind_of_lookup {found : Found} (h : (lookup t root accepts path).result = .ok (some found)) :
    found.kind = .plain := by
  obtain ⟨place, e, -, -, -, rfl⟩ := exists_of_lookup h
  rfl

lemma clears_of_not_bars {f : Format} (h : ¬ t.Bars root path f) :
    CompressedLookup.Clears (lookup t root accepts) path f := by
  rcases hr : (lookup t root accepts (path ++ f.extension)).result with e | found
  · exact absurd (fails_iff.1 ⟨e, hr⟩) h
  · exact ⟨found, hr⟩

end FileLookup

namespace CompressedLookup

/-- **Only an obstructed sibling breaks its base**: a file that is found is found with the forms
that are beside it, format by format, unless the name for a format is obstructed or leads where
absolute names are too long. Then the look-up fails, in the way in which the look-up for the first
such format fails. -/
theorem lookup_or_fails (formats : List Format) {base : Found}
    (hb : (FileLookup.lookup t root accepts path).result = .ok (some base))
    (hd : base.resource.isDirectory = false) :
    (∀ f ∈ formats, ¬ t.Bars root path f) ∧
        (∃ found, (lookup (FileLookup.lookup t root accepts) formats path).result =
            .ok (some found) ∧ found.resource = base.resource ∧
          found.variants = formats.filterMap (form? (FileLookup.lookup t root accepts) path)) ∨
      ∃ before f after e, formats = before ++ f :: after ∧
        (∀ g ∈ before, ¬ t.Bars root path g) ∧ t.Bars root path f ∧
        (FileLookup.lookup t root accepts (path ++ f.extension)).result = .error e ∧
        (lookup (FileLookup.lookup t root accepts) formats path).result = .error e := by
  classical
  rw [result_lookup hb hd]
  -- the first format that is barred, if there is one, decides
  cases hf : formats.find? fun f => decide (t.Bars root path f) with
  | none =>
    have hclear : ∀ f ∈ formats, ¬ t.Bars root path f := by
      simpa using hf
    rw [result_variants fun f hm => FileLookup.clears_of_not_bars (hclear f hm)]
    refine Or.inl ⟨hclear, _, rfl, rfl, ?_⟩
    rw [FileLookup.kind_of_lookup hb, Found.variants_kindWith_plain]
  | some f =>
    obtain ⟨hbars, before, after, rfl, hbefore⟩ := List.find?_eq_some_iff_append.1 hf
    replace hbefore : ∀ g ∈ before, ¬ t.Bars root path g := by simpa using hbefore
    replace hbars : t.Bars root path f := by simpa using hbars
    obtain ⟨e, he⟩ := FileLookup.fails_iff.2 hbars
    refine Or.inr ⟨before, f, after, e, rfl, hbefore, hbars, he, ?_⟩
    rw [result_variants_of_error (fun g hm => FileLookup.clears_of_not_bars (hbefore g hm)) he]
    rfl

end CompressedLookup

end

namespace Sample

/-- A file beside which a link leads to itself, and a file whose name leaves no room for an
ending. -/
def hemmedTree : Tree :=
  ⟨[(["srv".toList], ⟨.directory, ⟨0⟩⟩),
    (["srv".toList, "a.txt".toList], ⟨.file (Text.utf8 "hello".toList), ⟨0⟩⟩),
    (["srv".toList, "a.txt.gz".toList], ⟨.link "a.txt.gz".toList, ⟨0⟩⟩),
    (["srv".toList, List.replicate 253 'b'], ⟨.file (Text.utf8 "hello".toList), ⟨0⟩⟩)]⟩

def file? (t : Tree) (path : Text) : Except IoError (Option Found) :=
  (FileLookup.lookup t "/srv".toList (FileLookup.contained "/srv".toList) path).result

/-- What is found of it, looked up with the default formats. -/
def compressed? (t : Tree) (path : Text) : Except IoError (Option Found) :=
  (CompressedLookup.lookup
    (FileLookup.lookup t "/srv".toList (FileLookup.contained "/srv".toList)) Format.defaults
    path).result

lemma exists_found {x : Except IoError (Option Found)}
    (h : x.toOption.map (Option.map fun found => found.resource.isDirectory) = some (some false)) :
    ∃ found, x = .ok (some found) ∧ found.resource.isDirectory = false := by
  obtain ⟨o, rfl, ho⟩ := exists_of_toOption h
  obtain ⟨found, rfl, hd⟩ := Option.map_eq_some_iff.1 ho
  exact ⟨found, rfl, hd⟩

end Sample

namespace CompressedLookup

theorem lookup_or_fails_sample :
    ∃ base found, Sample.file? (Sample.tree ⟨0⟩) "/a.txt".toList = .ok (some base) ∧
      Sample.compressed? (Sample.tree ⟨0⟩) "/a.txt".toList = .ok (some found) ∧
      found.resource = base.resource ∧ found.variants.map Variant.format = [Format.gzip] := by
  obtain ⟨base, hb, hd⟩ := Sample.exists_found
    (x := Sample.file? (Sample.tree ⟨0⟩) "/a.txt".toList) (by decide +kernel)
  obtain ⟨other, ho, -⟩ := Sample.exists_found
    (x := Sample.compressed? (Sample.tree ⟨0⟩) "/a.txt".toList) (by decide +kernel)
  obtain ⟨-, found, hf, hr, hv⟩ | ⟨-, -, -, e, -, -, -, -, he⟩ := lookup_or_fails
    Format.defaults hb hd
  · exact ⟨base, found, hb, hf, hr, hv ▸ by decide +kernel⟩
  · rw [show Sample.compressed? _ _ = _ from he] at ho
    cases ho

/-- Files that are found by themselves are not found with their forms: a link beside the one leads
to itself, and no ending can follow the name of the other. -/
theorem sibling_breaks_base :
    (∃ base, Sample.file? Sample.hemmedTree "/a.txt".toList = .ok (some base) ∧
        base.resource.isDirectory = false) ∧
      Sample.compressed? Sample.hemmedTree "/a.txt".toList = .error .tooManyLinks ∧
      (∃ base, Sample.file? Sample.hemmedTree ('/' :: List.replicate 253 'b') = .ok (some base) ∧
        base.resource.isDirectory = false) ∧
      Sample.compressed? Sample.hemmedTree ('/' :: List.replicate 253 'b') =
        .error .nameTooLong :=
  ⟨Sample.exists_found (by decide +kernel), by decide +kernel,
    Sample.exists_found (by decide +kernel), by decide +kernel⟩

end CompressedLookup

end Docroot

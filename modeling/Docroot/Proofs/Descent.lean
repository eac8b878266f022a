import Mathlib.Tactic.Common
import Docroot.Proofs.Canonical
import Docroot.Proofs.Regular

/-!
Walks that go on where others end. A walk along some names and then others passes through the place
where the first names lead, and where a walk ends does not depend on how many links it may meet. So
what a name stands for in a directory is one object, whether the walk comes there through links or
starts from the place where the directory lies.
-/

namespace Docroot

namespace Tree

open Text

variable {t : Tree}

/-! ### A walk after another -/

/-- A walk along more names comes to the end of the first of them, and goes on from there. -/
lemma exists_walkFrom_of_append {follow : Place → List Text → Except IoError Place}
    {rest : List Text} {q : Place} {GoesOn : Place → Prop}
    (hf : ∀ here names, follow here (names ++ rest) = .ok q →
      ∃ p, follow here names = .ok p ∧ GoesOn p)
    (hw : ∀ p, walkFrom t.turn follow p rest = .ok q → GoesOn p) {here : Place} {names : List Text}
    (h : walkFrom t.turn follow here (names ++ rest) = .ok q) :
    ∃ p, walkFrom t.turn follow here names = .ok p ∧ GoesOn p := by
  induction names generalizing here with
  | nil => exact ⟨here, rfl, hw here h⟩
  | cons s names ih =>
    rw [List.cons_append, walkFrom_cons] at h
    rw [walkFrom_cons]
    rcases ht : t.turn here s with e | place | ⟨place, target⟩
    · rw [ht] at h
      cases h
    · rw [ht] at h
      exact ih h
    · simp only [ht, ← List.append_assoc] at h
      exact hf place (target ++ names) h

/-- **A walk goes on where its first part ends**, with the links that are left. -/
theorem exists_walk_of_append (links : Nat) {here q : Place} {names rest : List Text}
    (h : walkBy t.turn links here (names ++ rest) = .ok q) :
    ∃ p, walkBy t.turn links here names = .ok p ∧
      ∃ left ≤ links, walkBy t.turn left p rest = .ok q := by
  induction links generalizing here names with
  | zero =>
    exact exists_walkFrom_of_append (fun _ _ hf => by cases hf)
      (fun p hp => ⟨0, Nat.le_refl 0, hp⟩) h
  | succ links ih =>
    refine exists_walkFrom_of_append (fun here names hf => ?_)
      (fun p hp => ⟨links + 1, Nat.le_refl _, hp⟩) h
    obtain ⟨p, hp, left, hle, hq⟩ := ih hf
    exact ⟨p, hp, left, Nat.le_succ_of_le hle, hq⟩

lemma walkFrom_mono {follow follow' : Place → List Text → Except IoError Place}
    (hf : ∀ here names p, follow here names = .ok p → follow' here names = .ok p) {here p : Place}
    {names : List Text} (h : walkFrom t.turn follow here names = .ok p) :
    walkFrom t.turn follow' here names = .ok p := by
  induction names generalizing here with
  | nil => exact h
  | cons s names ih =>
    rw [walkFrom_cons] at h ⊢
    rcases ht : t.turn here s with e | place | ⟨place, target⟩
    · rw [ht] at h
      cases h
    · rw [ht] at h
      exact ih h
    · rw [ht] at h
      exact hf _ _ _ h

lemma walk_succ {links : Nat} {here p : Place} {names : List Text}
    (h : walkBy t.turn links here names = .ok p) :
    walkBy t.turn (links + 1) here names = .ok p := by
  induction links generalizing here names p with
  | zero => exact walkFrom_mono (fun _ _ _ hf => by cases hf) h
  | succ links ih => exact walkFrom_mono (fun _ _ _ hf => ih hf) h

lemma walk_mono {links links' : Nat} (hle : links ≤ links') {here p : Place} {names : List Text}
    (h : walkBy t.turn links here names = .ok p) : walkBy t.turn links' here names = .ok p := by
  induction hle with
  | refl => exact h
  | step _ ih => exact walk_succ ih

/-- Where a walk ends does not depend on how many links it may meet. -/
lemma walk_unique {links links' : Nat} {here p q : Place} {names : List Text}
    (hp : walkBy t.turn links here names = .ok p)
    (hq : walkBy t.turn links' here names = .ok q) : p = q := by
  have h1 := walk_mono (Nat.le_max_left links links') hp
  have h2 := walk_mono (Nat.le_max_right links links') hq
  exact Except.ok.inj (h1.symm.trans h2)

lemma walk_empty_name {links : Nat} {here p : Place} (h : walkBy t.turn links here [[]] = .ok p) :
    p = here ∧ ∃ folder, t.folder? here = some folder := by
  have hw : ∀ follow, walkFrom t.turn follow here [[]] = .ok p →
      p = here ∧ ∃ folder, t.folder? here = some folder := by
    intro follow h
    rw [walkFrom_cons] at h
    cases hf : t.folder? here with
    | some folder =>
      rw [turn_nil hf] at h
      cases h
      exact ⟨rfl, folder, rfl⟩
    | none =>
      simp only [turn, hf] at h
      cases h
  cases links with
  | zero => exact hw _ h
  | succ links => exact hw _ h

end Tree

/-! ### The names of a path name -/

namespace Text

lemma splitOn_append_sep {sep : Char} (a b : Text) :
    splitOn sep (a ++ sep :: b) = splitOn sep a ++ splitOn sep b := by
  induction a with
  | nil => simp [splitOn]
  | cons c a ih =>
    rw [List.cons_append, splitOn, splitOn, ih]
    split
    · rfl
    · rcases hs : splitOn sep a with _ | ⟨piece, pieces⟩
      · exact absurd hs (splitOn_ne_nil sep a)
      · rfl

end Text

namespace PathName

open Text RequestPath

/-- What is walked for a path below a root: the names of the root, then the segments. -/
lemma exists_splitOn_join (root : Text) : ∃ top : List Text, ∀ segments : List Text,
    (∀ s ∈ segments, Plain s) →
      splitOn '/' (join root (joinWith ['/'] segments)) =
        top ++ if segments = [] then [[]] else segments := by
  have hsplit : ∀ segments : List Text, (∀ s ∈ segments, Plain s) →
      splitOn '/' (joinWith ['/'] segments) = if segments = [] then [[]] else segments := by
    intro segments h
    by_cases hs : segments = []
    · subst hs
      rfl
    · rw [if_neg hs, splitOn_joinWith hs fun s hm => (h s hm).noSlash]
  have hrel : ∀ segments : List Text, (∀ s ∈ segments, Plain s) →
      isAbsolute (joinWith ['/'] segments) = false := by
    intro segments h
    rcases segments with _ | ⟨s, r⟩
    · rfl
    · obtain ⟨c, x, hx, hc⟩ := exists_head_joinWith (r := r) (h s List.mem_cons_self)
      simp [isAbsolute, hx, hc]
  unfold join
  -- a root with a slash at its end gets no second one
  by_cases hroot : (root.isEmpty || root.getLast? == some '/') = true
  · rcases List.eq_nil_or_concat root with rfl | ⟨upper, c, rfl⟩
    · refine ⟨[], fun segments h => ?_⟩
      rw [hrel segments h]
      exact hsplit segments h
    · obtain rfl : c = '/' := by simpa using hroot
      refine ⟨splitOn '/' upper, fun segments h => ?_⟩
      rw [hrel segments h, if_pos hroot]
      simp only [Bool.false_eq_true, if_false, List.concat_eq_append, List.append_assoc,
        List.singleton_append]
      rw [splitOn_append_sep, hsplit segments h]
  · refine ⟨splitOn '/' root, fun segments h => ?_⟩
    rw [hrel segments h, if_neg hroot]
    simp only [Bool.false_eq_true, if_false]
    rw [splitOn_append_sep, hsplit segments h]

lemma splitOn_join_name {p : Place} (hp : p.Named) {name : Text} (hn : '/' ∉ name) :
    splitOn '/' (join p.name name) = [] :: p ++ [name] := by
  have hrel : isAbsolute name = false := by
    rcases name with _ | ⟨c, r⟩
    · rfl
    · simp only [isAbsolute, List.head?_cons]
      simpa using fun he : c = '/' => hn (he ▸ List.mem_cons_self)
  by_cases hnil : p = []
  · subst hnil
    have hj : join (Place.name []) name = '/' :: name := by simp [join, hrel, Place.name, joinWith]
    rw [hj, splitOn, if_pos rfl, splitOn_of_not_mem hn]
    rfl
  · have hlast : (p.name.isEmpty || p.name.getLast? == some '/') = false := by
      obtain ⟨init, last, rfl⟩ := (List.eq_nil_or_concat p).resolve_left hnil
      obtain ⟨hne, -, hslash⟩ := hp last (by simp)
      obtain ⟨x, c, rfl⟩ := (List.eq_nil_or_concat last).resolve_left hne
      have hc : c ≠ '/' := fun he => hslash (by simp [he])
      have hname : (init.concat (x.concat c)).flatMap ('/' :: ·) =
          (init.flatMap ('/' :: ·) ++ '/' :: x) ++ [c] := by simp
      rw [Place.name, cons_joinWith hnil, hname, List.getLast?_concat]
      simp [hc]
    have hj : join p.name name = p.name ++ '/' :: name := by
      simp only [join, hrel, hlast, Bool.false_eq_true, if_false]
    rw [hj, splitOn_append_sep, Place.splitOn_name hp, if_neg hnil, splitOn_of_not_mem hn]

end PathName

namespace Tree

open Text RequestPath

variable {t : Tree}

/-! ### What is found in a directory -/

/-- **One object for one name**: what a name stands for in the directory that a path leads to is
what the path with this name at its end leads to, if it leads anywhere. -/
theorem place_unique {root : Text} {segments : List Text} (hs : ∀ s ∈ segments, Plain s)
    {name : Text} (hn : Plain name) {d p q : Place} {e e' e'' : TreeEntry}
    (hd : t.stat (PathName.join root (joinWith ['/'] segments)) = .ok (d, e))
    (hp : t.stat (PathName.join d.name name) = .ok (p, e'))
    (hq : t.stat (PathName.join root (joinWith ['/'] (segments ++ [name]))) = .ok (q, e'')) :
    p = q := by
  obtain ⟨top, htop⟩ := PathName.exists_splitOn_join root
  have hsettled := settled_stat hd
  -- the walk to the directory
  obtain ⟨-, hwd⟩ := walk_of_resolve (stat_eq_ok_iff.1 hd).1
  rw [htop segments hs] at hwd
  -- the walk along the whole path comes through the directory
  obtain ⟨-, hwq⟩ := walk_of_resolve (stat_eq_ok_iff.1 hq).1
  have hsn : ∀ s ∈ segments ++ [name], Plain s := by
    intro s hm
    rcases List.mem_append.1 hm with hm | hm
    · exact hs s hm
    · exact List.mem_singleton.1 hm ▸ hn
  rw [htop _ hsn, if_neg (by simp), ← List.append_assoc] at hwq
  obtain ⟨d', hd', left, -, hlast⟩ := exists_walk_of_append linkBound hwq
  have hdd : d' = d := by
    by_cases hnil : segments = []
    · subst hnil
      rw [if_pos rfl] at hwd
      obtain ⟨d'', htop', left', -, hempty⟩ := exists_walk_of_append linkBound hwd
      rw [List.append_nil] at hd'
      rw [(walk_empty_name hempty).1]
      exact walk_unique hd' htop'
    · rw [if_neg hnil] at hwd
      exact walk_unique hd' hwd
  -- the walk from the top to the name in the directory comes through the directory too
  obtain ⟨-, hwp⟩ := walk_of_resolve (stat_eq_ok_iff.1 hp).1
  rw [PathName.splitOn_join_name (Place.named_of_settled hsettled) hn.noSlash] at hwp
  obtain ⟨d'', hd'', left', -, hlast'⟩ := exists_walk_of_append linkBound hwp
  obtain rfl := walk_unique hd'' (walk_of_settled linkBound hsettled)
  subst hdd
  exact walk_unique hlast' hlast

lemma plain_of_file {d p : Place} {name : Text} (hd : t.Settled d) (hn : PathName.Single name)
    {data : Bytes} {modified : Timestamp}
    (h : t.stat (PathName.join d.name name) = .ok (p, ⟨.file data, modified⟩)) : Plain name := by
  obtain ⟨hr, hf⟩ := stat_eq_ok_iff.1 h
  obtain ⟨hz, hw⟩ := walk_of_resolve hr
  refine ⟨hn, ?_, fun hzero => hz ?_⟩
  · -- the empty name stands for the directory itself
    rintro rfl
    rw [PathName.splitOn_join_name (Place.named_of_settled hd) List.not_mem_nil] at hw
    obtain ⟨d', hd', left, -, hempty⟩ := exists_walk_of_append linkBound hw
    obtain ⟨rfl, folder, hfolder⟩ := walk_empty_name hempty
    unfold folder? at hfolder
    rw [hf] at hfolder
    cases hfolder
  · unfold PathName.join
    split
    · exact hzero
    · split <;> simp [hzero]

end Tree

end Docroot

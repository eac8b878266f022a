import Mathlib.Tactic.Common
import Docroot.Tree.Walk

/-!
Places without links on the way. Whatever links a walk follows, the place where it ends is reached
from the top through directories alone, so its absolute name leads back to it, and one such name
lies below another just when the one place lies below the other, name by name.
-/

namespace Docroot

namespace Tree

lemma mem_entries_of_find? {t : Tree} {p : Place} {e : TreeEntry} (h : t.find? p = some e) :
    e = ⟨.directory, ⟨0⟩⟩ ∨ (p, e) ∈ t.entries := by
  unfold find? at h
  split at h
  · exact Or.inl (Option.some.inj h).symm
  · obtain ⟨before, after, hs, -⟩ := List.lookup_eq_some_iff.1 h
    exact Or.inr (by simp [hs])

/-- From the directory at `q` there is a step to the object named `s` in it, which is no link. -/
structure Steps (t : Tree) (q : Place) (s : Text) : Prop where
  folder : ∃ folder, t.folder? q = some folder ∧ folder.searchable = true
  named : s ≠ [] ∧ s ≠ ['.'] ∧ s ≠ ['.', '.'] ∧ '/' ∉ s
  short : (Text.utf8 s).length ≤ nameBound
  noZero : '\x00' ∉ s
  there : ∃ e, t.find? (q ++ [s]) = some e ∧ ∀ target, e.node ≠ .link target

/-- The place is reached from the top step by step. -/
def Settled (t : Tree) (p : Place) : Prop := ∀ q s, q ++ [s] <+: p → t.Steps q s

variable {t : Tree} {p q : Place}

lemma settled_nil : t.Settled [] := by
  intro q s h
  exact absurd (List.prefix_nil.1 h) (by simp)

lemma Settled.of_prefix (h : t.Settled p) (hq : q <+: p) : t.Settled q :=
  fun x s hx => h x s (hx.trans hq)

lemma Settled.snoc (h : t.Settled p) {s : Text} (hs : t.Steps p s) : t.Settled (p ++ [s]) := by
  intro q x hx
  rcases List.prefix_concat_iff.1 hx with he | hp
  · obtain ⟨rfl, hxs⟩ := List.append_inj' he rfl
    cases hxs
    exact hs
  · exact h q x hp

/-! ### One name after another -/

lemma turn_nil {here : Place} {folder : Folder} (hf : t.folder? here = some folder) :
    t.turn here [] = .ok (.to here) := by
  simp only [turn, hf, if_true]

lemma turn_of_steps {here : Place} {s : Text} (h : t.Steps here s) :
    t.turn here s = .ok (.to (here ++ [s])) := by
  obtain ⟨⟨folder, hf, hx⟩, ⟨h1, h2, h3, -⟩, hl, hz, e, he, hnode⟩ := h
  have hzero : s.contains '\x00' = false := by simpa using hz
  simp only [turn, hf, hx, Bool.not_true, Bool.false_eq_true, if_false, if_neg h1, if_neg h2,
    if_neg h3, if_neg (Nat.not_lt.2 hl), hzero, he]
  obtain ⟨node, modified⟩ := e
  cases node with
  | file data => rfl
  | directory folder => rfl
  | link target => exact absurd rfl (hnode target)

/-- Where one name may lead from `here`: to the place itself, to the one above, or to an object in
it; or along the names of a link, from here or from the top. -/
inductive Turns (t : Tree) (here : Place) (s : Text) : Turn → Prop
  | stay : Turns t here s (.to here)
  | up : Turns t here s (.to here.dropLast)
  | down (h : t.Steps here s) : Turns t here s (.to (here ++ [s]))
  | link {place : Place} {names : List Text} (hp : place = [] ∨ place = here)
      (hn : ∀ name ∈ names, '/' ∉ name) : Turns t here s (.link place names)

lemma turns_of_turn {here : Place} {s : Text} {x : Turn} (hs : '/' ∉ s)
    (h : t.turn here s = .ok x) : t.Turns here s x := by
  unfold turn at h
  cases hf : t.folder? here with
  | none =>
    rw [hf] at h
    cases h
  | some folder =>
    simp only [hf] at h
    -- one case for each way on: the empty name, the dot, two dots, a link, a name
    split_ifs at h with h1 hx h2 h3 hl hz
    · cases h
      exact .stay
    · cases h
      exact .stay
    · cases h
      exact .up
    · split at h
      · cases h
      · cases h
      · cases h
        refine .link ?_ fun name hn => Text.not_mem_of_mem_splitOn hn
        split
        · exact Or.inl rfl
        · exact Or.inr rfl
      · next e hnil hlink he =>
        cases h
        refine .down ⟨⟨folder, hf, by simpa using hx⟩, ⟨h1, h2, h3, hs⟩, Nat.not_lt.1 hl,
          by simpa using hz, e, he, ?_⟩
        rintro target hnode
        obtain ⟨node, modified⟩ := e
        obtain rfl : node = .link target := hnode
        exact hlink target modified rfl

/-- The walk goes on from a place where `Q` holds, and with names. -/
def Turn.Within (Q : Place → Prop) : Turn → Prop
  | .to place => Q place
  | .link place names => Q place ∧ ∀ name ∈ names, '/' ∉ name

/-- A name leads from a settled place to a settled place, and the names of a link are names. -/
lemma settled_of_turn {here : Place} {s : Text} {x : Turn} (hh : t.Settled here) (hs : '/' ∉ s)
    (h : t.turn here s = .ok x) : x.Within t.Settled := by
  cases turns_of_turn hs h with
  | stay => exact hh
  | up => exact hh.of_prefix (List.dropLast_prefix here)
  | down hd => exact hh.snoc hd
  | link hp hn =>
    refine ⟨?_, hn⟩
    rcases hp with rfl | rfl
    · exact settled_nil
    · exact hh

section

variable {turn : Place → Text → Except IoError Turn}

lemma walkFrom_cons (follow : Place → List Text → Except IoError Place) (here : Place) (s : Text)
    (rest : List Text) :
    walkFrom turn follow here (s :: rest) =
      match turn here s with
      | .error e => .error e
      | .ok (.to place) => walkFrom turn follow place rest
      | .ok (.link place names) => follow place (names ++ rest) := rfl

/-- `Q` holds wherever a name leads from a place where it holds. -/
def Keeps (turn : Place → Text → Except IoError Turn) (Q : Place → Prop) : Prop :=
  ∀ {here s x}, Q here → '/' ∉ s → turn here s = .ok x → x.Within Q

lemma keeps_walkFrom {Q : Place → Prop} (hturn : Keeps turn Q)
    {follow : Place → List Text → Except IoError Place}
    (hf : ∀ {here names p}, Q here → (∀ s ∈ names, '/' ∉ s) → follow here names = .ok p → Q p)
    {here : Place} {names : List Text} (hh : Q here) (hn : ∀ s ∈ names, '/' ∉ s)
    (h : walkFrom turn follow here names = .ok p) : Q p := by
  induction names generalizing here with
  | nil =>
    cases h
    exact hh
  | cons s rest ih =>
    rw [List.forall_mem_cons] at hn
    rw [walkFrom_cons] at h
    rcases ht : turn here s with e | place | ⟨place, names⟩
    · rw [ht] at h
      cases h
    · rw [ht] at h
      exact ih (hturn hh hn.1 ht) hn.2 h
    · -- a link: the walk goes on from where it leads, with the names in its target
      rw [ht] at h
      obtain ⟨hplace, hnames⟩ := hturn hh hn.1 ht
      exact hf hplace (List.forall_mem_append.2 ⟨hnames, hn.2⟩) h

/-- What every name keeps, a walk keeps, whatever links it follows. -/
lemma keeps_walkBy {Q : Place → Prop} (hturn : Keeps turn Q) (links : Nat) {here : Place}
    {names : List Text} (hh : Q here) (hn : ∀ s ∈ names, '/' ∉ s)
    (h : walkBy turn links here names = .ok p) : Q p := by
  induction links generalizing here names p with
  | zero => exact keeps_walkFrom hturn (fun _ _ h => by cases h) hh hn h
  | succ links ih => exact keeps_walkFrom hturn (fun hh hn h => ih hh hn h) hh hn h

lemma walkBy_of_resolveBy {path : Text} (h : resolveBy turn path = .ok p) :
    '\x00' ∉ path ∧ walkBy turn linkBound [] (Text.splitOn '/' path) = .ok p := by
  unfold resolveBy at h
  split at h
  · cases h
  · next hz =>
    split at h
    · cases h
    · split at h
      · cases h
      · exact ⟨by simpa using hz, h⟩

end

lemma walk_of_resolve {path : Text} (h : t.resolve path = .ok p) :
    '\x00' ∉ path ∧ walkBy t.turn linkBound [] (Text.splitOn '/' path) = .ok p :=
  walkBy_of_resolveBy h

/-- **What a path name stands for is settled**, whatever links lead there. -/
theorem settled_resolve {path : Text} (h : t.resolve path = .ok p) : t.Settled p :=
  keeps_walkBy settled_of_turn linkBound settled_nil (fun _ hs => Text.not_mem_of_mem_splitOn hs)
    (walk_of_resolve h).2

lemma stat_eq_ok_iff {path : Text} {e : TreeEntry} :
    t.stat path = .ok (p, e) ↔ t.resolve path = .ok p ∧ t.find? p = some e := by
  unfold stat
  cases t.resolve path with
  | error e => simp
  | ok q =>
    simp only [Except.ok.injEq]
    constructor
    · intro h
      split at h
      · next x hx =>
        cases h
        exact ⟨rfl, hx⟩
      · cases h
    · rintro ⟨rfl, h⟩
      rw [h]

lemma settled_stat {path : Text} {e : TreeEntry} (h : t.stat path = .ok (p, e)) : t.Settled p :=
  settled_resolve (stat_eq_ok_iff.1 h).1

/-- The walk to a settled place meets no link. -/
lemma walkFrom_of_settled (follow : Place → List Text → Except IoError Place) {here : Place}
    {names : List Text} (h : t.Settled (here ++ names)) :
    walkFrom t.turn follow here names = .ok (here ++ names) := by
  induction names generalizing here with
  | nil => rw [List.append_nil]; rfl
  | cons s rest ih =>
    have hsteps := h here s ⟨rest, by simp⟩
    have hrest : here ++ s :: rest = here ++ [s] ++ rest := by simp
    rw [hrest] at h ⊢
    rw [walkFrom_cons, turn_of_steps hsteps]
    exact ih h

lemma walk_of_settled (links : Nat) {p : Place} (hp : t.Settled p) :
    walkBy t.turn links [] ([] :: p) = .ok p := by
  have hw : ∀ follow, walkFrom t.turn follow [] ([] :: p) = .ok p := by
    intro follow
    rw [walkFrom_cons, turn_nil rfl]
    exact walkFrom_of_settled follow hp
  cases links with
  | zero => exact hw _
  | succ links => exact hw _

end Tree

namespace Place

/-- The names can stand in an absolute name. -/
def Named (p : Place) : Prop := ∀ s ∈ p, s ≠ [] ∧ s ≠ ['.'] ∧ '/' ∉ s

lemma named_of_settled {t : Tree} {p : Place} (h : t.Settled p) : p.Named := by
  intro s hs
  obtain ⟨before, after, rfl⟩ := List.append_of_mem hs
  obtain ⟨h1, h2, -, h4⟩ := (h before s ⟨after, by simp⟩).named
  exact ⟨h1, h2, h4⟩

lemma splitOn_name {p : Place} (h : p.Named) :
    Text.splitOn '/' p.name = [] :: if p = [] then [[]] else p := by
  unfold name
  rw [Text.splitOn, if_pos rfl]
  split
  · next hp =>
    subst hp
    rfl
  · next hp => rw [Text.splitOn_joinWith hp fun s hs => (h s hs).2.2]

lemma components_name {p : Place} (h : p.Named) : PathName.components p.name = ['/'] :: p := by
  unfold PathName.components
  rw [splitOn_name h]
  by_cases hp : p = []
  · subst hp
    rfl
  · have hf : p.filter (fun s => !(s.isEmpty || s == ['.'])) = p := by
      rw [List.filter_eq_self]
      intro s hs
      obtain ⟨h1, h2, -⟩ := h s hs
      simp [h1, h2]
    simp only [hp, if_false, hf, List.isEmpty_nil, if_true]
    rw [if_neg (by simpa using hp)]

lemma name_eq_flatMap {p : Place} (h : p ≠ []) : p.name = p.flatMap ('/' :: ·) :=
  Text.cons_joinWith h

/-- The absolute name is not too long for a path name. -/
def Short (p : Place) : Prop := (Text.utf8 p.name).length < Tree.pathBound

lemma short_nil : Short [] := by
  unfold Short
  decide

lemma Short.dropLast {p : Place} (h : p.Short) : Short p.dropLast := by
  rcases List.eq_nil_or_concat p with rfl | ⟨q, s, rfl⟩
  · exact h
  · rw [List.concat_eq_append] at h ⊢
    rw [List.dropLast_concat]
    by_cases hq : q = []
    · subst hq
      exact short_nil
    · unfold Short at h ⊢
      rw [name_eq_flatMap (by simp), List.flatMap_append, Text.utf8_append,
        List.length_append] at h
      rw [name_eq_flatMap hq]
      exact Nat.lt_of_le_of_lt (Nat.le_add_right _ _) h

/-- One name lies below another just when the one place lies below the other. -/
lemma within_name_iff {p q : Place} (hp : p.Named) (hq : q.Named) :
    PathName.within p.name q.name = true ↔ p <+: q := by
  unfold PathName.within
  rw [components_name hp, components_name hq, List.isPrefixOf_iff_prefix]
  simp [List.cons_prefix_cons]

end Place

namespace Tree

variable {t : Tree} {p q : Place}

lemma walk_name (hp : t.Settled p) :
    walkBy t.turn linkBound [] (Text.splitOn '/' p.name) = .ok p := by
  rw [Place.splitOn_name (Place.named_of_settled hp)]
  split
  · next hn =>
    subst hn
    rfl
  · exact walk_of_settled linkBound hp

lemma zero_not_mem_name (hp : t.Settled p) : '\x00' ∉ p.name := by
  have hnames : ∀ s ∈ p, '\x00' ∉ s := by
    intro s hs
    obtain ⟨before, after, rfl⟩ := List.append_of_mem hs
    exact (hp before s ⟨after, by simp⟩).noZero
  by_cases hn : p = []
  · subst hn
    decide
  · rw [Place.name_eq_flatMap hn]
    intro h
    obtain ⟨s, hs, hz⟩ := List.mem_flatMap.1 h
    exact hnames s hs ((List.mem_cons.1 hz).resolve_left (by decide))

/-- **The absolute name of a settled place leads back to it**, unless it is too long. -/
theorem resolve_name (hp : t.Settled p) (hs : p.Short) : t.resolve p.name = .ok p := by
  have hzero : p.name.contains '\x00' = false := by simpa using zero_not_mem_name hp
  unfold resolve resolveBy
  rw [hzero, if_neg (by simp), if_neg (by simp [Place.name]), if_neg (Nat.not_le.2 hs)]
  exact walk_name hp

lemma list_name {path : Text} {folder : Folder} {modified : Timestamp}
    (h : t.stat path = .ok (p, ⟨.directory folder, modified⟩)) (hs : p.Short) :
    t.list p.name =
      if folder.readable then .ok (t.seen folder p) else .error .permissionDenied := by
  have hstat : t.stat p.name = .ok (p, ⟨.directory folder, modified⟩) :=
    stat_eq_ok_iff.2 ⟨resolve_name (settled_stat h) hs, (stat_eq_ok_iff.1 h).2⟩
  rw [list, hstat]

/-! ### The walk by absolute names -/

lemma turn_of_turnByName {here : Place} {s : Text} {x : Turn} (h : t.turnByName here s = .ok x) :
    t.turn here s = .ok x ∧ (s ∈ [[], ['.'], ['.', '.']] ∨ Place.Short (here ++ [s])) := by
  unfold turnByName at h
  split at h
  · cases h
  · next hn =>
    refine ⟨h, ?_⟩
    rwa [not_and_or, not_not, Nat.not_le] at hn

/-- On the walk by absolute names all places have names that are not too long. -/
lemma keeps_turnByName : Keeps t.turnByName fun p => t.Settled p ∧ p.Short := by
  rintro here s x ⟨hh, hhere⟩ hs h
  obtain ⟨hturn, hshort⟩ := turn_of_turnByName h
  cases turns_of_turn hs hturn with
  | stay => exact ⟨hh, hhere⟩
  | up =>
    have habove : t.Settled here.dropLast := hh.of_prefix (List.dropLast_prefix here)
    exact ⟨habove, hhere.dropLast⟩
  | down hd =>
    obtain ⟨h1, h2, h3, -⟩ := hd.named
    exact ⟨hh.snoc hd, hshort.resolve_left (by simp [h1, h2, h3])⟩
  | link hp hn =>
    refine ⟨?_, hn⟩
    rcases hp with rfl | rfl
    · exact ⟨settled_nil, Place.short_nil⟩
    · exact ⟨hh, hhere⟩

lemma turnByName_eq_or (t : Tree) (here : Place) (s : Text) :
    t.turnByName here s = t.turn here s ∨ t.turnByName here s = .error .nameTooLong := by
  unfold turnByName
  split
  · exact Or.inr rfl
  · exact Or.inl rfl

/-- The walk by absolute names ends as the other one does, or for a name that is too long. -/
lemma walkFrom_turnByName {follow follow' : Place → List Text → Except IoError Place}
    (hf : ∀ here names, follow' here names = follow here names ∨
      follow' here names = .error .nameTooLong) (here : Place) (names : List Text) :
    walkFrom t.turnByName follow' here names = walkFrom t.turn follow here names ∨
      walkFrom t.turnByName follow' here names = .error .nameTooLong := by
  induction names generalizing here with
  | nil => exact Or.inl rfl
  | cons s rest ih =>
    rw [walkFrom_cons, walkFrom_cons]
    rcases t.turnByName_eq_or here s with hs | hs
    · rw [hs]
      rcases t.turn here s with e | place | ⟨place, names⟩
      · exact Or.inl rfl
      · exact ih place
      · exact hf place (names ++ rest)
    · rw [hs]
      exact Or.inr rfl

lemma walkBy_turnByName (links : Nat) (here : Place) (names : List Text) :
    walkBy t.turnByName links here names = walkBy t.turn links here names ∨
      walkBy t.turnByName links here names = .error .nameTooLong := by
  induction links generalizing here names with
  | zero => exact walkFrom_turnByName (fun _ _ => Or.inl rfl) here names
  | succ links ih => exact walkFrom_turnByName ih here names

lemma resolveBy_turnByName (path : Text) :
    resolveBy t.turnByName path = t.resolve path ∨
      resolveBy t.turnByName path = .error .nameTooLong := by
  unfold resolve resolveBy
  split_ifs
  · exact Or.inl rfl
  · exact Or.inl rfl
  · exact Or.inl rfl
  · exact walkBy_turnByName linkBound [] _

/-- **An absolute name that is found** is that of the place that the path name stands for, and not
too long for a path name itself. -/
theorem resolve_of_canonicalize {path location : Text} (h : t.canonicalize path = .ok location) :
    ∃ p, t.resolve path = .ok p ∧ location = p.name ∧ p.Short := by
  unfold canonicalize at h
  rcases hr : resolveBy t.turnByName path with e | p
  · rw [hr] at h
    cases h
  · have hshort := keeps_walkBy keeps_turnByName linkBound ⟨settled_nil, Place.short_nil⟩
      (fun _ hs => Text.not_mem_of_mem_splitOn hs) (walkBy_of_resolveBy hr).2
    rw [hr] at h
    cases h
    rcases resolveBy_turnByName path with he | he
    · exact ⟨p, he.symm.trans hr, rfl, hshort.2⟩
    · rw [hr] at he
      cases he

lemma canonicalize_of_resolve {path : Text} (h : t.resolve path = .ok p) :
    t.canonicalize path = .ok p.name ∨ t.canonicalize path = .error .nameTooLong := by
  unfold canonicalize
  rcases resolveBy_turnByName path with he | he
  · exact Or.inl (by rw [he, h]; rfl)
  · exact Or.inr (by rw [he]; rfl)

end Tree

end Docroot

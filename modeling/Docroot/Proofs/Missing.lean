import Mathlib.Tactic.Common
import Docroot.Proofs.Answer
import Docroot.Proofs.Canonical
import Docroot.Proofs.Memory
import Docroot.Proofs.Regular

/-!
Names that lead nowhere. A walk is followed one name after another with the links that it meets, so
a name leads to an object or it does not, however many links there are. A name that leads to none is
answered as a missing one, unless something about it stops the walk before that is known: then the
request fails.
-/

namespace Docroot

namespace Tree

open Text

variable {t : Tree}

/-! ### Where a walk comes -/

section

variable {turn : Place → Text → Except IoError Turn}

/-- From a place and the names to be walked there, a walk comes through so many links to a place and
the names that are still left. -/
inductive Comes (turn : Place → Text → Except IoError Turn) :
    Nat → Place → List Text → Place → List Text → Prop
  | here (p : Place) (names : List Text) : Comes turn 0 p names p names
  | step {links : Nat} {p place q : Place} {s : Text} {rest left : List Text}
      (hs : turn p s = .ok (.to place)) (h : Comes turn links place rest q left) :
      Comes turn links p (s :: rest) q left
  | link {links : Nat} {p place q : Place} {s : Text} {names rest left : List Text}
      (hs : turn p s = .ok (.link place names))
      (h : Comes turn links place (names ++ rest) q left) :
      Comes turn (links + 1) p (s :: rest) q left

lemma walk_nil (links : Nat) (p : Place) : walkBy turn links p [] = .ok p := by
  cases links <;> rfl

lemma walk_cons (links : Nat) (p : Place) (s : Text) (rest : List Text) :
    walkBy turn links p (s :: rest) =
      match turn p s with
      | .error e => .error e
      | .ok (.to place) => walkBy turn links place rest
      | .ok (.link place names) =>
        match links with
        | 0 => .error .tooManyLinks
        | left + 1 => walkBy turn left place (names ++ rest) := by
  cases links <;> exact walkFrom_cons _ p s rest

lemma walk_of_comes {k links : Nat} {p q : Place} {names left : List Text}
    (h : Comes turn k p names q left) (hk : k ≤ links) :
    walkBy turn links p names = walkBy turn (links - k) q left := by
  induction h generalizing links with
  | here p names => rfl
  | step hs _ ih => rw [walk_cons, hs]; exact ih hk
  | link hs _ ih =>
    rw [walk_cons, hs]
    cases links with
    | zero => exact absurd hk (Nat.not_succ_le_zero _)
    | succ links =>
      rw [Nat.add_sub_add_right]
      exact ih (Nat.le_of_succ_le_succ hk)

lemma walk_of_comes_of_lt {k links : Nat} {p q : Place} {names left : List Text}
    (h : Comes turn k p names q left) (hk : links < k) :
    walkBy turn links p names = .error .tooManyLinks := by
  induction h generalizing links with
  | here p names => exact absurd hk (Nat.not_lt_zero _)
  | step hs _ ih => rw [walk_cons, hs]; exact ih hk
  | link hs _ ih =>
    rw [walk_cons, hs]
    cases links with
    | zero => rfl
    | succ links => exact ih (Nat.lt_of_succ_lt_succ hk)

/-- How a walk that may meet so many links ends. -/
inductive Ends (turn : Place → Text → Except IoError Turn) (links : Nat) (p : Place)
    (names : List Text) : Except IoError Place → Prop
  | there {k : Nat} {q : Place} (hk : k ≤ links) (h : Comes turn k p names q []) :
      Ends turn links p names (.ok q)
  | stuck {k : Nat} {q : Place} {s : Text} {rest : List Text} {e : IoError} (hk : k ≤ links)
      (h : Comes turn k p names q (s :: rest)) (hs : turn q s = .error e) :
      Ends turn links p names (.error e)
  | givenUp {q : Place} {left : List Text} (h : Comes turn (links + 1) p names q left) :
      Ends turn links p names (.error .tooManyLinks)

lemma Ends.step {links : Nat} {p place : Place} {s : Text} {rest : List Text}
    {x : Except IoError Place} (hs : turn p s = .ok (.to place))
    (h : Ends turn links place rest x) : Ends turn links p (s :: rest) x := by
  cases h with
  | there hk h => exact .there hk (.step hs h)
  | stuck hk h he => exact .stuck hk (.step hs h) he
  | givenUp h => exact .givenUp (.step hs h)

lemma Ends.link {links : Nat} {p place : Place} {s : Text} {names rest : List Text}
    {x : Except IoError Place} (hs : turn p s = .ok (.link place names))
    (h : Ends turn links place (names ++ rest) x) : Ends turn (links + 1) p (s :: rest) x := by
  cases h with
  | there hk h => exact .there (Nat.succ_le_succ hk) (.link hs h)
  | stuck hk h he => exact .stuck (Nat.succ_le_succ hk) (.link hs h) he
  | givenUp h => exact .givenUp (.link hs h)

variable (turn) in
/-- **Every walk ends in one of these ways.** -/
theorem ends_walk (links : Nat) (p : Place) (names : List Text) :
    Ends turn links p names (walkBy turn links p names) := by
  induction links using Nat.strongRecOn generalizing p names with
  | ind links fewer =>
    induction names generalizing p with
    | nil =>
      rw [walk_nil]
      exact .there (Nat.zero_le _) (.here p [])
    | cons s rest ih =>
      rw [walk_cons]
      rcases hs : turn p s with e | place | ⟨place, target⟩
      · exact .stuck (Nat.zero_le _) (.here p _) hs
      · exact (ih place).step hs
      · cases links with
        | zero => exact .givenUp (.link hs (.here _ _))
        | succ links => exact (fewer links (Nat.lt_succ_self _) place (target ++ rest)).link hs

end

/-- A name cannot be looked up in the directory at a place: the directory may not be searched, or
the name is too long. -/
def Refuses (t : Tree) (p : Place) (s : Text) : Prop :=
  ∃ folder, t.folder? p = some folder ∧ s ≠ [] ∧
    (folder.searchable = false ∨ nameBound < (utf8 s).length)

/-- A name that stops a walk is known to be missing, unless it cannot be looked up. -/
lemma refuses_iff {p : Place} {s : Text} :
    t.Refuses p s ↔ ∃ e, t.turn p s = .error e ∧ e.isAbsence = false := by
  have hdots : nameBound < (utf8 s).length → s ≠ ['.'] ∧ s ≠ ['.', '.'] := by
    intro hs
    constructor <;> rintro rfl <;> exact absurd hs (by decide)
  unfold Refuses turn
  cases hf : t.folder? p with
  | none => simp [IoError.isAbsence]
  | some folder =>
    simp only [Option.some.injEq, exists_eq_left']
    split_ifs with h1 hx h2 h3 hl hz
    · simp [h1]
    · have hx' : folder.searchable = false := by simpa using hx
      simp [h1, hx', IoError.isAbsence]
    all_goals have hx' : folder.searchable = true := by simpa using hx
    · simpa [hx'] using fun _ hs => (hdots hs).1 h2
    · simpa [hx'] using fun _ hs => (hdots hs).2 h3
    · simp [h1, hl, IoError.isAbsence]
    · simp [hx', hl, IoError.isAbsence]
    · refine iff_of_false (by simp [hx', hl]) ?_
      rintro ⟨e, h, he⟩
      split at h <;> cases h <;> cases he

/-! ### What a path name leads to -/

/-- The path name leads to the object at a place, through however many links. -/
structure Names (t : Tree) (name : Text) (p : Place) : Prop where
  nonempty : name ≠ []
  noZero : '\x00' ∉ name
  comes : ∃ links, Comes t.turn links [] (splitOn '/' name) p []

/-- What about a path name stops the walk before it is known whether the name leads anywhere: a zero
in it, its length, a name that cannot be looked up where the walk comes, or the number of links. -/
inductive Obstructs (t : Tree) (name : Text) : Prop
  | zero (h : '\x00' ∈ name)
  | path (h : pathBound ≤ (utf8 name).length)
  | component {k : Nat} {p : Place} {s : Text} {rest : List Text} (hk : k ≤ linkBound)
      (h : Comes t.turn k [] (splitOn '/' name) p (s :: rest)) (hs : t.Refuses p s)
  | links {p : Place} {left : List Text}
      (h : Comes t.turn (linkBound + 1) [] (splitOn '/' name) p left)

variable {name : Text} {p : Place}

lemma names_of_resolve (h : t.resolve name = .ok p) : t.Names name p := by
  obtain ⟨hz, hw⟩ := walk_of_resolve h
  refine ⟨?_, hz, ?_⟩
  · rintro rfl
    cases h
  · have hends := ends_walk t.turn linkBound [] (splitOn '/' name)
    rw [hw] at hends
    cases hends with
    | there _ hc => exact ⟨_, hc⟩

/-- A walk that ends without a place comes to none, unless it was given up for its links. -/
lemma not_names_of_walk {e : IoError}
    (hw : walkBy t.turn linkBound [] (splitOn '/' name) = .error e) (he : e ≠ .tooManyLinks) :
    ¬ t.Names name p := by
  rintro ⟨-, -, k, h⟩
  rcases Nat.lt_or_ge linkBound k with hk | hk
  · rw [walk_of_comes_of_lt h hk] at hw
    cases hw
    exact he rfl
  · rw [walk_of_comes h hk, walk_nil] at hw
    cases hw

lemma exists_error_of_walk {e : IoError}
    (hw : walkBy t.turn linkBound [] (splitOn '/' name) = .error e) (he : e.isAbsence = false) :
    ∃ e', t.resolve name = .error e' ∧ e'.isAbsence = false := by
  have hn : name.isEmpty = false := by
    rw [List.isEmpty_eq_false_iff]
    rintro rfl
    cases hw
  unfold resolve resolveBy
  rw [hn]
  split
  · exact ⟨.zeroInName, rfl, rfl⟩
  · split
    · contradiction
    · split
      · exact ⟨.nameTooLong, rfl, rfl⟩
      · exact ⟨e, hw, he⟩

/-- **Reading a name fails without its being known to lead nowhere just when something obstructs
it.** -/
theorem obstructs_iff :
    t.Obstructs name ↔ ∃ e, t.resolve name = .error e ∧ e.isAbsence = false := by
  constructor
  -- the four ways in the order in which a name is looked at
  · rintro (hz | hl | ⟨hk, h, hs⟩ | h)
    · exact ⟨.zeroInName, by rw [resolve, resolveBy, if_pos (by simpa using hz)], rfl⟩
    · have hn : name.isEmpty = false := by
        rw [List.isEmpty_eq_false_iff]
        rintro rfl
        cases hl
      unfold resolve resolveBy
      rw [hn, if_pos hl]
      split
      · exact ⟨.zeroInName, rfl, rfl⟩
      · exact ⟨.nameTooLong, rfl, rfl⟩
    · obtain ⟨e, ht, he⟩ := refuses_iff.1 hs
      have hw := walk_of_comes h hk
      rw [walk_cons, ht] at hw
      exact exists_error_of_walk hw he
    · exact exists_error_of_walk (walk_of_comes_of_lt h (Nat.lt_succ_self _)) rfl
  · rintro ⟨e, h, he⟩
    unfold resolve resolveBy at h
    split at h
    · next hz => exact .zero (by simpa using hz)
    · split at h
      · cases h
        cases he
      · split at h
        · next hl => exact .path hl
        -- a walk that comes to nothing is stuck at some name or meets too many links
        · have hends := ends_walk t.turn linkBound [] (splitOn '/' name)
          rw [h] at hends
          cases hends with
          | stuck hk hc hs => exact .component hk hc (refuses_iff.2 ⟨e, hs, he⟩)
          | givenUp hc => exact .links hc

lemma Settled.exists_find? (h : t.Settled p) : ∃ e, t.find? p = some e := by
  rcases List.eq_nil_or_concat p with rfl | ⟨q, s, rfl⟩
  · exact ⟨_, rfl⟩
  · rw [List.concat_eq_append] at h ⊢
    obtain ⟨e, he, -⟩ := (h q s (List.prefix_refl _)).there
    exact ⟨e, he⟩

lemma stat_eq_error_iff {e : IoError} : t.stat name = .error e ↔ t.resolve name = .error e := by
  unfold stat
  rcases h : t.resolve name with e' | p
  · simp
  · obtain ⟨x, hx⟩ := (settled_resolve h).exists_find?
    simp [hx]

/-- A name that leads nowhere is known to be missing unless something obstructs it. -/
lemma exists_error_of_not_names (h : ∀ p, ¬ t.Names name p) :
    ∃ e, t.stat name = .error e ∧ (e.isAbsence = false ↔ t.Obstructs name) := by
  rcases hr : t.resolve name with e | p
  · refine ⟨e, stat_eq_error_iff.2 hr, ?_⟩
    rw [obstructs_iff, hr]
    simp
  · exact absurd (names_of_resolve hr) (h p)

end Tree

namespace FileLookup

lemma result_lookup_of_error {t : Tree} {root path : Text} {accepts : Text → Text → Bool}
    {e : IoError} (h : t.stat (nameOf root path) = .error e) :
    (lookup t root accepts path).result = if e.isAbsence then .ok none else .error e := by
  unfold lookup
  simp only
  rw [show t.stat (PathName.join root _) = _ from h]
  simp only
  split <;> rfl

end FileLookup

namespace Site

open Serving Service

variable {site : Site} {t : Tree} {r : Request}

lemma aim_of_stat_error {path : Text} {query : Option Text} {e : IoError}
    (h : t.stat (FileLookup.nameOf site.root path) = .error e) :
    aim (site.service t) path query =
      if e.isAbsence then .ok none else .error (.failed (.io e)) := by
  have hfiles : (site.files t path).result = if e.isAbsence then .ok none else .error e :=
    FileLookup.result_lookup_of_error h
  have hlookup : ((site.service t).lookup path).result =
      if e.isAbsence then .ok none else .error e := by
    show (site.lookup t path).result = _
    unfold lookup WelcomeLookup.lookup CompressedLookup.lookup
    rw [Logged.result_bind, Logged.result_bind, hfiles]
    cases e.isAbsence <;> rfl
  unfold aim
  rw [hlookup]
  cases e.isAbsence <;> rfl

lemma handle_of_stat_error (b : Text) (arrival : Arrival) (n : Negotiator)
    (hm : methodReply r.method = none) {path : Text} {e : IoError}
    (hp : RequestPath.normalize? r.path = some path)
    (hs : t.stat (FileLookup.nameOf site.root path) = .error e) :
    (site.handle t b arrival r n).1.result =
      .ok (Reply.ofStatus (if e.isAbsence then 404 else 500)) := by
  have haim : aim (site.service t) (r.inquiry b path).path (r.inquiry b path).query = _ :=
    aim_of_stat_error hs
  rw [(site.handle_of_regular t b arrival n hm hp).1]
  cases ha : e.isAbsence with
  | true =>
    rw [ha, if_pos rfl] at haim
    rw [run_inquire_of_none haim]
    rfl
  | false =>
    rw [ha, if_neg (by simp)] at haim
    rw [run_inquire_of_error haim]
    rfl

def Obstructed (site : Site) (t : Tree) (r : Request) : Prop :=
  ∃ path, RequestPath.normalize? r.path = some path ∧
    t.Obstructs (FileLookup.nameOf site.root path)

def LeadsTo (site : Site) (t : Tree) (r : Request) (p : Place) : Prop :=
  ∃ path, RequestPath.normalize? r.path = some path ∧
    t.Names (FileLookup.nameOf site.root path) p

/-- **A miss is not found, unless its name is obstructed**: a request whose path leads to no object
is answered by 404 or, just when something obstructs the name, by 500. -/
theorem handle_of_missing (b : Text) (arrival : Arrival) (n : Negotiator)
    (hm : methodReply r.method = none) (hnone : ∀ p, ¬ site.LeadsTo t r p) :
    ¬ site.Obstructed t r ∧
        (site.handle t b arrival r n).1.result = .ok (Reply.ofStatus 404) ∨
      site.Obstructed t r ∧
        (site.handle t b arrival r n).1.result = .ok (Reply.ofStatus 500) := by
  cases hp : RequestPath.normalize? r.path with
  | none =>
    refine Or.inl ⟨?_, (site.handle_of_irregular t b arrival n hm hp).1⟩
    rintro ⟨path, hpath, -⟩
    rw [hp] at hpath
    cases hpath
  | some path =>
    have hobstructed : site.Obstructed t r ↔ t.Obstructs (FileLookup.nameOf site.root path) := by
      simp [Obstructed, hp]
    obtain ⟨e, hs, he⟩ := Tree.exists_error_of_not_names fun p hn => hnone p ⟨path, hp, hn⟩
    rw [hobstructed, ← he, handle_of_stat_error b arrival n hm hp hs]
    cases e.isAbsence with
    | true => exact Or.inl ⟨by simp, rfl⟩
    | false => exact Or.inr ⟨rfl, rfl⟩

lemma not_leadsTo_of_walk {path : Text} {e : IoError}
    (hp : RequestPath.normalize? r.path = some path)
    (hw : Tree.walkBy t.turn Tree.linkBound []
      (Text.splitOn '/' (FileLookup.nameOf site.root path)) = .error e)
    (he : e ≠ .tooManyLinks) (p : Place) : ¬ site.LeadsTo t r p := by
  rintro ⟨path', hp', hn⟩
  rw [hp] at hp'
  cases hp'
  exact Tree.not_names_of_walk hw he hn

theorem handle_of_missing_sample :
    (∀ p, ¬ Sample.site.LeadsTo (Sample.tree ⟨0⟩) (Sample.requestFor "/b.txt".toList) p) ∧
      (Sample.site.handle (Sample.tree ⟨0⟩) [] Sample.arrival
        (Sample.requestFor "/b.txt".toList) Sample.site.negotiator).1.result =
          .ok (Reply.ofStatus 404) := by
  have hp : RequestPath.normalize? (Sample.requestFor "/b.txt".toList).path =
      some "/b.txt".toList := by decide +kernel
  have hr : (Sample.tree ⟨0⟩).resolve (FileLookup.nameOf Sample.site.root "/b.txt".toList) =
      .error .notFound := by decide +kernel
  have hnone : ∀ p, ¬ Sample.site.LeadsTo (Sample.tree ⟨0⟩)
      (Sample.requestFor "/b.txt".toList) p :=
    not_leadsTo_of_walk (e := .notFound) hp (by decide +kernel) (by decide)
  refine ⟨hnone, ?_⟩
  obtain ⟨-, h⟩ | ⟨⟨path, hpath, ho⟩, -⟩ := handle_of_missing [] Sample.arrival
    Sample.site.negotiator methodReply_get hnone
  · exact h
  · rw [hp] at hpath
    cases hpath
    obtain ⟨e, he, ha⟩ := Tree.obstructs_iff.1 ho
    rw [hr] at he
    cases he
    cases ha

/-- A name of 256 letters cannot be that of any object, and yet the request for it fails. -/
theorem overlong_not_missing :
    (∀ p, ¬ Sample.site.LeadsTo (Sample.tree ⟨0⟩)
        (Sample.requestFor ('/' :: List.replicate 256 'a')) p) ∧
      (Sample.site.handle (Sample.tree ⟨0⟩) [] Sample.arrival
        (Sample.requestFor ('/' :: List.replicate 256 'a')) Sample.site.negotiator).1.result =
          .ok (Reply.ofStatus 500) := by
  have hplain : RequestPath.Plain (List.replicate 256 'a') :=
    ⟨by decide +kernel, by decide +kernel, by decide +kernel⟩
  have hregular : RequestPath.Regular ('/' :: List.replicate 256 'a') :=
    ⟨[List.replicate 256 'a'], false, fun s hs => List.mem_singleton.1 hs ▸ hplain,
      by decide +kernel⟩
  have hp : RequestPath.normalize? (Sample.requestFor ('/' :: List.replicate 256 'a')).path =
      some ('/' :: List.replicate 256 'a') := by
    have hencode : RequestPath.encode ('/' :: List.replicate 256 'a') =
      '/' :: List.replicate 256 'a' := by decide +kernel
    have h := hregular.normalize?_encode
    rwa [hencode] at h
  have hs : (Sample.tree ⟨0⟩).stat
      (FileLookup.nameOf Sample.site.root ('/' :: List.replicate 256 'a')) =
        .error .nameTooLong := by decide +kernel
  exact ⟨not_leadsTo_of_walk (e := .nameTooLong) hp (by decide +kernel) (by decide),
    handle_of_stat_error [] Sample.arrival Sample.site.negotiator methodReply_get hp hs⟩

end Site

end Docroot

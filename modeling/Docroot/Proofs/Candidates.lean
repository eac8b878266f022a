import Mathlib.Tactic.Common
import Docroot.Proofs.Missing

/-!
The search for the welcome file of a directory. Of the names that may be those of welcome files,
the first that leads to a file is taken. A name before it that leads to something else, or to
nothing, is passed over, unless its being missing is not known: a name that passes through a file,
and one that is obstructed, end the search, and the request for the directory fails.
-/

namespace Docroot

namespace Tree

open Text

variable {t : Tree} {name : Text} {p : Place}

/-! ### Names that hinder a search -/

/-- The path name passes through a file: a walk comes to a file with names that are still left. -/
structure Crosses (t : Tree) (name : Text) : Prop where
  noZero : '\x00' ∉ name
  short : (utf8 name).length < pathBound
  comes : ∃ k p s rest data modified, k ≤ linkBound ∧
    Comes t.turn k [] (splitOn '/' name) p (s :: rest) ∧ t.find? p = some ⟨.file data, modified⟩

lemma settled_of_comes {k : Nat} {q : Place} {names left : List Text}
    (h : Comes t.turn k p names q left) (hp : t.Settled p) (hn : ∀ s ∈ names, '/' ∉ s) :
    t.Settled q := by
  induction h with
  | here p names => exact hp
  | step hs _ ih =>
    rw [List.forall_mem_cons] at hn
    exact ih (settled_of_turn hp hn.1 hs) hn.2
  | link hs _ ih =>
    rw [List.forall_mem_cons] at hn
    obtain ⟨hplace, hnames⟩ := settled_of_turn hp hn.1 hs
    exact ih hplace (List.forall_mem_append.2 ⟨hnames, hn.2⟩)

lemma Settled.exists_file (h : t.Settled p) (hd : t.folder? p = none) :
    ∃ data modified, t.find? p = some ⟨.file data, modified⟩ := by
  rcases List.eq_nil_or_concat p with rfl | ⟨q, s, rfl⟩
  · cases hd
  · rw [List.concat_eq_append] at h hd ⊢
    obtain ⟨⟨node, modified⟩, he, hlink⟩ := (h q s (List.prefix_refl _)).there
    cases node with
    | file data => exact ⟨data, modified, he⟩
    | directory folder =>
      rw [folder?, he] at hd
      cases hd
    | link target => exact absurd rfl (hlink target)

lemma turn_of_file {data : Bytes} {modified : Timestamp}
    (h : t.find? p = some ⟨.file data, modified⟩) (s : Text) :
    t.turn p s = .error .notADirectory := by
  have hd : t.folder? p = none := by
    unfold folder?
    rw [h]
  rw [turn, hd]

lemma folder?_of_turn {s : Text} (h : t.turn p s = .error .notADirectory) :
    t.folder? p = none := by
  unfold turn at h
  split at h
  · assumption
  · repeat' split at h
    all_goals cases h

lemma Crosses.walk (h : t.Crosses name) :
    walkBy t.turn linkBound [] (splitOn '/' name) = .error .notADirectory := by
  obtain ⟨k, q, s, rest, data, modified, hk, hc, hf⟩ := h.comes
  rw [walk_of_comes hc hk, walk_cons, turn_of_file hf]

/-- **A name passes through a file** just when reading it fails for that. -/
theorem crosses_iff : t.Crosses name ↔ t.resolve name = .error .notADirectory := by
  constructor
  · intro h
    have hne : name.isEmpty = false := by
      rw [List.isEmpty_eq_false_iff]
      rintro rfl
      have hw := h.walk
      cases hw
    unfold resolve resolveBy
    rw [if_neg (by simpa using h.noZero), hne, if_neg (by simp),
      if_neg (Nat.not_le.2 h.short), h.walk]
  · intro h
    unfold resolve resolveBy at h
    split at h
    · cases h
    · next hz =>
      split at h
      · cases h
      · split at h
        · cases h
        · next hl =>
          refine ⟨by simpa using hz, Nat.not_le.1 hl, ?_⟩
          have hends := ends_walk t.turn linkBound [] (splitOn '/' name)
          rw [h] at hends
          cases hends with
          | stuck hk hc hs =>
            -- the walk stands at a place that exists and is no directory
            have hplace := settled_of_comes hc settled_nil fun s hm => not_mem_of_mem_splitOn hm
            obtain ⟨data, modified, hf⟩ := hplace.exists_file (folder?_of_turn hs)
            exact ⟨_, _, _, _, data, modified, hk, hc, hf⟩

/-- What about a path name ends a search that comes to it. -/
def Hinders (t : Tree) (name : Text) : Prop := t.Crosses name ∨ t.Obstructs name

/-- A name that does not hinder leads to an object, or is known to be missing. -/
lemma hinders_iff : t.Hinders name ↔ ∃ e, t.stat name = .error e ∧ e ≠ .notFound := by
  unfold Hinders
  rw [crosses_iff, obstructs_iff]
  simp only [stat_eq_error_iff]
  constructor
  · rintro (h | ⟨e, h, he⟩)
    · exact ⟨_, h, by decide⟩
    · refine ⟨e, h, ?_⟩
      rintro rfl
      cases he
  · rintro ⟨e, h, he⟩
    cases ha : e.isAbsence with
    | false => exact Or.inr ⟨e, h, ha⟩
    | true =>
      cases e with
      | notFound => exact absurd rfl he
      | notADirectory => exact Or.inl h
      | _ => cases ha

def isFile (t : Tree) (name : Text) : Bool :=
  match t.stat name with
  | .ok (_, ⟨.file _, _⟩) => true
  | _ => false

end Tree

namespace WelcomeLookup

variable {t : Tree} {path : Text} {directory : Resource} {names : List Text} {e : IoError}

def isFileIn (t : Tree) (directory : Resource) (name : Text) : Bool :=
  t.isFile (PathName.join directory.location name)

def HindersIn (t : Tree) (directory : Resource) (name : Text) : Prop :=
  t.Hinders (PathName.join directory.location name)

/-- The names before the first that leads to a file. -/
def tried (t : Tree) (directory : Resource) (names : List Text) : List Text :=
  names.takeWhile fun name => !isFileIn t directory name

lemma target_cons_of_passed {name : Text} (hf : isFileIn t directory name = false)
    (hh : ¬ HindersIn t directory name) :
    target t path directory (name :: names) = target t path directory names := by
  unfold isFileIn Tree.isFile at hf
  unfold HindersIn at hh
  rw [Tree.hinders_iff] at hh
  rw [target]
  split at hf
  · cases hf
  · next hnone =>
    split
    · next hs => exact absurd hs (hnone _ _ _)
    · rfl
    · rfl
    · next e he hs => exact absurd ⟨e, hs, he⟩ hh

lemma target_cons_of_isFileIn {name : Text} (hf : isFileIn t directory name = true) :
    target t path directory (name :: names) = .ok (some (path ++ name)) := by
  unfold isFileIn Tree.isFile at hf
  rw [target]
  split at hf
  · next hs => rw [hs]
  · cases hf

lemma exists_error_of_hindersIn (path : Text) {name : Text} (h : HindersIn t directory name) :
    ∃ e, t.stat (PathName.join directory.location name) = .error e ∧
      ∀ names, target t path directory (name :: names) = .error e := by
  obtain ⟨e, hs, he⟩ := Tree.hinders_iff.1 h
  refine ⟨e, hs, fun names => ?_⟩
  rw [target, hs]
  cases e with
  | notFound => exact absurd rfl he
  | _ => rfl

/-- **The search for a welcome file**: it comes to the first name that leads to a file, or to
nothing if there is none, unless a name before that hinders it; then it fails, in the way in which
the first such name does. -/
theorem target_or_fails (t : Tree) (path : Text) (directory : Resource) (names : List Text) :
    (∀ name ∈ tried t directory names, ¬ HindersIn t directory name) ∧
        target t path directory names =
          .ok ((names.find? (isFileIn t directory)).map (path ++ ·)) ∨
      ∃ before name after e, tried t directory names = before ++ name :: after ∧
        (∀ m ∈ before, ¬ HindersIn t directory m) ∧ HindersIn t directory name ∧
        t.stat (PathName.join directory.location name) = .error e ∧
        target t path directory names = .error e := by
  induction names with
  | nil => exact Or.inl ⟨fun name h => absurd h List.not_mem_nil, rfl⟩
  | cons name names ih =>
    unfold tried at ih ⊢
    rw [List.takeWhile_cons, List.find?_cons]
    cases hf : isFileIn t directory name with
    | true =>
      left
      simp [target_cons_of_isFileIn hf]
    | false =>
      simp only [Bool.not_false, if_true]
      by_cases hh : HindersIn t directory name
      · obtain ⟨e, hs, ht⟩ := exists_error_of_hindersIn path hh
        exact Or.inr ⟨[], name, _, e, rfl, fun m h => absurd h List.not_mem_nil, hh, hs, ht names⟩
      -- a name that is passed over leaves the answer to the names behind it
      · rw [target_cons_of_passed hf hh]
        rcases ih with ⟨hall, ht⟩ | ⟨before, n, after, e, hsplit, hbefore, hn, hs, ht⟩
        · exact Or.inl ⟨List.forall_mem_cons.2 ⟨hh, hall⟩, ht⟩
        · refine Or.inr ⟨name :: before, n, after, e, ?_, ?_, hn, hs, ht⟩
          · rw [hsplit]
            rfl
          · exact List.forall_mem_cons.2 ⟨hh, hbefore⟩

end WelcomeLookup

namespace Site

open Serving Service

variable {site : Site} {t : Tree} {r : Request}

/-- A request for a directory fails if the search for its welcome file does. -/
theorem handle_of_welcome_error (b : Text) (arrival : Arrival) (n : Negotiator)
    (hm : methodReply r.method = none) {path : Text} {directory : Found} {e : IoError}
    (hp : RequestPath.normalize? r.path = some path) (hs : ['/'] <:+ path)
    (hf : (site.lookup t path).result = .ok (some directory))
    (hd : directory.resource.isDirectory = true)
    (he : WelcomeLookup.target t path directory.resource site.settings.resources.welcomeFiles =
      .error e) :
    (site.handle t b arrival r n).1.result = .ok (Reply.ofStatus 500) := by
  have hwelcome : (site.service t).welcome path directory.resource = .error e := he
  have haim : aim (site.service t) (r.inquiry b path).path (r.inquiry b path).query =
      .error (.failed (.io e)) := by
    show aim (site.service t) path r.query = _
    unfold aim aimAt aimAtDirectory
    rw [show (site.service t).lookup = site.lookup t from rfl, hf]
    simp only [hd, if_true, List.isSuffixOf_iff_suffix.2 hs, hwelcome]
    rfl
  rw [(site.handle_of_regular t b arrival n hm hp).1, run_inquire_of_error haim]
  rfl

end Site

namespace Sample

/-- A directory with a file, a welcome file, and a link that leads to itself. -/
def hinderingTree : Tree :=
  ⟨[(["srv".toList], ⟨.directory, ⟨0⟩⟩), (["srv".toList, "d".toList], ⟨.directory, ⟨0⟩⟩),
    (["srv".toList, "d".toList, "a.txt".toList], ⟨.file (Text.utf8 "x".toList), ⟨0⟩⟩),
    (["srv".toList, "d".toList, "index.html".toList], ⟨.file (Text.utf8 "y".toList), ⟨0⟩⟩),
    (["srv".toList, "d".toList, "loop".toList], ⟨.link "loop".toList, ⟨0⟩⟩)]⟩

def welcomingSite (first : Text) : Site :=
  ⟨"/srv".toList, { resources :=
    { root := "/srv".toList, welcomeFiles := [first, "index.html".toList] } }, {}⟩

def welcomingDirectory : Found :=
  ⟨FileLookup.resourceOf "/srv/d".toList "/srv/d".toList ⟨.directory, ⟨0⟩⟩, .welcome⟩

end Sample

namespace WelcomeLookup

/-- **Names that are not passed over**: the welcome file is not found behind a name that passes
through a file, nor behind a link that leads to itself, and the request for the directory fails. -/
theorem hindering_names_not_passed :
    isFileIn Sample.hinderingTree Sample.welcomingDirectory.resource "index.html".toList = true ∧
      target Sample.hinderingTree "/d/".toList Sample.welcomingDirectory.resource
        ["a.txt/index.html".toList, "index.html".toList] = .error .notADirectory ∧
      target Sample.hinderingTree "/d/".toList Sample.welcomingDirectory.resource
        ["loop".toList, "index.html".toList] = .error .tooManyLinks ∧
      ∀ first ∈ ["a.txt/index.html".toList, "loop".toList],
        ((Sample.welcomingSite first).handle Sample.hinderingTree [] Sample.arrival
          (Sample.requestFor "/d/".toList) (Sample.welcomingSite first).negotiator).1.result =
            .ok (Reply.ofStatus 500) := by
  have hcross : target Sample.hinderingTree "/d/".toList Sample.welcomingDirectory.resource
      ["a.txt/index.html".toList, "index.html".toList] = .error .notADirectory := by decide +kernel
  have hloop : target Sample.hinderingTree "/d/".toList Sample.welcomingDirectory.resource
      ["loop".toList, "index.html".toList] = .error .tooManyLinks := by decide +kernel
  have hp : RequestPath.normalize? (Sample.requestFor "/d/".toList).path = some "/d/".toList := by
    decide +kernel
  refine ⟨by decide +kernel, hcross, hloop, fun first hfirst => ?_⟩
  have hf : ((Sample.welcomingSite first).lookup Sample.hinderingTree "/d/".toList).result =
      .ok (some Sample.welcomingDirectory) := rfl
  simp only [List.mem_cons, List.not_mem_nil, or_false] at hfirst
  obtain ⟨e, he⟩ : ∃ e, target Sample.hinderingTree "/d/".toList Sample.welcomingDirectory.resource
      [first, "index.html".toList] = .error e := by
    rcases hfirst with rfl | rfl
    · exact ⟨_, hcross⟩
    · exact ⟨_, hloop⟩
  exact Site.handle_of_welcome_error [] Sample.arrival _ Site.methodReply_get hp (by decide) hf rfl
    he

end WelcomeLookup

end Docroot

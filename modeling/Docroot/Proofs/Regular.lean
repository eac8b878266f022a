import Mathlib.Tactic.Common
import Docroot.Path.Request
import Docroot.Proofs.Lookup
import Docroot.Proofs.Percent

/-!
Regular paths. What comes out of a raw path are segments that each lead one step down, with a slash
at the end or not; the written form of such a path names the path again, and says nothing else to
who reads it in a location.
-/

namespace Docroot

/-- The name can stand between two slashes and does not stand for a directory that is known
already. -/
structure PathName.Single (s : Text) : Prop where
  noSlash : '/' ∉ s
  noDots : s ≠ ['.'] ∧ s ≠ ['.', '.']

instance (s : Text) : Decidable (PathName.Single s) :=
  decidable_of_iff ('/' ∉ s ∧ s ≠ ['.'] ∧ s ≠ ['.', '.'])
    ⟨fun h => ⟨h.1, h.2⟩, fun h => ⟨h.noSlash, h.noDots⟩⟩

namespace Text

lemma mem_of_mem_splitOn {sep : Char} {s piece : Text} {c : Char} (hp : piece ∈ splitOn sep s)
    (hc : c ∈ piece) : c ∈ s := by
  induction s generalizing piece with
  | nil =>
    obtain rfl := List.mem_singleton.1 hp
    exact hc
  | cons x r ih =>
    rw [splitOn] at hp
    split at hp
    · rcases List.mem_cons.1 hp with rfl | hp
      · exact absurd hc List.not_mem_nil
      · exact List.mem_cons_of_mem x (ih hp hc)
    · split at hp
      · next hn => exact absurd hn (splitOn_ne_nil sep r)
      · next first rest heq =>
        rw [heq] at ih
        rcases List.mem_cons.1 hp with rfl | hp
        · rcases List.mem_cons.1 hc with rfl | hc
          · exact List.mem_cons_self
          · exact List.mem_cons_of_mem x (ih List.mem_cons_self hc)
        · exact List.mem_cons_of_mem x (ih (List.mem_cons_of_mem first hp) hc)

lemma splitOn_flatMap {sep : Char} {pieces : List Text} (h : ∀ s ∈ pieces, sep ∉ s) :
    splitOn sep (pieces.flatMap (sep :: ·)) = [] :: pieces := by
  by_cases hp : pieces = []
  · subst hp
    rfl
  · rw [← cons_joinWith hp, splitOn, if_pos rfl, splitOn_joinWith hp h]

/-- What stands after the last separator is determined by the text. -/
lemma suffix_cons_iff {sep : Char} {x s t : Text} (hs : sep ∉ s) (ht : sep ∉ t) :
    sep :: t <:+ x ++ sep :: s ↔ t = s := by
  constructor
  · rintro ⟨y, hy⟩
    -- read backwards, both texts begin with a piece up to the first separator
    have hrev := congrArg (fun z => splitOn sep z.reverse) hy
    simp only [List.reverse_append, List.reverse_cons, List.append_assoc, List.cons_append,
      List.nil_append] at hrev
    rw [splitOn_append (by simpa using ht), splitOn_append (by simpa using hs)] at hrev
    exact List.reverse_inj.1 (List.cons.inj hrev).1
  · rintro rfl
    exact List.suffix_append x _

end Text

namespace RequestPath

open Text

structure Plain (s : Text) : Prop extends PathName.Single s where
  nonempty : s ≠ []
  noZero : '\x00' ∉ s

/-- What stands between and behind the slashes of a path. -/
def pieces (segments : List Text) (directory : Bool) : List Text :=
  if directory || segments.isEmpty then segments ++ [[]] else segments

lemma build_eq (segments : List Text) (directory : Bool) :
    build segments directory = (pieces segments directory).flatMap ('/' :: ·) := by
  unfold build pieces
  by_cases hs : segments = []
  · subst hs
    simp [joinWith]
  · rw [← List.cons_append, cons_joinWith hs]
    cases directory <;> simp [hs]

/-- How a raw path comes to name a path. -/
lemma normalize?_eq_some_iff {raw path : Text} :
    normalize? raw = some path ↔ ∃ decoded segments, percentDecode? raw = some decoded ∧
      '\x00' ∉ decoded ∧ walk [] (splitOn '/' decoded) = some segments ∧
      path = build segments (asksForDirectory decoded) := by
  unfold normalize?
  cases percentDecode? raw with
  | none => simp
  | some decoded =>
    by_cases hz : '\x00' ∈ decoded
    · simp [hz]
    · simp [hz, Option.bind_eq_some_iff, eq_comm (a := path)]

lemma walk_nil_cons (stack rest : List Text) : walk stack ([] :: rest) = walk stack rest := by
  rw [walk.eq_def]
  rfl

lemma walk_plain_cons {s : Text} (hs : Plain s) (stack rest : List Text) :
    walk stack (s :: rest) = walk (s :: stack) rest := by
  rw [walk.eq_def]
  simp only [hs.nonempty, hs.noDots, or_self, if_false]

section

variable {segments : List Text} {directory : Bool} (h : ∀ s ∈ segments, Plain s)

include h

lemma noSlash_of_mem_pieces : ∀ s ∈ pieces segments directory, '/' ∉ s := by
  intro s hs
  unfold pieces at hs
  split at hs
  · rcases List.mem_append.1 hs with hs | hs
    · exact (h s hs).noSlash
    · obtain rfl := List.mem_singleton.1 hs
      exact List.not_mem_nil
  · exact (h s hs).noSlash

lemma splitOn_build :
    splitOn '/' (build segments directory) = [] :: pieces segments directory := by
  rw [build_eq, splitOn_flatMap (noSlash_of_mem_pieces h)]

lemma walk_append_plain (stack rest : List Text) :
    walk stack (segments ++ rest) = walk (segments.reverse ++ stack) rest := by
  induction segments generalizing stack with
  | nil => rfl
  | cons s r ih =>
    rw [List.forall_mem_cons] at h
    rw [List.cons_append, walk_plain_cons h.1, ih h.2, List.reverse_cons, List.append_assoc]
    rfl

lemma walk_pieces : walk [] ([] :: pieces segments directory) = some segments := by
  rw [walk_nil_cons]
  unfold pieces
  split
  · rw [walk_append_plain h, walk_nil_cons, walk, List.append_nil, List.reverse_reverse]
  · have := walk_append_plain h [] []
    rwa [List.append_nil, walk, List.append_nil, List.reverse_reverse] at this

lemma exists_last_piece (directory : Bool) : ∃ x last, build segments directory = x ++ '/' :: last ∧
    last ∈ pieces segments directory ∧
    (last = [] ∧ (directory || segments.isEmpty) = true ∨
      Plain last ∧ (directory || segments.isEmpty) = false) := by
  rw [build_eq]
  unfold pieces
  split
  · next hd => exact ⟨segments.flatMap ('/' :: ·), [], by simp, by simp, Or.inl ⟨rfl, hd⟩⟩
  · next hd =>
    rcases List.eq_nil_or_concat segments with rfl | ⟨init, last, rfl⟩
    · simp at hd
    · rw [List.concat_eq_append] at h hd ⊢
      exact ⟨init.flatMap ('/' :: ·), last, by simp, by simp,
        Or.inr ⟨h last (by simp), by simpa using hd⟩⟩

/-- A path ends with a slash when it is the top or is asked for as a directory. -/
lemma slash_suffix_build_iff :
    ['/'] <:+ build segments directory ↔ (directory || segments.isEmpty) = true := by
  obtain ⟨x, last, he, hm, hl⟩ := exists_last_piece h directory
  rw [he, suffix_cons_iff (noSlash_of_mem_pieces h last hm) List.not_mem_nil]
  rcases hl with ⟨rfl, hd⟩ | ⟨hp, hd⟩
  · simp [hd]
  · simp [hd, Ne.symm hp.nonempty]

lemma asksForDirectory_build :
    asksForDirectory (build segments directory) = (directory || segments.isEmpty) := by
  obtain ⟨x, last, he, hm, hl⟩ := exists_last_piece h directory
  have hs := noSlash_of_mem_pieces h last hm
  rw [Bool.eq_iff_iff, he]
  simp only [asksForDirectory, Bool.or_eq_true, List.isSuffixOf_iff_suffix,
    suffix_cons_iff hs List.not_mem_nil, suffix_cons_iff hs (by decide : '/' ∉ ['.']),
    suffix_cons_iff hs (by decide : '/' ∉ ['.', '.'])]
  rcases hl with ⟨rfl, hd⟩ | ⟨hp, hd⟩
  · simpa using hd
  · have hnot := hp.noDots
    rw [Bool.or_eq_false_iff] at hd
    simp [hd.1, hd.2, Ne.symm hp.nonempty, Ne.symm hnot.1, Ne.symm hnot.2]

lemma zero_not_mem_build : '\x00' ∉ build segments directory := by
  rw [build_eq]
  intro hz
  obtain ⟨s, hs, hz⟩ := List.mem_flatMap.1 hz
  rcases List.mem_cons.1 hz with hz | hz
  · exact absurd hz (by decide)
  · unfold pieces at hs
    split at hs
    · rcases List.mem_append.1 hs with hs | hs
      · exact (h s hs).noZero hz
      · obtain rfl := List.mem_singleton.1 hs
        exact absurd hz List.not_mem_nil
    · exact (h s hs).noZero hz

/-- **The written form of a path names the path.** -/
theorem normalize?_encode_build :
    normalize? (encode (build segments directory)) = some (build segments directory) := by
  have hbuild : build segments (directory || segments.isEmpty) = build segments directory := by
    by_cases hs : segments = []
    · simp [build, hs]
    · rw [List.isEmpty_eq_false_iff.2 hs, Bool.or_false]
  rw [normalize?_eq_some_iff]
  refine ⟨_, segments, percentDecode?_percentEncode (fun _ hb => hb) _, zero_not_mem_build h,
    ?_, ?_⟩
  · rw [splitOn_build h, walk_pieces h]
  · rw [asksForDirectory_build h, hbuild]

omit h in
lemma exists_head_joinWith {s : Text} {r : List Text} (hs : Plain s) :
    ∃ c x, joinWith ['/'] (s :: r) = c :: x ∧ c ≠ '/' := by
  obtain ⟨c, x, rfl⟩ := List.exists_cons_of_ne_nil hs.nonempty
  have hc : c ≠ '/' := fun he => hs.noSlash (he ▸ List.mem_cons_self)
  cases r with
  | nil => exact ⟨c, x, rfl, hc⟩
  | cons t r => exact ⟨c, _, rfl, hc⟩

lemma exists_last_joinWith (hne : segments ≠ []) :
    ∃ x c, joinWith ['/'] segments = x ++ [c] ∧ c ≠ '/' := by
  induction segments with
  | nil => exact absurd rfl hne
  | cons s r ih =>
    rw [List.forall_mem_cons] at h
    obtain ⟨hs, hr⟩ := h
    rcases List.eq_nil_or_concat r with rfl | ⟨init, last, hcons⟩
    · obtain ⟨x, c, hx⟩ := (List.eq_nil_or_concat s).resolve_left hs.nonempty
      rw [List.concat_eq_append] at hx
      exact ⟨x, c, hx, fun he => hs.noSlash (by rw [hx, he]; simp)⟩
    · have hr' : r ≠ [] := by simp [hcons]
      obtain ⟨x, c, hx, hc⟩ := ih hr hr'
      exact ⟨s ++ ['/'] ++ x, c, by rw [joinWith_cons hr', hx]; simp, hc⟩

lemma strip_build : strip (· == '/') (build segments directory) = joinWith ['/'] segments := by
  by_cases hs : segments = []
  · subst hs
    cases directory <;> rfl
  · obtain ⟨y, d, hy, hd⟩ := exists_last_joinWith h hs
    obtain ⟨s, r, rfl⟩ := List.exists_cons_of_ne_nil hs
    obtain ⟨c, x, hx, hc⟩ := exists_head_joinWith (r := r) (h s List.mem_cons_self)
    have hfront : ∀ tail : Text, (joinWith ['/'] (s :: r) ++ tail).dropWhile (· == '/') =
        joinWith ['/'] (s :: r) ++ tail := by
      intro tail
      rw [hx, List.cons_append, List.dropWhile_cons_of_neg (by simpa using hc)]
    have hback : ((joinWith ['/'] (s :: r)).reverse).dropWhile (· == '/') =
        (joinWith ['/'] (s :: r)).reverse := by
      rw [hy, List.reverse_append, List.reverse_singleton, List.singleton_append,
        List.dropWhile_cons_of_neg (by simpa using hd)]
    unfold strip build dropEndWhile
    rw [List.dropWhile_cons_of_pos rfl, hfront]
    cases directory with
    | false => simp [hback]
    | true => simp [hback]

end

/-! ### What a raw path names -/

/-- A path that a raw path can name. -/
def Regular (path : Text) : Prop :=
  ∃ segments directory, (∀ s ∈ segments, Plain s) ∧ path = build segments directory

lemma plain_of_walk {stack names segments : List Text} (hs : ∀ s ∈ stack, Plain s)
    (hn : ∀ s ∈ names, '/' ∉ s ∧ '\x00' ∉ s) (hw : walk stack names = some segments) :
    ∀ s ∈ segments, Plain s := by
  induction names generalizing stack with
  | nil =>
    cases hw
    exact fun s hm => hs s (List.mem_reverse.1 hm)
  | cons name names ih =>
    rw [List.forall_mem_cons] at hn
    rw [walk.eq_def] at hw
    simp only at hw
    split at hw
    · exact ih hs hn.2 hw
    · next hdot =>
      rw [not_or] at hdot
      split at hw
      · split at hw
        · cases hw
        · next top below =>
          rw [List.forall_mem_cons] at hs
          exact ih hs.2 hn.2 hw
      · next hdots =>
        exact ih (List.forall_mem_cons.2
          ⟨⟨⟨hn.1.1, hdot.2, hdots⟩, hdot.1, hn.1.2⟩, hs⟩) hn.2 hw

theorem regular_of_normalize? {raw path : Text} (hp : normalize? raw = some path) :
    Regular path := by
  obtain ⟨decoded, segments, -, hz, hw, rfl⟩ := normalize?_eq_some_iff.1 hp
  refine ⟨segments, _, plain_of_walk (fun s hs => absurd hs List.not_mem_nil) ?_ hw, rfl⟩
  exact fun s hs => ⟨not_mem_of_mem_splitOn hs, fun hzero => hz (mem_of_mem_splitOn hs hzero)⟩

namespace Regular

variable {path : Text} (h : Regular path)

include h

lemma normalize?_encode : normalize? (encode path) = some path := by
  obtain ⟨segments, directory, hs, rfl⟩ := h
  exact normalize?_encode_build hs

lemma append_slash (hs : ¬ ['/'] <:+ path) :
    Regular (path ++ ['/']) ∧ strip (· == '/') (path ++ ['/']) = strip (· == '/') path := by
  obtain ⟨segments, directory, hp, rfl⟩ := h
  rw [slash_suffix_build_iff hp, Bool.or_eq_true, not_or] at hs
  have he : build segments directory ++ ['/'] = build segments true := by
    simp [build, hs.1, hs.2]
  rw [he, strip_build hp, strip_build hp]
  exact ⟨⟨segments, true, hp, rfl⟩, rfl⟩

lemma dropLast (hs : ['/'] <:+ path) (hl : 1 < path.length) :
    Regular path.dropLast ∧ ¬ ['/'] <:+ path.dropLast ∧
      strip (· == '/') path.dropLast = strip (· == '/') path := by
  obtain ⟨segments, directory, hp, rfl⟩ := h
  rw [slash_suffix_build_iff hp] at hs
  have hne : segments ≠ [] := by
    rintro rfl
    simp [build, joinWith] at hl
  obtain rfl : directory = true := by simpa [hne] using hs
  have he : (build segments true).dropLast = build segments false := by
    simp only [build, Bool.true_and, List.isEmpty_eq_false_iff.2 hne, Bool.not_false, if_true,
      Bool.false_and, Bool.false_eq_true, if_false, List.append_nil]
    rw [← List.cons_append, List.dropLast_concat]
  rw [he, strip_build hp, strip_build hp, slash_suffix_build_iff hp]
  exact ⟨⟨segments, false, hp, rfl⟩, by simpa using hne, rfl⟩

lemma append_name (hs : ['/'] <:+ path) {name : Text} (hn : Plain name) :
    Regular (path ++ name) ∧ ¬ ['/'] <:+ path ++ name ∧
      ∃ segments, (∀ s ∈ segments, Plain s) ∧
        strip (· == '/') path = joinWith ['/'] segments ∧
        strip (· == '/') (path ++ name) = joinWith ['/'] (segments ++ [name]) := by
  obtain ⟨segments, directory, hp, rfl⟩ := h
  rw [slash_suffix_build_iff hp] at hs
  have hp' : ∀ s ∈ segments ++ [name], Plain s := by
    intro s hm
    rcases List.mem_append.1 hm with hm | hm
    · exact hp s hm
    · exact List.mem_singleton.1 hm ▸ hn
  have he : build segments directory ++ name = build (segments ++ [name]) false := by
    rw [build_eq, build_eq, pieces, if_pos hs, pieces, if_neg (by simp)]
    simp
  rw [he, slash_suffix_build_iff hp', strip_build hp, strip_build hp']
  exact ⟨⟨segments ++ [name], false, hp', rfl⟩, by simp, segments, hp, rfl, rfl⟩

end Regular

/-! ### The written form -/

lemma encode_append (p q : Text) : encode (p ++ q) = encode p ++ encode q := by
  simp [encode, percentEncode]

lemma exists_first_octet {c : Char} (hc : c ≠ '/') :
    ∃ b rest, String.utf8EncodeChar c = b :: rest ∧ b ≠ 0x2F := by
  have hval : c.val.toNat ≠ 47 := by
    intro he
    exact hc (Char.toNat_inj.1 he)
  have hne : ∀ n : Nat, n < 256 → n ≠ 47 → UInt8.ofNat n ≠ 0x2F := by
    intro n hn h47 he
    have := congrArg UInt8.toNat he
    rw [UInt8.toNat_ofNat'] at this
    exact h47 (by rw [Nat.mod_eq_of_lt hn] at this; exact this)
  unfold String.utf8EncodeChar
  simp only
  split
  · exact ⟨_, _, rfl, hne _ (by omega) hval⟩
  · split
    · exact ⟨_, _, rfl, hne _ (by omega) (by omega)⟩
    · split
      · exact ⟨_, _, rfl, hne _ (by omega) (by omega)⟩
      · exact ⟨_, _, rfl, hne _ (by omega) (by omega)⟩

lemma head?_encode_ne {c : Char} (hc : c ≠ '/') (rest : Text) :
    (encode (c :: rest)).head? ≠ some '/' := by
  obtain ⟨b, bytes, hb, hne⟩ := exists_first_octet hc
  have hu : utf8 (c :: rest) = b :: (bytes ++ utf8 rest) := by
    show String.utf8EncodeChar c ++ utf8 rest = _
    rw [hb]
    rfl
  show ((utf8 (c :: rest)).flatMap (writtenOctet escapedInPath)).head? ≠ _
  rw [hu, List.flatMap_cons]
  unfold writtenOctet
  split
  · simp [percentEscape]
  · have hval := toNat_ofNat b
    intro he
    rw [List.singleton_append, List.head?_cons, Option.some.injEq] at he
    rw [he] at hval
    exact hne (UInt8.toNat_inj.1 hval.symm)

/-- What is to be said of a path that is written in a location: it is an absolute path, and no
part of it is read as a host, a query or a fragment. -/
structure Written (s : Text) : Prop where
  absolute : ['/'] <+: s
  noHost : ¬ ['/', '/'] <+: s
  chars : ∀ c ∈ s, WrittenChar c

/-- **The written form of a regular path** is an absolute path and nothing more. -/
theorem Regular.written_encode {path : Text} (h : Regular path) : Written (encode path) := by
  obtain ⟨segments, directory, hs, rfl⟩ := h
  have hslash : ∀ x, encode ('/' :: x) = '/' :: encode x := by
    intro x
    rw [← List.singleton_append, encode_append]
    rfl
  refine ⟨?_, ?_, fun c hc => writtenChar_of_mem_percentEncode (fun _ h => h) hc⟩
  · rw [build, hslash]
    exact ⟨_, rfl⟩
  · rw [build, hslash, List.cons_prefix_cons]
    rintro ⟨-, rest, hrest⟩
    rcases segments with _ | ⟨s, r⟩
    · cases directory <;> cases hrest
    · obtain ⟨c, x, hx, hc⟩ := exists_head_joinWith (r := r) (hs s List.mem_cons_self)
      rw [hx, List.cons_append] at hrest
      have hhead := congrArg List.head? hrest
      exact head?_encode_ne hc _ hhead.symm

end RequestPath

end Docroot

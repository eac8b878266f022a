import Mathlib.Tactic.Common
import Docroot.Proofs.Regular

/-!
Which raw paths name a path. Walking the segments of a raw path from the top, every `..` has to
find a segment that leads down and has not been taken away yet; so a raw path fails just when,
somewhere on the way, it has led up more often than down, or when its octets are not a text or hold
a zero. What a raw path names is a normal path, and the written form of that is graphic and names
it again.
-/

namespace Docroot

namespace Text

lemma ofUtf8?_eq_some_iff {b : Bytes} {s : Text} : ofUtf8? b = some s ↔ utf8 s = b := by
  refine ⟨fun h => ?_, fun h => h ▸ ofUtf8?_utf8 s⟩
  obtain ⟨chars, hchars, rfl⟩ := Option.map_eq_some_iff.1 h
  have hencode := ByteArray.utf8Encode_get_utf8Decode? (b := b.toByteArray)
    (h := by rw [hchars]; rfl)
  simp only [hchars, Option.get_some] at hencode
  have hbytes : (utf8 chars.toList).toByteArray = b.toByteArray := hencode
  simpa using congrArg (fun x => x.data.toList) hbytes

lemma percentDecode?_eq_some_iff {raw decoded : Text} :
    percentDecode? raw = some decoded ↔ utf8 decoded = percentDecodeBytes (utf8 raw) :=
  ofUtf8?_eq_some_iff

end Text

namespace RequestPath

open Text

/-! ### Walking up -/

/-- The segment leads one step down. -/
def Descends (s : Text) : Prop := s ≠ [] ∧ s ≠ ['.'] ∧ s ≠ ['.', '.']

instance : DecidablePred Descends := fun s =>
  inferInstanceAs (Decidable (s ≠ [] ∧ s ≠ ['.'] ∧ s ≠ ['.', '.']))

/-- How many of the segments lead one step down. -/
def downs (segments : List Text) : Nat := segments.countP fun s => decide (Descends s)

/-- How many of the segments lead one step up. -/
def ups (segments : List Text) : Nat := segments.count ['.', '.']

/-- Some segments at the beginning lead up more often than down. -/
def Climbs (segments : List Text) : Prop := ∃ p, p <+: segments ∧ downs p < ups p

/-- Some segments at the beginning lead up more often than down, also from a place that is `depth`
steps below the top. -/
def ClimbsFrom (depth : Nat) (segments : List Text) : Prop :=
  ∃ p, p <+: segments ∧ depth + downs p < ups p

lemma climbsFrom_zero {segments : List Text} : ClimbsFrom 0 segments ↔ Climbs segments := by
  simp only [ClimbsFrom, Climbs, Nat.zero_add]

lemma not_climbsFrom_nil (depth : Nat) : ¬ ClimbsFrom depth [] := by
  rintro ⟨p, hp, hlt⟩
  obtain rfl := List.prefix_nil.1 hp
  exact absurd hlt (Nat.not_lt_zero _)

/-- To climb is to climb in the first step or behind it. -/
lemma climbsFrom_cons {depth : Nat} {s : Text} {rest : List Text} :
    ClimbsFrom depth (s :: rest) ↔
      ∃ p, p <+: rest ∧ depth + downs (s :: p) < ups (s :: p) := by
  constructor
  · rintro ⟨p, hp, hlt⟩
    rcases List.prefix_cons_iff.1 hp with rfl | ⟨q, rfl, hq⟩
    · exact absurd hlt (Nat.not_lt_zero _)
    · exact ⟨q, hq, hlt⟩
  · rintro ⟨p, hp, hlt⟩
    exact ⟨s :: p, List.cons_prefix_cons.2 ⟨rfl, hp⟩, hlt⟩

lemma climbsFrom_idle_cons {s : Text} (hs : s = [] ∨ s = ['.']) (depth : Nat) (rest : List Text) :
    ClimbsFrom depth (s :: rest) ↔ ClimbsFrom depth rest := by
  have hd : ¬ Descends s := fun h => hs.elim h.1 h.2.1
  have hu : s ≠ ['.', '.'] := by
    rcases hs with rfl | rfl <;> decide
  rw [climbsFrom_cons]
  simp [ClimbsFrom, downs, ups, hd, hu]

lemma climbsFrom_zero_up_cons (rest : List Text) : ClimbsFrom 0 (['.', '.'] :: rest) :=
  climbsFrom_cons.2 ⟨[], List.nil_prefix, by decide⟩

lemma climbsFrom_up_cons (depth : Nat) (rest : List Text) :
    ClimbsFrom (depth + 1) (['.', '.'] :: rest) ↔ ClimbsFrom depth rest := by
  have hd : ¬ Descends ['.', '.'] := fun h => h.2.2 rfl
  rw [climbsFrom_cons]
  refine exists_congr fun p => and_congr_right fun _ => ?_
  simp only [downs, ups, List.countP_cons, hd, decide_false, List.count_cons_self]
  simp only [Bool.false_eq_true, if_false]
  omega

lemma climbsFrom_down_cons {s : Text} (hs : Descends s) (depth : Nat) (rest : List Text) :
    ClimbsFrom depth (s :: rest) ↔ ClimbsFrom (depth + 1) rest := by
  have hu : s ≠ ['.', '.'] := hs.2.2
  rw [climbsFrom_cons]
  refine exists_congr fun p => and_congr_right fun _ => ?_
  simp only [downs, ups, List.countP_cons, hs, decide_true, if_true, List.count_cons_of_ne hu]
  omega

/-- **A walk fails** just when it leads above the place where it would be at the top. -/
theorem walk_eq_none_iff {stack segments : List Text} :
    walk stack segments = none ↔ ClimbsFrom stack.length segments := by
  induction segments generalizing stack with
  | nil => exact iff_of_false (by simp [walk]) (not_climbsFrom_nil _)
  | cons s rest ih =>
    rw [walk.eq_def]
    simp only
    split
    · next hs => rw [ih, climbsFrom_idle_cons hs]
    · next hidle =>
      rw [not_or] at hidle
      split
      · next hs =>
        subst hs
        cases stack with
        | nil => exact iff_of_true rfl (climbsFrom_zero_up_cons rest)
        | cons top below => exact ih.trans (climbsFrom_up_cons below.length rest).symm
      · next hs => rw [ih, climbsFrom_down_cons ⟨hidle.1, hidle.2, hs⟩, List.length_cons]

/-! ### What a raw path names -/

/-- The path leads down from the top, segment by segment and without detours; behind the last
segment there may be a slash. -/
structure Normal (path : Text) : Prop where
  absolute : ['/'] <+: path
  segments : path = ['/'] ∨ ∃ inner, (path = '/' :: inner ∨ path = '/' :: (inner ++ ['/'])) ∧
    ∀ s ∈ splitOn '/' inner, Descends s
  noZero : '\x00' ∉ path

lemma Regular.normal {path : Text} (h : Regular path) : Normal path := by
  obtain ⟨segments, directory, hs, rfl⟩ := h
  refine ⟨⟨_, rfl⟩, ?_, zero_not_mem_build hs⟩
  by_cases hne : segments = []
  · subst hne
    exact Or.inl (by simp [build, joinWith])
  · right
    refine ⟨joinWith ['/'] segments, ?_, ?_⟩
    · cases directory with
      | false => exact Or.inl (by simp [build])
      | true => exact Or.inr (by simp [build, hne])
    · rw [splitOn_joinWith hne fun s hm => (hs s hm).noSlash]
      exact fun s hm => ⟨(hs s hm).nonempty, (hs s hm).noDots⟩

lemma normalize?_eq_none_iff {raw : Text} :
    normalize? raw = none ↔ (∀ decoded, utf8 decoded ≠ percentDecodeBytes (utf8 raw)) ∨
      ∃ decoded, utf8 decoded = percentDecodeBytes (utf8 raw) ∧
        ('\x00' ∈ decoded ∨ Climbs (splitOn '/' decoded)) := by
  simp only [← percentDecode?_eq_some_iff, ne_eq, ← climbsFrom_zero]
  cases hd : percentDecode? raw with
  | none => simp [normalize?, hd]
  | some decoded =>
    have hw : walk [] (splitOn '/' decoded) = none ↔ ClimbsFrom 0 (splitOn '/' decoded) :=
      walk_eq_none_iff
    by_cases hz : '\x00' ∈ decoded
    · simp [normalize?, hd, hz]
    · simp [normalize?, hd, hz, Option.eq_none_iff_forall_ne_some.symm.trans hw]

lemma encode_injective {path other : Text} (h : encode path = encode other) : path = other := by
  have hread : ∀ p, percentDecode? (encode p) = some p :=
    percentDecode?_percentEncode fun _ h => h
  have hp := hread path
  rw [h, hread other] at hp
  exact (Option.some.inj hp).symm

/-- **What a raw path names**: nothing, if its octets are not a text, if it holds a zero, or if it
climbs above the top; and else a normal path, whose written form is graphic, has no meaning of its
own in a location, names the path again, and is that of no other path that is named. -/
theorem normalize?_none_or_normal (raw : Text) :
    (normalize? raw = none ↔ (∀ decoded, utf8 decoded ≠ percentDecodeBytes (utf8 raw)) ∨
        ∃ decoded, utf8 decoded = percentDecodeBytes (utf8 raw) ∧
          ('\x00' ∈ decoded ∨ Climbs (splitOn '/' decoded))) ∧
      ∀ path, normalize? raw = some path →
        Normal path ∧ (∀ c ∈ encode path, WrittenChar c) ∧
          normalize? (encode path) = some path ∧
          ∀ raw' path', normalize? raw' = some path' → path' ≠ path →
            encode path' ≠ encode path := by
  refine ⟨normalize?_eq_none_iff, fun path hp => ?_⟩
  have hr := regular_of_normalize? hp
  exact ⟨hr.normal, hr.written_encode.chars, hr.normalize?_encode,
    fun _ _ _ hne he => hne (encode_injective he)⟩

/-- Three dots and an escaped escape are names like any other. -/
example : normalize? "/a/%2e%2e/.../%252e//".toList = some "/.../%2e/".toList := by decide +kernel

end RequestPath

end Docroot

import Mathlib.Tactic.Common
import Docroot.Proofs.Memory

/-!
A negotiator over its whole history. Whatever was asked of it and however its bound was changed, it
answers as one that remembers nothing, and what it remembers never exceeds the bound. One invariant
carries this: each call keeps it, so it holds after any number of calls.
-/

namespace Docroot.Negotiator

/-- A call on a negotiator: for the codings that header lines accept, for another bound of the
memory, or for whether a value is remembered. -/
inductive Call
  | order (lines : List Text)
  | setCapacity (capacity : Nat)
  | isKnown (value : Text)
deriving DecidableEq

def after (n : Negotiator) : Call → Negotiator
  | .order lines => (n.order lines).2
  | .setCapacity capacity => n.setCapacity capacity
  | .isKnown _ => n

def afterAll (n : Negotiator) (calls : List Call) : Negotiator := calls.foldl after n

/-- The value says nothing, so nothing is remembered of it. -/
def Blank (value : Text) : Prop := (Text.trim value).isEmpty = true

instance (value : Text) : Decidable (Blank value) :=
  inferInstanceAs (Decidable ((Text.trim value).isEmpty = true))

/-- The memory holds right orders, of values that say something, each once, and not more of them
than its bound. -/
structure Kept (preferred : List Text) (n : Negotiator) : Prop extends n.Sound preferred where
  said : ∀ e ∈ n.known, ¬ Blank e.1
  once : (n.known.map Prod.fst).Nodup
  bounded : n.known.length ≤ n.capacity

variable {preferred : List Text} {n : Negotiator}

lemma kept_new (names : List Text) (capacity : Nat) :
    (new names capacity).Kept (names.map Text.lower) where
  toSound := sound_new names capacity
  said := fun _ he => absurd he List.not_mem_nil
  once := List.nodup_nil
  bounded := Nat.zero_le capacity

lemma Kept.setCapacity (h : n.Kept preferred) (capacity : Nat) :
    (n.setCapacity capacity).Kept preferred := by
  have hs := h.toSound.setCapacity capacity
  unfold Negotiator.setCapacity at hs ⊢
  by_cases hc : capacity < n.known.length
  · simp only [if_pos hc] at hs ⊢
    exact ⟨hs, fun _ he => absurd he List.not_mem_nil, List.nodup_nil, Nat.zero_le _⟩
  · simp only [if_neg hc] at hs ⊢
    exact ⟨hs, h.said, h.once, Nat.not_lt.1 hc⟩

/-- A value that is not remembered yet is remembered from now on, if anything is. -/
lemma Kept.remember (h : n.Kept preferred) {value : Text} (hv : ¬ Blank value)
    (hnew : n.known.lookup value = none) :
    (n.remember value (orderOf preferred value)).Kept preferred ∧
      (0 < n.capacity → (n.remember value (orderOf preferred value)).isKnown value = true) := by
  have hs := h.toSound.remember value
  have habsent : ∀ e ∈ n.known, e.1 ≠ value := by
    intro e he heq
    have := List.lookup_eq_none_iff.1 hnew e he
    simp [heq] at this
  unfold Negotiator.remember at hs ⊢
  by_cases hc : n.capacity = 0
  · rw [if_pos hc]
    exact ⟨h, fun hpos => absurd hc (Nat.pos_iff_ne_zero.1 hpos)⟩
  rw [if_neg hc] at hs ⊢
  refine ⟨⟨hs, ?_, ?_, ?_⟩, fun _ => by simp [isKnown]⟩
  · intro e he
    rcases List.mem_append.1 he with he | he
    · split at he
      · exact absurd he List.not_mem_nil
      · exact h.said e he
    · rw [List.mem_singleton.1 he]
      exact hv
  · split
    · simp
    · rw [List.map_append, List.nodup_append]
      refine ⟨h.once, by simp, ?_⟩
      intro a ha b hb
      obtain ⟨e, he, rfl⟩ := List.mem_map.1 ha
      rw [List.map_cons, List.map_nil, List.mem_singleton] at hb
      exact hb ▸ habsent e he
  · -- a full memory is emptied before, so there is room for one more
    split
    · simp only [List.nil_append, List.length_singleton]
      omega
    · simp only [List.length_append, List.length_singleton]
      omega

/-- Asking for the codings of header lines keeps the memory right, and leaves their value in it. -/
lemma Kept.order (h : n.Kept preferred) (lines : List Text) :
    (n.order lines).2.Kept preferred ∧
      (¬ Blank (key lines) → 0 < n.capacity → (n.order lines).2.isKnown (key lines) = true) := by
  unfold Negotiator.order
  by_cases hb : (Text.trim (key lines)).isEmpty = true
  · simp only [hb, if_true]
    exact ⟨h, fun hn => absurd hb hn⟩
  · simp only [hb, if_false, Bool.false_eq_true]
    cases hl : n.known.lookup (key lines) with
    | some found =>
      obtain ⟨before, later, hk, -⟩ := List.lookup_eq_some_iff.1 hl
      exact ⟨h, fun _ _ => by simp [isKnown, hk]⟩
    | none =>
      simp only [h.preference]
      obtain ⟨hkept, hknown⟩ := h.remember hb hl
      exact ⟨hkept, fun _ => hknown⟩

lemma Kept.after (h : n.Kept preferred) (call : Call) : (n.after call).Kept preferred := by
  cases call with
  | order lines => exact (h.order lines).1
  | setCapacity capacity => exact h.setCapacity capacity
  | isKnown value => exact h

lemma Kept.afterAll (h : n.Kept preferred) (calls : List Call) :
    (n.afterAll calls).Kept preferred := by
  induction calls generalizing n with
  | nil => exact h
  | cons call calls ih => exact ih (h.after call)

/-- The third value finds the memory full. -/
example : ((new [] 2).afterAll [.order ["a".toList], .order ["b".toList],
    .order ["c".toList]]).known.map Prod.fst = ["c".toList] := by
  decide +kernel

end Docroot.Negotiator

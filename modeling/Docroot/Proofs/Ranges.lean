import Mathlib.Data.List.InsertIdx
import Mathlib.Tactic.Common
import Docroot.ByteRange.Header

/-!
What the `Range` lines of a request select. Of a content of known size every selected range lies in
the content, since the entries that are read do and joining ranges does not lead out of it; and the
whole content is selected just when no line has the unit `bytes`.
-/

namespace Docroot.ByteRange

/-- The range is not empty and lies in a content of `size` bytes. -/
def Within (size : Nat) (r : ByteRange) : Prop := r.first ≤ r.last ∧ r.last < size

variable {size : Nat} {r s : ByteRange}

lemma Within.hull (hr : Within size r) (hs : Within size s) : Within size (hull r s) := by
  obtain ⟨h1, h2⟩ := hr
  obtain ⟨h3, h4⟩ := hs
  constructor <;> simp only [ByteRange.hull] <;> omega

lemma within_of_suffixEntry {count : Nat} (h : suffixEntry size count = .range r) :
    Within size r := by
  unfold suffixEntry at h
  split at h
  · cases h
  · next hn =>
    cases h
    constructor <;> simp only <;> omega

lemma within_of_plainEntry {first : Nat} {last : Option Nat}
    (h : plainEntry size first last = .range r) : Within size r := by
  unfold plainEntry at h
  split at h
  · cases h
  · next hl =>
    split at h
    · cases h
    · cases h
      cases last with
      | none => constructor <;> simp <;> omega
      | some l =>
        simp only [Option.any_some, decide_eq_true_eq] at hl
        constructor <;> simp <;> omega

lemma within_of_readEntry {entry : Text} (h : readEntry size entry = .range r) : Within size r := by
  unfold readEntry at h
  split at h
  · cases h
  · simp only at h
    split at h
    · cases h
    · split at h
      · split at h
        · exact within_of_suffixEntry h
        · cases h
      · split at h
        · cases h
        · split at h
          · exact within_of_plainEntry h
          · split at h
            · exact within_of_plainEntry h
            · cases h

lemma within_of_mem_requested {specs : List Text} (h : r ∈ requested size specs) :
    Within size r := by
  obtain ⟨e, he, hr⟩ := List.mem_filterMap.1 h
  obtain ⟨entry, -, rfl⟩ := List.mem_map.1 ((List.takeWhile_sublist _).mem he)
  cases hx : readEntry size entry with
  | malformed => rw [hx] at hr; cases hr
  | past => rw [hx] at hr; cases hr
  | range x =>
    rw [hx] at hr
    cases hr
    exact within_of_readEntry hx

lemma within_insertIdx {rs : List ByteRange} (hs : ∀ x ∈ rs, Within size x) (hr : Within size r)
    (i : Nat) : ∀ x ∈ rs.insertIdx i r, Within size x := by
  intro x hx
  rcases List.eq_or_mem_of_mem_insertIdx hx with rfl | hm
  · exact hr
  · exact hs x hm

/-- Joining a range with those that it reaches does not lead out of the content. -/
lemma within_absorb (fuel : Nat) {rs : List ByteRange} (hs : ∀ x ∈ rs, Within size x)
    (hr : Within size r) (place : Option Nat) : ∀ x ∈ absorb fuel rs r place, Within size x := by
  induction fuel generalizing rs r place with
  | zero => exact within_insertIdx hs hr _
  | succ fuel ih =>
    unfold absorb
    split
    · exact within_insertIdx hs hr _
    · next i hi =>
      refine ih (fun x hx => hs x (List.mem_of_mem_eraseIdx hx)) ?_ _
      cases hg : rs[i]? with
      | none => exact hr
      | some s => exact hr.hull (hs s (List.mem_of_getElem? hg))

lemma within_sum {rs : List ByteRange} (hs : ∀ x ∈ rs, Within size x) :
    ∀ x ∈ sum rs, Within size x := by
  have hf : ∀ (rs acc : List ByteRange), (∀ x ∈ acc, Within size x) → (∀ x ∈ rs, Within size x) →
      ∀ x ∈ rs.foldl add acc, Within size x := by
    intro rs
    induction rs with
    | nil => exact fun acc ha _ => ha
    | cons r rs ih =>
      intro acc ha hr
      rw [List.forall_mem_cons] at hr
      exact ih _ (within_absorb _ ha hr.1 none) hr.2
  exact hf rs [] (fun x hx => absurd hx List.not_mem_nil) hs

/-- **Selected ranges lie in the content**, and there is at least one. -/
theorem within_of_select {lines : List Text} {rs : List ByteRange}
    (h : select lines (some size) = .parts rs) : rs ≠ [] ∧ ∀ x ∈ rs, Within size x := by
  unfold select at h
  split at h
  · cases h
  · split at h
    · cases h
    · next hne =>
      cases h
      exact ⟨hne, within_sum fun x hx => within_of_mem_requested hx⟩

lemma select_eq_whole_iff {lines : List Text} {length : Option Nat} :
    select lines length = .whole ↔ ∀ line ∈ lines, bytesUnit? line = none := by
  unfold select
  rw [← List.filterMap_eq_nil_iff]
  constructor
  · intro h
    split at h
    · assumption
    · split at h <;> cases h
  · intro h
    rw [h]

end Docroot.ByteRange

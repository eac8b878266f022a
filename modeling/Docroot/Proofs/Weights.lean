import Mathlib.Data.List.Induction
import Mathlib.Tactic.Common
import Mathlib.Tactic.Ring
import Docroot.Header.Quality
import Docroot.Proofs.Visible

/-!
The weights of a list. A weight is 0 or 1 with up to three digits after a point, at most 1, and it
is read in thousandths; a text of any other form is not read.
-/

namespace Docroot

namespace Text

lemma digitsValue_snoc (s : Text) (c : Char) :
    digitsValue (s ++ [c]) = 10 * digitsValue s + (c.toNat - 48) := by
  simp [digitsValue, List.foldl_append]

lemma digitsValue_append_zeros (s : Text) (k : Nat) :
    digitsValue (s ++ List.replicate k '0') = digitsValue s * 10 ^ k := by
  induction k with
  | zero => simp
  | succ k ih =>
    have hzero : '0'.toNat - 48 = 0 := rfl
    rw [List.replicate_succ', ← List.append_assoc, digitsValue_snoc, ih, hzero, pow_succ]
    ring

lemma eq_zeros_of_digitsValue {s : Text} (hs : ∀ c ∈ s, c.isDigit = true)
    (h : digitsValue s = 0) : s = List.replicate s.length '0' := by
  induction s using List.reverseRecOn with
  | nil => rfl
  | append_singleton s c ih =>
    obtain ⟨hs, hc⟩ := List.forall_mem_append.1 hs
    have hlow := (toNat_of_isDigit (hc c (List.mem_singleton_self c))).1
    rw [digitsValue_snoc] at h
    have hchar : c = '0' := Char.toNat_inj.1 (show c.toNat = 48 by omega)
    have hrest : s = List.replicate s.length '0' := ih hs (by omega)
    rw [List.length_append, List.length_singleton, List.replicate_succ', ← hrest, hchar]

end Text

namespace Quality

open Text

inductive Numeral : Text → Nat → Prop
  | zero : Numeral ['0'] 0
  | fraction {digits : Text} {n : Nat} (hl : digits.length ≤ 3)
      (hd : ∀ c ∈ digits, c.isDigit = true)
      (hn : n * 10 ^ digits.length = 1000 * digitsValue digits) :
      Numeral ('0' :: '.' :: digits) n
  | one : Numeral ['1'] 1000
  | ones {k : Nat} (hk : k ≤ 3) : Numeral ('1' :: '.' :: List.replicate k '0') 1000

lemma thousandths?_eq_some_iff {fraction : Text} {n : Nat} :
    thousandths? fraction = some n ↔ fraction.length ≤ 3 ∧ (∀ c ∈ fraction, c.isDigit = true) ∧
      n * 10 ^ fraction.length = 1000 * digitsValue fraction := by
  unfold thousandths?
  simp only [List.all_eq_true, digitsValue_append_zeros]
  by_cases h : fraction.length ≤ 3 ∧ ∀ c ∈ fraction, c.isDigit = true
  · have hpow : 10 ^ (3 - fraction.length) * 10 ^ fraction.length = 1000 := by
      rw [← Nat.pow_add, Nat.sub_add_cancel h.1]
    have hpos : 0 < 10 ^ fraction.length := Nat.pow_pos (by decide)
    rw [if_pos h, Option.some.injEq]
    constructor
    · intro hn
      refine ⟨h.1, h.2, ?_⟩
      calc n * 10 ^ fraction.length
          = digitsValue fraction * (10 ^ (3 - fraction.length) * 10 ^ fraction.length) := by
            rw [← hn, Nat.mul_assoc]
        _ = 1000 * digitsValue fraction := by rw [hpow, Nat.mul_comm]
    · rintro ⟨-, -, hn⟩
      apply Nat.eq_of_mul_eq_mul_right hpos
      calc digitsValue fraction * 10 ^ (3 - fraction.length) * 10 ^ fraction.length
          = digitsValue fraction * 1000 := by rw [Nat.mul_assoc, hpow]
        _ = n * 10 ^ fraction.length := by rw [hn, Nat.mul_comm]
  · rw [if_neg h]
    constructor
    · intro hn
      cases hn
    · rintro ⟨hl, hd, -⟩
      exact absurd ⟨hl, hd⟩ h

lemma thousandths?_zeros {k : Nat} (hk : k ≤ 3) :
    thousandths? (List.replicate k '0') = some 0 := by
  refine thousandths?_eq_some_iff.2 ⟨by simpa using hk, ?_, ?_⟩
  · intro c hc
    rw [List.eq_of_mem_replicate hc]
    rfl
  · have hempty : digitsValue [] = 0 := rfl
    have hvalue := digitsValue_append_zeros [] k
    rw [List.nil_append, hempty, Nat.zero_mul] at hvalue
    rw [hvalue, Nat.zero_mul, Nat.mul_zero]

/-- **Weights**: a text is read as a weight just when it is one. -/
theorem weight?_eq_some_iff {s : Text} {n : Nat} : weight? s = some n ↔ Numeral s n := by
  constructor
  · intro h
    unfold weight? at h
    cases hcut : cutAt '.' s with
    | none =>
      rw [hcut] at h
      -- without a point the fraction is empty
      have hnone : thousandths? [] = some 0 := rfl
      simp only [Option.getD_none, hnone, Option.bind_some] at h
      split_ifs at h with hzero hone
      · cases h
        rw [hzero]
        exact .zero
      · cases h
        rw [hone.1]
        exact .one
    | some parts =>
      obtain ⟨whole, fraction⟩ := parts
      obtain rfl := cutAt_eq_some hcut
      rw [hcut] at h
      obtain ⟨m, hm, h⟩ := Option.bind_eq_some_iff.1 h
      obtain ⟨hl, hd, hv⟩ := thousandths?_eq_some_iff.1 hm
      split_ifs at h with hzero hone
      · cases h
        rw [hzero]
        exact .fraction hl hd hv
      · cases h
        obtain ⟨hwhole, rfl⟩ := hone
        -- behind a one only zeros are within the bound
        have hzeros : fraction = List.replicate fraction.length '0' :=
          eq_zeros_of_digitsValue hd (by omega)
        rw [hwhole, hzeros]
        exact .ones hl
  · intro h
    cases h with
    | zero => rfl
    | one => rfl
    | fraction hl hd hn =>
      have hm := thousandths?_eq_some_iff.2 ⟨hl, hd, hn⟩
      simp [weight?, cutAt, hm]
    | ones hk => simp [weight?, cutAt, thousandths?_zeros hk]

lemma Numeral.char_bounds {v : Text} {n : Nat} (h : Numeral v n) :
    ∀ c ∈ v, 46 ≤ c.toNat ∧ c.toNat ≤ 57 := by
  have hzero : 46 ≤ '0'.toNat ∧ '0'.toNat ≤ 57 := by decide
  have hpoint : 46 ≤ '.'.toNat ∧ '.'.toNat ≤ 57 := by decide
  have hone : 46 ≤ '1'.toNat ∧ '1'.toNat ≤ 57 := by decide
  cases h with
  | zero => exact List.forall_mem_singleton.2 hzero
  | one => exact List.forall_mem_singleton.2 hone
  | fraction hl hd hn =>
    refine List.forall_mem_cons.2 ⟨hzero, List.forall_mem_cons.2 ⟨hpoint, fun c hc => ?_⟩⟩
    have hc := toNat_of_isDigit (hd c hc)
    omega
  | ones hk =>
    refine List.forall_mem_cons.2 ⟨hone, List.forall_mem_cons.2 ⟨hpoint, fun c hc => ?_⟩⟩
    rw [List.eq_of_mem_replicate hc]
    exact hzero

end Quality

end Docroot

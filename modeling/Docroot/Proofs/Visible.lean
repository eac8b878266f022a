import Mathlib.Tactic.Common
import Docroot.Header.Map
import Docroot.Text.Numeral

/-!
Texts of visible ASCII characters, blanks and tabs. Such a text can stand in a header, one octet for
each character, and is read from there as it was written.
-/

namespace Docroot

namespace Text

/-- A visible ASCII character, the blank or the tab. -/
def VisibleChar (c : Char) : Prop := c.toNat = 9 ∨ 32 ≤ c.toNat ∧ c.toNat ≤ 126

instance (c : Char) : Decidable (VisibleChar c) :=
  inferInstanceAs (Decidable (c.toNat = 9 ∨ 32 ≤ c.toNat ∧ c.toNat ≤ 126))

def Visible (s : Text) : Prop := ∀ c ∈ s, VisibleChar c

instance (s : Text) : Decidable s.Visible := List.decidableBAll VisibleChar s

@[simp] lemma visible_nil : Visible [] := fun _ h => absurd h List.not_mem_nil

@[simp] lemma visible_cons {c : Char} {s : Text} : Visible (c :: s) ↔ VisibleChar c ∧ Visible s :=
  List.forall_mem_cons

@[simp] lemma visible_append {s t : Text} : Visible (s ++ t) ↔ Visible s ∧ Visible t :=
  List.forall_mem_append

lemma utf8_cons_of_visible {c : Char} (h : VisibleChar c) (s : Text) :
    utf8 (c :: s) = c.toNat.toUInt8 :: utf8 s := by
  have hc : String.utf8EncodeChar c = [c.toNat.toUInt8] := by
    have hv : c.val.toNat ≤ 127 := by
      unfold VisibleChar Char.toNat at h
      omega
    unfold String.utf8EncodeChar
    simp only [hv, if_true]
    rfl
  show String.utf8EncodeChar c ++ utf8 s = _
  rw [hc]
  rfl

lemma toNat_ofNat (b : UInt8) : (Char.ofNat b.toNat).toNat = b.toNat := by
  have hv : b.toNat.isValidChar := Or.inl (Nat.lt_trans b.toNat_lt (by decide))
  rw [Char.ofNat, dif_pos hv]
  rfl

lemma toNat_of_isDigit {c : Char} (h : c.isDigit = true) : 48 ≤ c.toNat ∧ c.toNat ≤ 57 := by
  simp only [Char.isDigit, Bool.and_eq_true, decide_eq_true_eq, UInt32.le_iff_toNat_le] at h
  exact h

lemma visible_of_isDigit {s : Text} (h : ∀ c ∈ s, c.isDigit = true) : Visible s := by
  intro c hc
  have hd := toNat_of_isDigit (h c hc)
  unfold VisibleChar
  omega

lemma isDigit_of_mem_decimal {n : Nat} {c : Char} (hc : c ∈ decimal n) : c.isDigit = true :=
  Nat.isDigit_of_mem_toDigits (by decide) (by decide) hc

lemma decimal_ne_nil (n : Nat) : decimal n ≠ [] :=
  List.length_pos_iff.1 Nat.length_toDigits_pos

lemma visible_decimal (n : Nat) : Visible (decimal n) :=
  visible_of_isDigit fun _ hc => isDigit_of_mem_decimal hc

end Text

open Text

lemma toNat_toUInt8 {c : Char} (h : VisibleChar c) : (c.toNat.toUInt8).toNat = c.toNat := by
  unfold VisibleChar at h
  simp only [Nat.toUInt8, UInt8.toNat_ofNat']
  omega

lemma octet_cases {c : Char} (h : VisibleChar c) :
    c.toNat.toUInt8 = 9 ∨ (32 ≤ c.toNat.toUInt8 ∧ c.toNat.toUInt8 ≤ 126) := by
  have hn := toNat_toUInt8 h
  rcases h with h | ⟨h1, h2⟩
  · left
    rw [h]
    rfl
  · right
    rw [UInt8.le_iff_toNat_le, UInt8.le_iff_toNat_le, hn]
    exact ⟨h1, h2⟩

lemma Text.Visible.octet_of_mem {s : Text} (h : s.Visible) {b : UInt8} (hb : b ∈ utf8 s) :
    b = 9 ∨ (32 ≤ b ∧ b ≤ 126) := by
  induction s with
  | nil => exact absurd hb List.not_mem_nil
  | cons c s ih =>
    rw [visible_cons] at h
    rw [utf8_cons_of_visible h.1, List.mem_cons] at hb
    rcases hb with rfl | hb
    · exact octet_cases h.1
    · exact ih h.2 hb

theorem Headers.value?_of_visible {s : Text} (h : s.Visible) : value? s = some (utf8 s) := by
  have ha : (utf8 s).all (fun b => (32 ≤ b && b != 127) || b == 9) = true := by
    induction s with
    | nil => rfl
    | cons c s ih =>
      rw [visible_cons] at h
      rw [utf8_cons_of_visible h.1, List.all_cons, ih h.2, Bool.and_true]
      rcases octet_cases h.1 with h9 | ⟨h1, h2⟩
      · rw [h9]
        rfl
      · have hd : c.toNat.toUInt8 ≠ 127 := by
          intro he
          rw [he] at h2
          exact absurd h2 (by decide)
        simp [h1, hd]
  unfold value?
  rw [if_pos ha]

theorem Bytes.visible?_utf8 {s : Text} (h : s.Visible) : Bytes.visible? (utf8 s) = some s := by
  have hp : (utf8 s).all (fun x => x == 9 || (32 ≤ x && x ≤ 126)) = true ∧
      (utf8 s).map (fun x => Char.ofNat x.toNat) = s := by
    induction s with
    | nil => exact ⟨rfl, rfl⟩
    | cons c s ih =>
      rw [visible_cons] at h
      obtain ⟨ha, hm⟩ := ih h.2
      rw [utf8_cons_of_visible h.1]
      refine ⟨?_, by rw [List.map_cons, hm, toNat_toUInt8 h.1, Char.ofNat_toNat]⟩
      rcases octet_cases h.1 with h9 | ⟨h1, h2⟩
      · rw [h9, List.all_cons, ha]
        rfl
      · simp [h1, h2, ha]
  unfold visible?
  rw [if_pos hp.1, hp.2]

theorem Bytes.eq_utf8_of_visible? {b : Bytes} {s : Text} (h : visible? b = some s) :
    s.Visible ∧ b = utf8 s := by
  unfold visible? at h
  split at h
  · next hall =>
    obtain rfl := Option.some.inj h
    clear h
    induction b with
    | nil => exact ⟨visible_nil, rfl⟩
    | cons x b ih =>
      rw [List.all_cons, Bool.and_eq_true] at hall
      obtain ⟨hv, hb⟩ := ih hall.2
      have hx : VisibleChar (Char.ofNat x.toNat) := by
        have hx := hall.1
        simp only [Bool.or_eq_true, Bool.and_eq_true, beq_iff_eq, decide_eq_true_eq,
          UInt8.le_iff_toNat_le] at hx
        unfold VisibleChar
        rw [toNat_ofNat]
        rcases hx with rfl | hx
        · exact Or.inl rfl
        · exact Or.inr hx
      refine ⟨visible_cons.2 ⟨hx, hv⟩, ?_⟩
      rw [List.map_cons, utf8_cons_of_visible hx, toNat_ofNat, ← hb]
      simp
  · cases h

end Docroot

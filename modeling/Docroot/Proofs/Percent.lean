import Mathlib.Data.List.TakeWhile
import Mathlib.Tactic.Common
import Docroot.Proofs.Visible
import Docroot.Text.Blank
import Docroot.Text.Percent

/-!
Percent-coding, written and read. Whatever is escaped besides what has to be escaped in a path, the
written form consists of graphic characters that have no meaning of their own in a location, and
reading it gives the text back.
-/

namespace Docroot.Text

/-- A visible ASCII character that is no blank. -/
def GraphicChar (c : Char) : Prop := 33 ≤ c.toNat ∧ c.toNat ≤ 126

instance (c : Char) : Decidable (GraphicChar c) :=
  inferInstanceAs (Decidable (33 ≤ c.toNat ∧ c.toNat ≤ 126))

def Graphic (s : Text) : Prop := ∀ c ∈ s, GraphicChar c

instance (s : Text) : Decidable s.Graphic := List.decidableBAll GraphicChar s

lemma GraphicChar.visible {c : Char} (h : GraphicChar c) : VisibleChar c :=
  Or.inr ⟨by have := h.1; omega, h.2⟩

lemma Graphic.visible {s : Text} (h : s.Graphic) : s.Visible := fun c hc => (h c hc).visible

lemma Graphic.append {s t : Text} (hs : s.Graphic) (ht : t.Graphic) : (s ++ t).Graphic :=
  List.forall_mem_append.2 ⟨hs, ht⟩

lemma Graphic.cons {c : Char} {s : Text} (hc : GraphicChar c) (hs : s.Graphic) :
    Graphic (c :: s) :=
  List.forall_mem_cons.2 ⟨hc, hs⟩

lemma strip_of_forall {p : Char → Bool} {s : Text} (h : ∀ c ∈ s, p c = false) : strip p s = s := by
  have hd : ∀ x : Text, (∀ c ∈ x, p c = false) → x.dropWhile p = x := fun x hx =>
    List.dropWhile_eq_self_iff.2 fun hl => by simp [hx _ (List.getElem_mem hl)]
  rw [strip, dropEndWhile, hd s h, hd s.reverse fun c hc => h c (List.mem_reverse.1 hc),
    List.reverse_reverse]

lemma Graphic.trim {s : Text} (h : s.Graphic) : trim s = s := by
  refine strip_of_forall fun c hc => ?_
  obtain ⟨h1, h2⟩ := h c hc
  simp only [isBlank, blankRanges, List.any_cons, List.any_nil, Bool.or_false, Bool.or_eq_false_iff,
    Bool.and_eq_false_iff, decide_eq_false_iff_not]
  omega

/-! ### One octet -/

def writtenOctet (escaped : UInt8 → Bool) (b : UInt8) : Text :=
  if escaped b then percentEscape b else [Char.ofNat b.toNat]

/-- A character that the written form of a path may hold. -/
structure WrittenChar (c : Char) : Prop where
  graphic : GraphicChar c
  plain : c ≠ '?' ∧ c ≠ '#'

lemma upperHexDigit_spec : ∀ n < 16,
    GraphicChar (upperHexDigit n) ∧ upperHexDigit n ≠ '?' ∧ upperHexDigit n ≠ '#' ∧
      hexDigit? (Char.ofNat (upperHexDigit n).toNat.toUInt8.toNat) = some n := by
  decide

lemma utf8_percentEscape (b : UInt8) :
    utf8 (percentEscape b) = [0x25, (upperHexDigit (b.toNat / 16)).toNat.toUInt8,
      (upperHexDigit (b.toNat % 16)).toNat.toUInt8] := by
  have hb := b.toNat_lt
  obtain ⟨hh, -⟩ := upperHexDigit_spec (b.toNat / 16) (by omega)
  obtain ⟨hl, -⟩ := upperHexDigit_spec (b.toNat % 16) (by omega)
  rw [percentEscape, utf8_cons_of_visible (by decide), utf8_cons_of_visible hh.visible,
    utf8_cons_of_visible hl.visible, utf8_nil]
  rfl

lemma escapedOctet?_upperHexDigit (b : UInt8) :
    escapedOctet? (upperHexDigit (b.toNat / 16)).toNat.toUInt8
      (upperHexDigit (b.toNat % 16)).toNat.toUInt8 = some b := by
  have hb := b.toNat_lt
  obtain ⟨-, -, -, hh⟩ := upperHexDigit_spec (b.toNat / 16) (by omega)
  obtain ⟨-, -, -, hl⟩ := upperHexDigit_spec (b.toNat % 16) (by omega)
  have hval : UInt8.ofNat (16 * (b.toNat / 16) + b.toNat % 16) = b := by
    rw [Nat.div_add_mod]
    exact UInt8.ofNat_toNat
  unfold escapedOctet?
  rw [hh, hl]
  exact congrArg some hval

lemma percentDecodeBytes_percentEscape (b : UInt8) (rest : Bytes) :
    percentDecodeBytes (utf8 (percentEscape b) ++ rest) = b :: percentDecodeBytes rest := by
  rw [utf8_percentEscape]
  show percentDecodeBytes (0x25 :: _ :: _ :: rest) = _
  rw [percentDecodeBytes, escapedOctet?_upperHexDigit]

lemma percentDecodeBytes_cons_of_ne {b : UInt8} (h : b ≠ 0x25) (rest : Bytes) :
    percentDecodeBytes (b :: rest) = b :: percentDecodeBytes rest := by
  rw [percentDecodeBytes]
  intro hi lo r hb
  exact absurd hb h

lemma bounds_of_escapedInPath {b : UInt8} (h : escapedInPath b = false) :
    33 ≤ b.toNat ∧ b.toNat ≤ 126 ∧ b ≠ 0x25 ∧ b ≠ 0x3F ∧ b ≠ 0x23 := by
  simp only [escapedInPath, Bool.or_eq_false_iff, decide_eq_false_iff_not, UInt8.lt_iff_toNat_lt,
    List.contains_eq_mem, List.mem_cons, List.not_mem_nil, or_false, not_or] at h
  obtain ⟨⟨h1, h2⟩, h20, -, h23, h25, -, -, h3F, -⟩ := h
  have hne : b.toNat ≠ 32 := fun he => h20 (UInt8.toNat_inj.1 he)
  have hlow : (0x20 : UInt8).toNat = 32 := rfl
  have hhigh : (0x7E : UInt8).toNat = 126 := rfl
  exact ⟨by omega, by omega, h25, h3F, h23⟩

section

variable {escaped : UInt8 → Bool} (he : ∀ b, escaped b = false → escapedInPath b = false)

include he

lemma writtenChar_of_mem_writtenOctet {b : UInt8} {c : Char} (hc : c ∈ writtenOctet escaped b) :
    WrittenChar c := by
  unfold writtenOctet at hc
  split at hc
  · have hb := b.toNat_lt
    obtain ⟨gh, qh, nh, -⟩ := upperHexDigit_spec (b.toNat / 16) (by omega)
    obtain ⟨gl, ql, nl, -⟩ := upperHexDigit_spec (b.toNat % 16) (by omega)
    simp only [percentEscape, List.mem_cons, List.not_mem_nil, or_false] at hc
    rcases hc with rfl | rfl | rfl
    · exact ⟨by decide, by decide⟩
    · exact ⟨gh, qh, nh⟩
    · exact ⟨gl, ql, nl⟩
  · next hb =>
    have hb : escaped b = false := by simpa using hb
    obtain ⟨h1, h2, -, hq, hn⟩ := bounds_of_escapedInPath (he b hb)
    have hval := toNat_ofNat b
    obtain rfl := List.mem_singleton.1 hc
    refine ⟨?_, fun h => hq ?_, fun h => hn ?_⟩
    · unfold GraphicChar
      omega
    · rw [h] at hval
      exact UInt8.toNat_inj.1 hval.symm
    · rw [h] at hval
      exact UInt8.toNat_inj.1 hval.symm

lemma percentDecodeBytes_writtenOctet (b : UInt8) (rest : Bytes) :
    percentDecodeBytes (utf8 (writtenOctet escaped b) ++ rest) = b :: percentDecodeBytes rest := by
  unfold writtenOctet
  split
  · exact percentDecodeBytes_percentEscape b rest
  · next hb =>
    have hb : escaped b = false := by simpa using hb
    obtain ⟨h1, h2, h25, -⟩ := bounds_of_escapedInPath (he b hb)
    have hval := toNat_ofNat b
    have hv : VisibleChar (Char.ofNat b.toNat) := Or.inr (by omega)
    rw [utf8_cons_of_visible hv, utf8_nil, hval]
    show percentDecodeBytes (UInt8.ofNat b.toNat :: rest) = _
    rw [UInt8.ofNat_toNat, percentDecodeBytes_cons_of_ne h25]

/-! ### Whole texts -/

lemma writtenChar_of_mem_percentEncode {s : Text} {c : Char} (hc : c ∈ percentEncode escaped s) :
    WrittenChar c := by
  obtain ⟨b, -, hb⟩ := List.mem_flatMap.1 hc
  exact writtenChar_of_mem_writtenOctet he hb

lemma percentDecodeBytes_flatMap (bytes rest : Bytes) :
    percentDecodeBytes (utf8 (bytes.flatMap (writtenOctet escaped)) ++ rest) =
      bytes ++ percentDecodeBytes rest := by
  induction bytes with
  | nil => rfl
  | cons b bytes ih =>
    rw [List.flatMap_cons, utf8_append, List.append_assoc, percentDecodeBytes_writtenOctet he, ih]
    rfl

/-- **Reading undoes writing.** -/
theorem percentDecode?_percentEncode (s : Text) :
    percentDecode? (percentEncode escaped s) = some s := by
  have h := percentDecodeBytes_flatMap he (utf8 s) []
  rw [List.append_nil, percentDecodeBytes, List.append_nil] at h
  unfold percentDecode?
  show ofUtf8? (percentDecodeBytes (utf8 ((utf8 s).flatMap (writtenOctet escaped)))) = _
  rw [h, ofUtf8?_utf8]

end

/-- Reading a written file name gives the file name back. -/
example : percentDecode? (percentEncode escapedInPath "/50% off?.txt".toList) =
    some "/50% off?.txt".toList := by decide +kernel

end Docroot.Text

import Docroot.Proofs.Percent
import Docroot.Proofs.Selection

/-!
Positions of any size. An entry of the grammar names positions, or a number of bytes, by decimal
numerals of any length. What it asks for is a matter of arithmetic; but a numeral that 64 bits do
not hold is read as no numeral at all, so that an entry with one counts as malformed, however large
the content.
-/

namespace Docroot

open Text

/-- A decimal numeral of any number of digits. -/
structure Numeral where
  digits : Text
  nonempty : digits ≠ []
  isDigit : ∀ c ∈ digits, c.isDigit = true

namespace Numeral

def value (x : Numeral) : Nat := digitsValue x.digits

/-- The number fits in 64 bits. -/
def Short (x : Numeral) : Prop := x.value < 2 ^ 64

instance (x : Numeral) : Decidable x.Short := inferInstanceAs (Decidable (x.value < 2 ^ 64))

variable (x : Numeral)

lemma toNat_of_mem {c : Char} (hc : c ∈ x.digits) : 48 ≤ c.toNat ∧ c.toNat ≤ 57 :=
  toNat_of_isDigit (x.isDigit c hc)

lemma graphic : x.digits.Graphic := by
  intro c hc
  obtain ⟨h1, h2⟩ := x.toNat_of_mem hc
  exact ⟨by omega, by omega⟩

lemma not_mem {c : Char} (h : c.isDigit = false) : c ∉ x.digits := by
  intro hc
  rw [x.isDigit c hc] at h
  cases h

lemma isEmpty : x.digits.isEmpty = false := by
  simpa using x.nonempty

lemma word?_digits : word? x.digits = if x.Short then some x.value else none := by
  have hdigits : digits? x.digits = some x.value := by
    have hall : x.digits.all Char.isDigit = true := List.all_eq_true.2 x.isDigit
    unfold digits?
    rw [x.isEmpty, hall]
    rfl
  have hbound : x.value ≤ maxWord ↔ x.Short := by
    unfold maxWord Short
    omega
  unfold word?
  simp only
  split
  · next r hplus =>
    have hmem : '+' ∈ x.digits := by
      rw [hplus]
      exact List.mem_cons_self
    exact absurd hmem (x.not_mem rfl)
  · rw [hdigits]
    by_cases h : x.Short
    · simp [h, hbound]
    · have hlt : maxWord < x.value := Nat.lt_of_not_le fun hle => h (hbound.1 hle)
      simp [h, hlt]

end Numeral

namespace ByteRange

/-- An entry as the grammar has it: from one position to another, from a position on, or so many
bytes at the end. -/
inductive Spec
  | between (first last : Numeral) (ordered : first.value ≤ last.value)
  | onward (first : Numeral)
  | final (count : Numeral)

namespace Spec

def numerals : Spec → List Numeral
  | between first last _ => [first, last]
  | onward first => [first]
  | final count => [count]

def write : Spec → Text
  | between first last _ => first.digits ++ '-' :: last.digits
  | onward first => first.digits ++ ['-']
  | final count => '-' :: count.digits

/-- What the entry asks for of a content of `size` bytes. -/
def range? (size : Nat) : Spec → Option ByteRange
  | between first last _ =>
    if first.value < size then some ⟨first.value, min last.value (size - 1)⟩ else none
  | onward first => if first.value < size then some ⟨first.value, size - 1⟩ else none
  | final count => if 0 < count.value then some ⟨size - min count.value size, size - 1⟩ else none

/-- All its numerals are short. -/
def Short (s : Spec) : Prop := ∀ x ∈ s.numerals, x.Short

instance (s : Spec) : Decidable s.Short := List.decidableBAll _ s.numerals

def entry (size : Nat) (s : Spec) : Entry := (s.range? size).elim .past .range

variable {size : Nat}

lemma readEntry_of_cut {entry l r : Text} (hc : cutAt '-' entry = some (l, r)) (hl : l.Graphic)
    (hr : r.Graphic) (hdash : '-' ∉ r) :
    readEntry size entry =
      if l.isEmpty then
        match word? r with
        | some count => suffixEntry size count
        | none => .malformed
      else match word? l with
        | none => .malformed
        | some first =>
          if r.isEmpty then plainEntry size first none
          else match word? r with
            | some last => plainEntry size first (some last)
            | none => .malformed := by
  have hcontains : r.contains '-' = false := by simpa using hdash
  unfold readEntry
  rw [hc]
  simp only [hl.trim, hr.trim, hcontains]
  rfl

lemma plainEntry_eq {first : Nat} {last : Option Nat} (h : ∀ l ∈ last, first ≤ l) :
    plainEntry size first last =
      (if first < size then some ⟨first, (last.map (min · (size - 1))).getD (size - 1)⟩
        else none : Option ByteRange).elim .past .range := by
  have hord : last.any (fun l => decide (l < first)) = false := by
    cases last with
    | none => rfl
    | some l => simpa using h l rfl
  unfold plainEntry
  rw [hord, if_neg Bool.false_ne_true]
  by_cases hs : first < size
  · rw [if_neg (Nat.not_le.2 hs), if_pos hs]
    rfl
  · rw [if_pos (Nat.not_lt.1 hs), if_neg hs]
    rfl

lemma suffixEntry_eq (hs : 1 ≤ size) (count : Nat) :
    suffixEntry size count =
      (if 0 < count then some ⟨size - min count size, size - 1⟩ else none : Option ByteRange).elim
        .past .range := by
  unfold suffixEntry
  by_cases hc : 0 < count
  · have hfirst : size - min count size = size - count := by omega
    rw [if_neg (by omega), if_pos hc, hfirst]
    rfl
  · rw [if_pos (by omega), if_neg hc]
    rfl

/-- **Reading an entry**: arithmetic, as long as all its numerals are short. -/
theorem readEntry_write (hs : 1 ≤ size) (s : Spec) :
    readEntry size s.write = if s.Short then s.entry size else .malformed := by
  cases s with
  | between first last ordered =>
    have hcut : cutAt '-' (write (between first last ordered)) = some (first.digits, last.digits) :=
      cutAt_append (first.not_mem rfl) last.digits
    have hshort : (between first last ordered).Short ↔ first.Short ∧ last.Short := by
      simp [Short, numerals]
    rw [readEntry_of_cut hcut first.graphic last.graphic (last.not_mem rfl), first.isEmpty,
      last.isEmpty, first.word?_digits, last.word?_digits]
    -- the first numeral is read before the second, so its length decides first
    by_cases hf : first.Short
    · by_cases hl : last.Short
      · simp only [hshort, hf, hl, and_self, if_true, Bool.false_eq_true, if_false]
        exact plainEntry_eq fun l hm => by cases hm; exact ordered
      · simp [hshort, hf, hl]
    · simp [hshort, hf]
  | onward first =>
    have hcut : cutAt '-' (write (onward first)) = some (first.digits, []) :=
      cutAt_append (first.not_mem rfl) []
    have hshort : (onward first).Short ↔ first.Short := by
      simp [Short, numerals]
    rw [readEntry_of_cut hcut first.graphic (fun c hc => absurd hc List.not_mem_nil)
      List.not_mem_nil, first.isEmpty, first.word?_digits]
    by_cases hf : first.Short
    · simp only [hshort, hf, if_true, List.isEmpty_nil, Bool.false_eq_true, if_false]
      exact plainEntry_eq fun l hm => by cases hm
    · simp [hshort, hf]
  | final count =>
    have hcut : cutAt '-' (write (final count)) = some ([], count.digits) := rfl
    have hshort : (final count).Short ↔ count.Short := by
      simp [Short, numerals]
    rw [readEntry_of_cut hcut (fun c hc => absurd hc List.not_mem_nil) count.graphic
      (count.not_mem rfl), count.word?_digits]
    by_cases hc : count.Short
    · simp only [hshort, hc, if_true, List.isEmpty_nil]
      exact suffixEntry_eq hs count.value
    · simp [hshort, hc]

/-! ### A line with one entry -/

def line (s : Spec) : Text := "bytes=".toList ++ s.write

lemma graphic_write (s : Spec) : s.write.Graphic := by
  have hdash : GraphicChar '-' := by decide
  cases s with
  | between first last ordered => exact first.graphic.append (Graphic.cons hdash last.graphic)
  | onward first =>
    exact first.graphic.append (Graphic.cons hdash fun c hc => absurd hc List.not_mem_nil)
  | final count => exact Graphic.cons hdash count.graphic

lemma comma_not_mem_write (s : Spec) : ',' ∉ s.write := by
  cases s with
  | between first last ordered =>
    simp [write, first.not_mem (c := ',') rfl, last.not_mem (c := ',') rfl]
  | onward first => simp [write, first.not_mem (c := ',') rfl]
  | final count => simp [write, count.not_mem (c := ',') rfl]

lemma write_ne_nil (s : Spec) : s.write ≠ [] := by
  cases s <;> simp [write]

lemma bytesUnit?_line (s : Spec) : bytesUnit? s.line = some s.write := by
  have hunit : Graphic "bytes=".toList := by decide
  have htrim : trim s.line = "bytes=".toList ++ s.write := (hunit.append s.graphic_write).trim
  unfold bytesUnit?
  rw [htrim]
  rfl

lemma entries_write (s : Spec) : entries s.write = [s.write] := by
  unfold entries
  rw [splitOn_of_not_mem s.comma_not_mem_write]
  simp [s.graphic_write.trim, s.write_ne_nil]

lemma requested_line (s : Spec) :
    requested size ([s.line].filterMap bytesUnit?) =
      (([readEntry size s.write]).takeWhile Entry.wellFormed).filterMap Entry.range? := by
  simp [requested, bytesUnit?_line, entries_write]

/-- What the arithmetic selects for a line that asks for this entry alone. -/
def selection (size : Nat) (s : Spec) : Selection :=
  match s.range? size with
  | some r => .parts [r]
  | none => .unsatisfiable

lemma select_line_eq (s : Spec) :
    select [s.line] (some size) =
      match readEntry size s.write with
      | .range r => .parts [r]
      | _ => .unsatisfiable := by
  have hunits : [s.line].filterMap bytesUnit? ≠ [] := by
    simp [bytesUnit?_line]
  rw [select_of_units hunits, requested_line]
  cases readEntry size s.write <;> rfl

/-- **Positions of any size**: an entry whose numerals are all short is read as the arithmetic has
it, cut off at the end of the content; any other entry counts as malformed, and a line that asks for
it alone selects nothing. So the arithmetic holds just for the entries that are short or lie past
the end. -/
theorem select_line {size : Nat} (hs : 1 ≤ size) (s : Spec) :
    (s.Short → readEntry size s.write = s.entry size ∧
        select [s.line] (some size) = s.selection size) ∧
      (¬ s.Short → readEntry size s.write = .malformed ∧
        select [s.line] (some size) = .unsatisfiable) ∧
      (select [s.line] (some size) = s.selection size ↔ s.Short ∨ s.range? size = none) := by
  have hread := readEntry_write hs s
  have hselect := @select_line_eq size s
  have hshort : s.Short → select [s.line] (some size) = s.selection size := by
    intro h
    rw [hselect, hread, if_pos h, entry, selection]
    cases s.range? size <;> rfl
  have hlong : ¬ s.Short → select [s.line] (some size) = .unsatisfiable := by
    intro h
    rw [hselect, hread, if_neg h]
  refine ⟨fun h => ⟨by rw [hread, if_pos h], hshort h⟩,
    fun h => ⟨by rw [hread, if_neg h], hlong h⟩, ?_⟩
  constructor
  · intro h
    by_cases hs : s.Short
    · exact Or.inl hs
    · rw [hlong hs, selection] at h
      cases hr : s.range? size with
      | none => exact Or.inr rfl
      | some r =>
        rw [hr] at h
        cases h
  -- a spec that asks for nothing there is unsatisfiable however long its numerals are
  · rintro (h | h)
    · exact hshort h
    · by_cases hs : s.Short
      · exact hshort hs
      · rw [hlong hs, selection, h]

/-- The greatest number of 64 bits is read, zeros before it or not; the next one is not. -/
theorem select_line_sample :
    let greatest : Numeral := ⟨"00018446744073709551615".toList, by decide, List.all_eq_true.1 rfl⟩
    let next : Numeral := ⟨"18446744073709551616".toList, by decide, List.all_eq_true.1 rfl⟩
    1 ≤ 100 ∧ (final greatest).Short ∧
      select ["bytes=-00018446744073709551615".toList] (some 100) = .parts [⟨0, 99⟩] ∧
      ¬ (final next).Short ∧ readEntry 100 "-18446744073709551616".toList = .malformed := by
  intro greatest next
  have hone : 1 ≤ 100 := by decide
  have hshort : (final greatest).Short := by decide +kernel
  have hlong : ¬ (final next).Short := by decide +kernel
  exact ⟨hone, hshort, ((select_line hone (final greatest)).1 hshort).2, hlong,
    ((select_line hone (final next)).2.1 hlong).1⟩

/-- A last position, or a number of bytes, that 64 bits do not hold is no error of syntax, and yet
the line selects nothing. -/
theorem overlong_last_refused :
    let zero : Numeral := ⟨"0".toList, by decide, List.all_eq_true.1 rfl⟩
    let long : Numeral := ⟨"18446744073709551616".toList, by decide, List.all_eq_true.1 rfl⟩
    let upTo : Spec := between zero long (by decide +kernel)
    (upTo.line = "bytes=0-18446744073709551616".toList ∧ upTo.range? 100 = some ⟨0, 99⟩ ∧
      select [upTo.line] (some 100) = .unsatisfiable) ∧
    (final long).line = "bytes=-18446744073709551616".toList ∧
      (final long).range? 100 = some ⟨0, 99⟩ ∧
      select [(final long).line] (some 100) = .unsatisfiable := by
  decide +kernel

end Spec

end ByteRange

end Docroot

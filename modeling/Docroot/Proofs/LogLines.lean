import Mathlib.Tactic.Common
import Docroot.Event
import Docroot.Proofs.Visible
import Docroot.Text.Split

/-!
Lines of the log. Warnings and errors are written in one line each just when no text of theirs has
a line break of its own; then the pieces between the line breaks of the log are these lines.
-/

namespace Docroot

namespace Text

def OneLine (s : Text) : Prop := '\n' ∉ s

instance (s : Text) : Decidable s.OneLine := inferInstanceAs (Decidable ('\n' ∉ s))

@[simp] lemma oneLine_nil : OneLine [] := List.not_mem_nil

@[simp] lemma oneLine_cons {c : Char} {s : Text} : OneLine (c :: s) ↔ c ≠ '\n' ∧ OneLine s := by
  simp [OneLine, eq_comm]

@[simp] lemma oneLine_append {s t : Text} : OneLine (s ++ t) ↔ OneLine s ∧ OneLine t := by
  simp [OneLine]

lemma oneLine_around {front s middle r : Text} (hf : front.OneLine) (hm : middle.OneLine) :
    OneLine (front ++ s ++ middle ++ r) ↔ s.OneLine ∧ r.OneLine := by
  simp [hf, hm]

lemma oneLine_iff_count {s : Text} : s.OneLine ↔ s.count '\n' = 0 := List.count_eq_zero.symm

lemma Visible.oneLine {s : Text} (h : s.Visible) : s.OneLine := by
  intro hm
  exact absurd (h _ hm) (by decide)

lemma oneLine_joinWith {sep : Text} (hs : sep.OneLine) {pieces : List Text}
    (h : ∀ s ∈ pieces, OneLine s) : (joinWith sep pieces).OneLine := by
  induction pieces with
  | nil => exact oneLine_nil
  | cons s r ih =>
    rw [List.forall_mem_cons] at h
    cases r with
    | nil => exact h.1
    | cons u r =>
      rw [joinWith_cons (List.cons_ne_nil u r), oneLine_append, oneLine_append]
      exact ⟨⟨h.1, hs⟩, ih h.2⟩

lemma oneLine_hexadecimal (n : Nat) : (hexadecimal n).OneLine := by
  unfold hexadecimal
  induction n using Nat.strongRecOn with
  | ind n ih =>
    rw [Nat.toDigits_eq_if (by decide)]
    split
    · simp
    · exact oneLine_append.2 ⟨ih (n / 16) (by omega), by simp⟩

lemma oneLine_quoted (s : Text) : (quoted s).OneLine := by
  have hc : ∀ c : Char, (quotedChar c).OneLine := by
    intro c
    unfold quotedChar
    split_ifs with _ _ _ hn
    all_goals try decide
    · simp only [oneLine_append]
      exact ⟨⟨by decide, oneLine_hexadecimal _⟩, by decide⟩
    · simpa using hn
  have hs : OneLine (s.flatMap quotedChar) := by
    intro hm
    obtain ⟨c, -, hmem⟩ := List.mem_flatMap.1 hm
    exact hc c hmem
  simp [quoted, hs]

lemma length_splitOn (sep : Char) (s : Text) : (splitOn sep s).length = s.count sep + 1 := by
  induction s with
  | nil => rfl
  | cons c r ih =>
    rw [splitOn]
    split
    · next h => simp [h, ih]
    · next h =>
      rw [List.count_cons_of_ne h, ← ih]
      cases hr : splitOn sep r with
      | nil => exact absurd hr (splitOn_ne_nil sep r)
      | cons piece pieces => rfl

end Text

namespace LogLine

open Text

def ofTrouble (lines : List LogLine) : List LogLine := lines.filter fun l => l.level.isTrouble

/-- What the lines add to the stream of warnings and errors is a row of complete lines: as many as
there are lines of trouble, each under the label of an error or of a warning. -/
def OneEach (lines : List LogLine) : Prop :=
  ∃ rows : List Text, splitOn '\n' (troubles lines) = rows ++ [[]] ∧
    rows.length = (ofTrouble lines).length ∧
    ∀ row ∈ rows, Level.error.label <+: row ∨ Level.warning.label <+: row

lemma isTrouble_of_mem {lines : List LogLine} {l : LogLine} (h : l ∈ ofTrouble lines) :
    l.level.isTrouble = true := by
  unfold ofTrouble at h
  exact (List.mem_filter.1 h).2

lemma oneLine_label (level : Level) : level.label.OneLine := by
  cases level <;> decide

lemma label_of_isTrouble {level : Level} (h : level.isTrouble = true) :
    level.label = Level.error.label ∨ level.label = Level.warning.label := by
  cases level
  case warning => exact Or.inr rfl
  case error => exact Or.inl rfl
  all_goals cases h

lemma count_write (l : LogLine) : l.write.count '\n' = l.text.count '\n' + 1 := by
  have hlabel := oneLine_iff_count.1 (oneLine_label l.level)
  simp [write, hlabel]

lemma splitOn_writes {lines : List LogLine} (h : ∀ l ∈ lines, l.text.OneLine) :
    splitOn '\n' (lines.flatMap write) = (lines.map fun l => l.level.label ++ l.text) ++ [[]] := by
  induction lines with
  | nil => rfl
  | cons l r ih =>
    rw [List.forall_mem_cons] at h
    have hl : (l.level.label ++ l.text).OneLine := oneLine_append.2 ⟨oneLine_label l.level, h.1⟩
    have hw : (l :: r).flatMap write =
        (l.level.label ++ l.text) ++ '\n' :: r.flatMap write := by
      simp [write]
    rw [hw, splitOn_append hl, ih h.2]
    rfl

lemma length_le_count (lines : List LogLine) :
    lines.length ≤ (lines.flatMap write).count '\n' := by
  induction lines with
  | nil => exact Nat.zero_le _
  | cons l r ih =>
    rw [List.flatMap_cons, List.count_append, count_write, List.length_cons]
    omega

/-- If there are no more line breaks than lines, each line has just the one at its end. -/
lemma oneLine_of_count {lines : List LogLine}
    (h : (lines.flatMap write).count '\n' = lines.length) : ∀ l ∈ lines, l.text.OneLine := by
  induction lines with
  | nil => exact fun l hl => absurd hl List.not_mem_nil
  | cons l r ih =>
    rw [List.flatMap_cons, List.count_append, count_write, List.length_cons] at h
    have hr := length_le_count r
    rw [List.forall_mem_cons]
    exact ⟨oneLine_iff_count.2 (by omega), ih (by omega)⟩

theorem oneEach_iff {lines : List LogLine} :
    OneEach lines ↔ ∀ l ∈ ofTrouble lines, l.text.OneLine := by
  constructor
  · rintro ⟨rows, hs, hl, -⟩
    refine oneLine_of_count ?_
    have hlen := length_splitOn '\n' (troubles lines)
    rw [hs, List.length_append, hl] at hlen
    exact (Nat.succ.inj hlen).symm
  · intro h
    refine ⟨_, splitOn_writes h, List.length_map _, fun row hrow => ?_⟩
    obtain ⟨l, hm, rfl⟩ := List.mem_map.1 hrow
    rcases label_of_isTrouble (isTrouble_of_mem hm) with hlabel | hlabel
    · exact Or.inl ⟨l.text, by rw [hlabel]⟩
    · exact Or.inr ⟨l.text, by rw [hlabel]⟩

end LogLine

namespace Event

open Text

/-- If the event is told as a warning or an error, it is told in one line. -/
def OneLine (e : Event) : Prop := e.line.level.isTrouble = true → e.line.text.OneLine

lemma oneLine_of_no_trouble {e : Event} (h : e.line.level.isTrouble = false) : e.OneLine :=
  fun ht => absurd (h.symm.trans ht) (by decide)

lemma oneLine_rejectedPath {raw : Text} (h : raw.OneLine) : (rejectedPath raw).OneLine :=
  fun _ => oneLine_append.2 ⟨by decide, h⟩

lemma oneLine_methodNotAllowed {method : Text} (h : method.OneLine) :
    (methodNotAllowed method).OneLine :=
  fun _ => oneLine_append.2 ⟨by decide, h⟩

lemma oneLine_droppedHeader {name : Text} (h : name.OneLine) (value : Text) :
    (droppedHeader name value).OneLine := by
  intro _
  simp only [line, oneLine_append]
  exact ⟨⟨⟨by decide, h⟩, by decide⟩, oneLine_quoted value⟩

lemma oneLine_unbuildableReply (status : Nat) : (unbuildableReply status).OneLine := by
  intro _
  simp only [line, oneLine_append]
  exact ⟨⟨by decide, (visible_decimal status).oneLine⟩, by decide⟩

lemma oneLine_streamFailed {cause : IoError} (h : cause.message.OneLine) :
    (streamFailed cause).OneLine :=
  fun _ => oneLine_append.2 ⟨by decide, h⟩

lemma oneLine_serveFailed_iff {path : Text} {failure : Failure} :
    (serveFailed path failure).OneLine ↔ path.OneLine ∧ failure.message.OneLine := by
  have htext : Text.OneLine ("Failed to serve resource ".toList ++ path ++ ": ".toList ++
      failure.message) ↔ path.OneLine ∧ failure.message.OneLine :=
    oneLine_around (by decide) (by decide)
  exact ⟨fun ho => htext.1 (ho rfl), fun hp _ => htext.2 hp⟩

lemma oneLine_aliasRejected_iff {path location : Text} :
    (aliasRejected path location).OneLine ↔ path.OneLine ∧ location.OneLine := by
  have htext : Text.OneLine ("Alias rejected: ".toList ++ path ++ " -> ".toList ++ location) ↔
      path.OneLine ∧ location.OneLine := oneLine_around (by decide) (by decide)
  exact ⟨fun ho => htext.1 (ho rfl), fun hp _ => htext.2 hp⟩

/-- The events are written in one line each just when each of them is told in one line. -/
theorem oneEach_iff {events : List Event} :
    LogLine.OneEach (events.map line) ↔ ∀ e ∈ events, e.OneLine := by
  rw [LogLine.oneEach_iff, LogLine.ofTrouble]
  simp only [List.mem_filter, List.mem_map]
  constructor
  · intro h e he ht
    exact h _ ⟨⟨e, he, rfl⟩, ht⟩
  · rintro h _ ⟨⟨e, he, rfl⟩, ht⟩
    exact h e he ht

end Event

end Docroot

import Mathlib.Data.List.Infix
import Mathlib.Tactic.Common
import Docroot.Proofs.TagLists
import Docroot.Proofs.Visible
import Docroot.Text.Split

/-!
Tags and their labels. A label is cut at its last two dashes, whatever stands before them. The label
of a resource of a site is two hexadecimal numerals with a dash between them; that of a compressed
form has a suffix behind two dashes. Such a tag is read from a list as it was written, and it stands
for a content just when the two numerals are those of the content.
-/

namespace Docroot

/-! ### Hexadecimal numerals -/

namespace Text

def hexDigits : Text := "0123456789abcdef".toList

lemma digitChar_mem_hexDigits : ∀ d < 16, Nat.digitChar d ∈ hexDigits := by decide

lemma digitChar_injective : ∀ d < 16, ∀ e < 16, Nat.digitChar d = Nat.digitChar e → d = e := by
  decide

lemma hexadecimal_eq (n : Nat) :
    hexadecimal n = if n < 16 then [Nat.digitChar n]
      else hexadecimal (n / 16) ++ [Nat.digitChar (n % 16)] :=
  Nat.toDigits_eq_if (by decide)

lemma mem_hexDigits_of_mem_hexadecimal (n : Nat) : ∀ c ∈ hexadecimal n, c ∈ hexDigits := by
  induction n using Nat.strongRecOn with
  | ind n ih =>
    rw [hexadecimal_eq]
    intro c hc
    split at hc
    · next hn =>
      rw [List.mem_singleton.1 hc]
      exact digitChar_mem_hexDigits n hn
    · next hn =>
      rcases List.mem_append.1 hc with hc | hc
      · exact ih (n / 16) (by omega) c hc
      · rw [List.mem_singleton.1 hc]
        exact digitChar_mem_hexDigits (n % 16) (by omega)

lemma hexadecimal_ne_nil (n : Nat) : hexadecimal n ≠ [] := by
  rw [hexadecimal_eq]
  split
  · exact List.cons_ne_nil _ _
  · exact List.append_ne_nil_of_right_ne_nil _ (List.cons_ne_nil _ _)

theorem hexadecimal_injective {m n : Nat} (h : hexadecimal m = hexadecimal n) : m = n := by
  induction m using Nat.strongRecOn generalizing n with
  | ind m ih =>
    rw [hexadecimal_eq m, hexadecimal_eq n] at h
    by_cases hm : m < 16
    · by_cases hn : n < 16
      · rw [if_pos hm, if_pos hn] at h
        exact digitChar_injective m hm n hn (List.cons.inj h).1
      · -- one digit against several
        rw [if_pos hm, if_neg hn, ← List.nil_append [Nat.digitChar m]] at h
        have hnil := (List.append_inj' h rfl).1
        exact absurd hnil.symm (hexadecimal_ne_nil _)
    · by_cases hn : n < 16
      · rw [if_neg hm, if_pos hn, ← List.nil_append [Nat.digitChar n]] at h
        have hnil := (List.append_inj' h rfl).1
        exact absurd hnil (hexadecimal_ne_nil _)
      · rw [if_neg hm, if_neg hn] at h
        obtain ⟨hq, hd⟩ := List.append_inj' h rfl
        have hdiv : m / 16 = n / 16 := ih (m / 16) (by omega) hq
        have hmod : m % 16 = n % 16 :=
          digitChar_injective _ (by omega) _ (by omega) (List.cons.inj hd).1
        omega

lemma visible_hexadecimal (n : Nat) : Visible (hexadecimal n) := by
  have h : Visible hexDigits := by decide
  exact fun c hc => h c (mem_hexDigits_of_mem_hexadecimal n c hc)

lemma not_mem_hexadecimal {c : Char} (hc : c ∉ hexDigits) (n : Nat) : c ∉ hexadecimal n :=
  fun h => hc (mem_hexDigits_of_mem_hexadecimal n c h)

end Text

namespace EntityTag

open Text

/-! ### Labels -/

/-- The label of a content: when it was modified, in milliseconds, and how long it is. -/
def labelOf (millis length : Nat) : Text := hexadecimal millis ++ '-' :: hexadecimal length

lemma splitOn_labelOf (millis length : Nat) :
    splitOn '-' (labelOf millis length) = [hexadecimal millis, hexadecimal length] := by
  have hd : '-' ∉ hexDigits := by decide
  rw [labelOf, splitOn_append (not_mem_hexadecimal hd millis),
    splitOn_of_not_mem (not_mem_hexadecimal hd length)]

theorem labelOf_injective {m m' l l' : Nat} (h : labelOf m l = labelOf m' l') :
    m = m' ∧ l = l' := by
  have hs : splitOn '-' (labelOf m l) = splitOn '-' (labelOf m' l') := by rw [h]
  rw [splitOn_labelOf, splitOn_labelOf] at hs
  obtain ⟨hm, hr⟩ := List.cons.inj hs
  exact ⟨hexadecimal_injective hm, hexadecimal_injective (List.cons.inj hr).1⟩

lemma visible_labelOf (millis length : Nat) : Visible (labelOf millis length) := by
  unfold labelOf
  simp only [visible_append, visible_cons, visible_hexadecimal, true_and, and_true]
  decide

lemma quote_not_mem_labelOf (millis length : Nat) : '"' ∉ labelOf millis length := by
  have hq : '"' ∉ hexDigits := by decide
  unfold labelOf
  simp only [List.mem_append, List.mem_cons, not_or]
  exact ⟨not_mem_hexadecimal hq millis, by decide, not_mem_hexadecimal hq length⟩

/-! ### Suffixes -/

/-- Two dashes, and behind them a visible text that has no quote and no two dashes in a row, and
does not begin with a dash. -/
def IsSuffix (s : Text) : Prop :=
  ∃ x : Text, s = '-' :: '-' :: x ∧ Visible x ∧ '"' ∉ x ∧ ¬ ['-', '-'] <:+: x ∧ x.head? ≠ some '-'

lemma IsSuffix.visible {s : Text} (h : IsSuffix s) : Visible s := by
  obtain ⟨x, rfl, hx, -⟩ := h
  exact visible_cons.2 ⟨by decide, visible_cons.2 ⟨by decide, hx⟩⟩

lemma beforeDashes?_cons (c : Char) (r : Text) :
    beforeDashes? (c :: r) =
      match beforeDashes? r with
      | some p => some (c :: p)
      | none => if ['-', '-'].isPrefixOf (c :: r) then some [] else none := rfl

lemma beforeDashes?_eq_none {s : Text} (h : ¬ ['-', '-'] <:+: s) : beforeDashes? s = none := by
  induction s with
  | nil => rfl
  | cons c r ih =>
    rw [List.infix_cons_iff, not_or] at h
    rw [beforeDashes?_cons]
    rw [ih h.2, if_neg]
    rw [List.isPrefixOf_iff_prefix]
    exact h.1

lemma beforeDashes?_ne_none {s : Text} (h : ['-', '-'] <:+: s) : beforeDashes? s ≠ none := by
  induction s with
  | nil => exact absurd (List.infix_nil.1 h) (List.cons_ne_nil _ _)
  | cons c r ih =>
    rw [beforeDashes?_cons]
    rcases hb : beforeDashes? r with _ | b
    · rw [if_pos]
      · exact Option.some_ne_none _
      · rw [List.isPrefixOf_iff_prefix]
        exact (List.infix_cons_iff.1 h).resolve_right fun hr => ih hr hb
    · exact Option.some_ne_none _

lemma beforeDashes?_append {r p : Text} (h : beforeDashes? r = some p) (a : Text) :
    beforeDashes? (a ++ r) = some (a ++ p) := by
  induction a with
  | nil => exact h
  | cons c a ih =>
    rw [List.cons_append]
    rw [beforeDashes?_cons]
    rw [ih]
    rfl

lemma exists_of_beforeDashes? {s b : Text} (h : beforeDashes? s = some b) :
    ∃ r, s = b ++ '-' :: '-' :: r ∧ ¬ ['-', '-'] <:+: '-' :: r := by
  induction s generalizing b with
  | nil => cases h
  | cons c s ih =>
    rw [beforeDashes?_cons] at h
    split at h
    · next b hb =>
      cases h
      obtain ⟨r, rfl, hr⟩ := ih hb
      exact ⟨r, rfl, hr⟩
    · next hn =>
      split at h
      · next hp =>
        cases h
        obtain ⟨r, hr⟩ := List.isPrefixOf_iff_prefix.1 hp
        cases hr
        exact ⟨r, rfl, fun hi => beforeDashes?_ne_none hi hn⟩
      · cases h

/-- Behind `b` stand the last two dashes of the label, or there are no two dashes and `b` is all of
it. -/
inductive Cut : Text → Text → Prop
  | whole {label : Text} (h : ¬ ['-', '-'] <:+: label) : Cut label label
  | before {b r : Text} (h : ¬ ['-', '-'] <:+: '-' :: r) : Cut (b ++ '-' :: '-' :: r) b

lemma cut_base (label : Text) : Cut label (base label) := by
  unfold base
  cases hb : beforeDashes? label with
  | none => exact .whole fun h => beforeDashes?_ne_none h hb
  | some b =>
    obtain ⟨r, rfl, hr⟩ := exists_of_beforeDashes? hb
    exact .before hr

theorem base_eq_iff {label b : Text} : base label = b ↔ Cut label b := by
  refine ⟨fun h => h ▸ cut_base label, fun h => ?_⟩
  cases h with
  | whole h =>
    unfold base
    rw [beforeDashes?_eq_none h]
    rfl
  | @before _ r h =>
    have hr : beforeDashes? ('-' :: '-' :: r) = some [] := by
      rw [beforeDashes?_cons]
      rw [beforeDashes?_eq_none h]
      rfl
    unfold base
    rw [beforeDashes?_append hr, List.append_nil]
    rfl

/-- Two dashes stand in the label twice, one pair behind the other. -/
def Doubled (label : Text) : Prop :=
  ∃ a m r : Text, label = a ++ '-' :: '-' :: (m ++ '-' :: '-' :: r)

lemma Doubled.infix {label : Text} (h : Doubled label) : ['-', '-'] <:+: label := by
  obtain ⟨a, m, r, rfl⟩ := h
  exact ⟨a, m ++ '-' :: '-' :: r, by simp⟩

/-- Two dashes are left before the last ones just when the label is doubled. -/
lemma Cut.infix_iff {label b : Text} (h : Cut label b) : ['-', '-'] <:+: b ↔ Doubled label := by
  cases h with
  | whole h => exact iff_of_false h fun hd => h hd.infix
  | @before _ r h =>
    constructor
    · rintro ⟨a, m, rfl⟩
      exact ⟨a, m, r, by simp⟩
    · rintro ⟨a, m, r', he⟩
      have he : b ++ '-' :: '-' :: r = (a ++ '-' :: '-' :: m) ++ '-' :: '-' :: r' := by
        rw [he]
        simp
      rcases List.append_eq_append_iff.1 he with ⟨y, hy, hr⟩ | ⟨y, rfl, -⟩
      · -- the second pair begins at the last one or behind it, and it cannot begin behind it
        cases y with
        | nil =>
          rw [List.append_nil] at hy
          exact ⟨a, m, by rw [← hy]; simp⟩
        | cons c y =>
          refine absurd ⟨y, r', ?_⟩ h
          rw [(List.cons.inj hr).2]
          simp
      · exact ⟨a, m ++ y, by simp⟩

instance (label : Text) : Decidable (Doubled label) :=
  decidable_of_iff (['-', '-'] <:+: base label) (cut_base label).infix_iff

lemma Cut.not_infix_of_eq {label b : Text} (h : Cut label b) (he : label = b) :
    ¬ ['-', '-'] <:+: label := by
  cases h with
  | whole h => exact h
  | before h =>
    have hl := congrArg List.length he
    simp at hl

/-- To cut a label twice is to cut it once, unless it is doubled. -/
theorem base_base_iff {label : Text} : base (base label) = base label ↔ ¬ Doubled label := by
  rw [← (cut_base label).infix_iff]
  constructor
  · exact fun h => (base_eq_iff.1 h).not_infix_of_eq rfl
  · exact fun h => base_eq_iff.2 (.whole h)

lemma not_infix_labelOf (millis length : Nat) : ¬ ['-', '-'] <:+: labelOf millis length := by
  have hd : '-' ∉ hexDigits := by decide
  have hz : ∀ n, (hexadecimal n).count '-' = 0 := fun n =>
    List.count_eq_zero_of_not_mem (not_mem_hexadecimal hd n)
  intro h
  have hc : (labelOf millis length).count '-' = 1 := by
    rw [labelOf, List.count_append, List.count_cons_self, hz, hz]
  have hle := h.sublist.count_le '-'
  rw [hc] at hle
  exact absurd hle (by decide)

/-- A suffix that comes off again, whatever it stands behind. -/
def Detaches (s : Text) : Prop := ∀ label : Text, base (label ++ s) = label

lemma not_infix_dash_cons_iff {x : Text} :
    ¬ ['-', '-'] <:+: '-' :: x ↔ ¬ ['-', '-'] <:+: x ∧ x.head? ≠ some '-' := by
  rw [List.infix_cons_iff, not_or, and_comm, List.cons_prefix_cons]
  cases x with
  | nil => simp
  | cons c x => simp [List.cons_prefix_cons, eq_comm]

/-- A suffix comes off again just when its first two dashes are the last ones of every label that
it stands behind. -/
theorem detaches_iff {s : Text} :
    Detaches s ↔ ∃ x, s = '-' :: '-' :: x ∧ ¬ ['-', '-'] <:+: x ∧ x.head? ≠ some '-' := by
  constructor
  · intro h
    have hnil : base s = [] := h []
    unfold base at hnil
    cases hb : beforeDashes? s with
    | none =>
      -- without a suffix a label with two dashes would have to stay as it is
      have hs : s = [] := by rwa [hb] at hnil
      have htwo := h ['-', '-']
      rw [hs] at htwo
      cases htwo
    | some b =>
      have hempty : b = [] := by rwa [hb] at hnil
      obtain ⟨r, hs, hr⟩ := exists_of_beforeDashes? hb
      rw [hempty] at hs
      exact ⟨r, hs, not_infix_dash_cons_iff.1 hr⟩
  · rintro ⟨x, rfl, hx⟩ label
    exact base_eq_iff.2 (.before (not_infix_dash_cons_iff.2 hx))

lemma IsSuffix.detaches {s : Text} (h : IsSuffix s) : Detaches s := by
  obtain ⟨x, hs, -, -, hx⟩ := h
  exact detaches_iff.2 ⟨x, hs, hx⟩

theorem base_labelOf_append (millis length : Nat) {s : Text} (hs : s = [] ∨ Detaches s) :
    base (labelOf millis length ++ s) = labelOf millis length := by
  rcases hs with rfl | hs
  · rw [List.append_nil]
    exact base_eq_iff.2 (.whole (not_infix_labelOf millis length))
  · exact hs _

/-! ### Tags -/

def ofLabel (label : Text) : Text := Parts.write ⟨true, label⟩

lemma generate_eq_ofLabel (modified : Option Timestamp) (length : Option Nat) :
    generate modified length =
      ofLabel (labelOf ((modified.map Timestamp.epochMillis).getD 0) (length.getD 0)) := by
  simp [generate, ofLabel, Parts.write, labelOf]

lemma generate_eq (modified : Timestamp) (length : Nat) :
    generate (some modified) (some length) = ofLabel (labelOf modified.epochMillis length) :=
  generate_eq_ofLabel (some modified) (some length)

lemma unquote_of_quoted (label : Text) : unquote ('"' :: (label ++ ['"'])) = label := by
  have ha : after? ['"'] ('"' :: (label ++ ['"'])) = some (label ++ ['"']) := by
    simp [after?]
  have hb : before? ['"'] (label ++ ['"']) = some label := by
    unfold before?
    rw [if_pos (by simp [List.isSuffixOf_iff_suffix])]
    simp
  unfold unquote
  rw [ha, Option.bind_some, hb]
  rfl

lemma parts_write (p : Parts) : parts p.write = p := by
  obtain ⟨weak, label⟩ := p
  unfold parts
  cases weak with
  | false =>
    have hw : Parts.write ⟨false, label⟩ = '"' :: (label ++ ['"']) := rfl
    have ha : after? ['W', '/'] ('"' :: (label ++ ['"'])) = none := rfl
    simp only [hw, trim_of_ends (c := '"') (d := '"') (by decide) (by decide), ha,
      unquote_of_quoted]
  | true =>
    have hw : Parts.write ⟨true, label⟩ = 'W' :: (('/' :: '"' :: label) ++ ['"']) := rfl
    have ha : after? ['W', '/'] ('W' :: (('/' :: '"' :: label) ++ ['"'])) =
        some ('"' :: (label ++ ['"'])) := by
      simp [after?]
    simp only [hw, trim_of_ends (c := 'W') (d := '"') (by decide) (by decide), ha,
      unquote_of_quoted]

lemma withSuffix_write (p : Parts) (suffix : Text) :
    withSuffix p.write suffix = Parts.write { p with label := base p.label ++ suffix } := by
  unfold withSuffix
  rw [parts_write]

lemma visible_write {p : Parts} (h : Visible p.label) : Visible p.write := by
  obtain ⟨weak, label⟩ := p
  unfold Parts.write
  simp only [visible_append, visible_cons, visible_nil, and_true]
  have hw : Visible (if weak = true then ['W', '/'] else []) := by
    cases weak
    · exact visible_nil
    · decide
  exact ⟨hw, by decide, h, by decide⟩

lemma list?_write {p : Parts} (h : '"' ∉ p.label) : list? p.write = some [p.write] := by
  have hl := Lists.last gap_nil (.tag p h) gap_nil
  rw [List.nil_append, List.append_nil] at hl
  exact list?_eq_some_iff.2 hl

lemma write_ne_star (p : Parts) : p.write ≠ ['*'] := by
  obtain ⟨weak, label⟩ := p
  cases weak <;> exact fun h => by cases h

lemma parts_ofLabel (label : Text) : parts (ofLabel label) = ⟨true, label⟩ :=
  parts_write ⟨true, label⟩

lemma withSuffix_ofLabel (label suffix : Text) :
    withSuffix (ofLabel label) suffix = ofLabel (base label ++ suffix) :=
  withSuffix_write ⟨true, label⟩ suffix

lemma visible_ofLabel {label : Text} (h : Visible label) : Visible (ofLabel label) :=
  visible_write (p := ⟨true, label⟩) h

lemma list?_ofLabel {label : Text} (h : '"' ∉ label) :
    list? (ofLabel label) = some [ofLabel label] :=
  list?_write (p := ⟨true, label⟩) h

lemma covers_write (own : Text) (p : Parts) :
    covers own p.write = true ↔ base (parts own).label = base p.label := by
  unfold covers
  rw [parts_write, Bool.or_eq_true, beq_iff_eq, beq_iff_eq]
  exact or_iff_right (write_ne_star p)

/-- Two tags that were given, each with a suffix or without one, stand for the same content just
when they were given for the same time and length. -/
theorem covers_labelOf_iff {m m' l l' : Nat} {s s' : Text} (hs : s = [] ∨ Detaches s)
    (hs' : s' = [] ∨ Detaches s') :
    covers (ofLabel (labelOf m l ++ s)) (ofLabel (labelOf m' l' ++ s')) = true ↔
      m = m' ∧ l = l' := by
  have hcovers := covers_write (ofLabel (labelOf m l ++ s)) ⟨true, labelOf m' l' ++ s'⟩
  rw [parts_ofLabel, base_labelOf_append m l hs, base_labelOf_append m' l' hs'] at hcovers
  refine hcovers.trans ⟨labelOf_injective, ?_⟩
  rintro ⟨rfl, rfl⟩
  rfl

/-- **Comparison of tags**: a tag that was given for a content, with the suffix of a compressed form
or without one, stands for the content that has the same time and length. -/
theorem covers_ofLabel_iff {millis length : Nat} {s : Text} (hs : s = [] ∨ IsSuffix s)
    (modified : Timestamp) (own : Nat) :
    covers (withSuffix (generate (some modified) (some own)) [])
        (ofLabel (labelOf millis length ++ s)) = true ↔
      modified.epochMillis = millis ∧ own = length := by
  have hbase := base_labelOf_append modified.epochMillis own (Or.inl rfl)
  rw [List.append_nil] at hbase
  rw [generate_eq, withSuffix_ofLabel, hbase]
  exact covers_labelOf_iff (Or.inl rfl) (hs.imp_right IsSuffix.detaches)

end EntityTag

end Docroot

import Mathlib.Tactic.Common
import Docroot.Proofs.Dates
import Docroot.Proofs.Percent
import Docroot.Proofs.Preference
import Docroot.Proofs.Trimming
import Docroot.Proofs.Weights

/-!
Lists of weighted tokens, read as they are written. A list may be written in many ways: with blanks
wherever a part ends, with empty elements, with tokens in any letters and with parameters that say
nothing about the weight. All of them are read as the tokens in lower case with their weights, in
their order; a weight that is malformed counts as 0.
-/

namespace Docroot

namespace Text

lemma toNat_toLower (c : Char) : c.toLower.toNat =
    if 65 ≤ c.toNat ∧ c.toNat ≤ 90 then c.toNat + 32 else c.toNat := by
  have hA : 'A'.val.toNat = 65 := rfl
  have hZ : 'Z'.val.toNat = 90 := rfl
  have hstep : ('a'.val - 'A'.val).toNat = 32 := rfl
  unfold Char.toLower Char.toNat
  simp only [ge_iff_le, UInt32.le_iff_toNat_le, hA, hZ]
  by_cases h : 65 ≤ c.val.toNat ∧ c.val.toNat ≤ 90
  · rw [dif_pos h, if_pos h, UInt32.toNat_add, hstep]
    omega
  · rw [dif_neg h, if_neg h]

end Text

namespace Quality

open Text

/-! ### Blanks and empty elements say nothing -/

/-- The token that the first part of an element gives. -/
def tokenOf (first : Text) : Text := lower (strip (· == '"') (trim first))

lemma item?_of_splitOn {s first : Text} {parameters : List Text}
    (h : splitOn ';' s = first :: parameters) :
    item? s = if (tokenOf first).isEmpty then none
      else some ⟨tokenOf first, parameters.foldl applyParameter 1000⟩ := by
  rw [item?, h]
  rfl

lemma applyParameter_append {b : Text} (h : b.Blanks) (quality : Nat) (p : Text) :
    applyParameter quality (p ++ b) = applyParameter quality p := by
  unfold applyParameter
  rw [cutAt_append_right (h.not_mem (by decide))]
  cases cutAt '=' p with
  | none => rfl
  | some parts => simp [trim_append_right h]

lemma item?_append_left {a : Text} (h : a.Blanks) (s : Text) : item? (a ++ s) = item? s := by
  obtain ⟨first, rest, hs, ha⟩ :=
    splitOn_append_left (h.not_mem (by decide : isBlank ';' = false)) s
  rw [item?_of_splitOn ha, item?_of_splitOn hs, tokenOf, tokenOf, trim_append_left h]

lemma item?_append_right {b : Text} (h : b.Blanks) (s : Text) : item? (s ++ b) = item? s := by
  obtain ⟨front, last, hs, hb⟩ :=
    splitOn_append_right (h.not_mem (by decide : isBlank ';' = false)) s
  cases front with
  | nil => rw [item?_of_splitOn hb, item?_of_splitOn hs, tokenOf, tokenOf, trim_append_right h]
  | cons first parameters =>
    rw [List.cons_append] at hs hb
    rw [item?_of_splitOn hb, item?_of_splitOn hs, List.foldl_append, List.foldl_append]
    simp only [List.foldl_cons, List.foldl_nil, applyParameter_append h]

lemma item?_trim (s : Text) : item? (trim s) = item? s := by
  obtain ⟨a, b, ha, hb, hs⟩ := exists_blanks s
  calc item? (trim s) = item? (a ++ (trim s ++ b)) := by
        rw [item?_append_left ha, item?_append_right hb]
    _ = item? s := by rw [← hs]

lemma parse_eq (value : Text) : parse value = (pieces false value).filterMap item? := by
  have hempty : item? [] = none := rfl
  unfold parse elements
  rw [List.filterMap_filter, List.filterMap_map]
  refine List.filterMap_congr fun s _ => ?_
  show (if (!(trim s).isEmpty) = true then item? (trim s) else none) = item? s
  rw [item?_trim]
  split
  · rfl
  · next hs =>
    have hs : trim s = [] := by simpa using hs
    rw [← item?_trim, hs, hempty]

/-! ### How a list may be written -/

def TokenChar (c : Char) : Prop :=
  97 ≤ c.toNat ∧ c.toNat ≤ 122 ∨ c.isDigit = true ∨ c = '*' ∨ c = '-' ∨ c = '_'

instance (c : Char) : Decidable (TokenChar c) :=
  inferInstanceAs (Decidable
    (97 ≤ c.toNat ∧ c.toNat ≤ 122 ∨ c.isDigit = true ∨ c = '*' ∨ c = '-' ∨ c = '_'))

def TokenChars (s : Text) : Prop := ∀ c ∈ s, TokenChar c

instance (s : Text) : Decidable (TokenChars s) := List.decidableBAll TokenChar s

/-- The text can stand between separators. -/
def Plain (s : Text) : Prop := ∀ c ∈ s, c ≠ ',' ∧ c ≠ ';' ∧ c ≠ '"'

instance (s : Text) : Decidable (Plain s) :=
  List.decidableBAll (fun c => c ≠ ',' ∧ c ≠ ';' ∧ c ≠ '"') s

/-- The parameter is named `q`, in either case and with blanks around the name, and has this
value. -/
def Sets (p value : Text) : Prop :=
  ∃ (a b : Text) (x : Char), a.Blanks ∧ b.Blanks ∧ (x = 'q' ∨ x = 'Q') ∧
    p = a ++ x :: (b ++ '=' :: value)

/-- The parameters behind a token that give its weight: none, for the weight 1, or one with a
numeral. A value that is no numeral stands for 0. -/
inductive Weight : List Text → Nat → Prop
  | omitted : Weight [] 1000
  | numeral {p c v d : Text} {n : Nat} (hp : Sets p (c ++ (v ++ d))) (hc : c.Blanks)
      (hv : Numeral v n) (hd : d.Blanks) : Weight [p] n
  | malformed {p v : Text} (hp : Sets p v) (hplain : Plain v) (hv : ∀ n, ¬ Numeral (trim v) n) :
      Weight [p] 0

/-- The text is an element with this token and this weight: the token in letters of any case, then
parameters that do not set the weight, then the weight. -/
inductive Element : Text → Item → Prop
  | mk {a name b token : Text} {parameters weight : List Text} {n : Nat}
      (ha : a.Blanks) (hb : b.Blanks) (hne : token ≠ []) (ht : TokenChars token)
      (hname : lower name = token) (hp : ∀ p ∈ parameters, Plain p ∧ ∀ value, ¬ Sets p value)
      (hw : Weight weight n) :
      Element (joinWith [';'] ((a ++ (name ++ b)) :: (parameters ++ weight))) ⟨token, n⟩

/-- The pieces are elements with these tokens and weights, with empty ones anywhere. -/
inductive Row : List Text → List Item → Prop
  | nil : Row [] []
  | empty {s : Text} {pieces : List Text} {items : List Item} (hs : s.Blanks)
      (h : Row pieces items) : Row (s :: pieces) items
  | element {s : Text} {pieces : List Text} {i : Item} {items : List Item} (hs : Element s i)
      (h : Row pieces items) : Row (s :: pieces) (i :: items)

/-- The text is a list of these tokens with these weights. -/
def Writes (s : Text) (items : List Item) : Prop :=
  ∃ pieces, s = joinWith [','] pieces ∧ Row pieces items

/-! ### Parameters -/

lemma applyParameter_of_sets {p value : Text} (h : Sets p value) (quality : Nat) :
    applyParameter quality p = (weight? (trim value)).getD 0 := by
  obtain ⟨a, b, x, ha, hb, hx, rfl⟩ := h
  have hxe : x ≠ '=' ∧ isBlank x = false ∧ x.toLower = 'q' := by
    rcases hx with rfl | rfl <;> decide
  have hname : '=' ∉ a ++ x :: b := by
    simp only [List.mem_append, List.mem_cons, not_or]
    exact ⟨ha.not_mem (by decide), Ne.symm hxe.1, hb.not_mem (by decide)⟩
  have hcut : cutAt '=' (a ++ x :: (b ++ '=' :: value)) = some (a ++ x :: b, value) := by
    rw [← cutAt_append hname value, List.append_assoc, List.cons_append]
  have htrim : trim (a ++ x :: b) = [x] := by
    rw [trim_append_left ha, ← List.singleton_append, trim_append_right hb]
    exact strip_of_forall fun c hc => by rw [List.mem_singleton.1 hc, hxe.2.1]
  have hq : sameLetters (trim (a ++ x :: b)) ['q'] = true := by
    rw [htrim, sameLetters, lower, List.map_singleton, hxe.2.2]
    rfl
  rw [applyParameter, hcut]
  simp only [hq, if_true]

lemma applyParameter_of_not_sets {p : Text} (h : ∀ value, ¬ Sets p value) (quality : Nat) :
    applyParameter quality p = quality := by
  unfold applyParameter
  cases hcut : cutAt '=' p with
  | none => rfl
  | some parts =>
    obtain ⟨name, value⟩ := parts
    obtain rfl := cutAt_eq_some hcut
    have hq : ¬ sameLetters (trim name) ['q'] = true := by
      intro hq
      obtain ⟨a, b, ha, hb, hname⟩ := exists_blanks name
      have hlower : lower (trim name) = ['q'] := by simpa [sameLetters, lower] using hq
      obtain ⟨x, hx, hxq⟩ := List.map_eq_singleton_iff.1 hlower
      have hletter : x = 'q' ∨ x = 'Q' := by
        have hn := toNat_toLower x
        rw [hxq] at hn
        have h113 : 'q'.toNat = 113 := rfl
        have hcases : x.toNat = 113 ∨ x.toNat = 81 := by
          split_ifs at hn <;> omega
        exact hcases.imp Char.toNat_inj.1 Char.toNat_inj.1
      refine h value ⟨a, b, x, ha, hb, hletter, ?_⟩
      rw [hname, hx]
      simp
    simp only [hq]
    rfl

lemma foldl_applyParameter_of_not_sets {parameters : List Text}
    (h : ∀ p ∈ parameters, ∀ value, ¬ Sets p value) (quality : Nat) :
    parameters.foldl applyParameter quality = quality := by
  induction parameters with
  | nil => rfl
  | cons p parameters ih =>
    obtain ⟨hp, hr⟩ := List.forall_mem_cons.1 h
    rw [List.foldl_cons, applyParameter_of_not_sets hp, ih hr]

lemma Numeral.graphic {v : Text} {n : Nat} (h : Numeral v n) : v.Graphic := by
  intro c hc
  have hb := h.char_bounds c hc
  exact ⟨by omega, by omega⟩

lemma Weight.foldl {weight : List Text} {n : Nat} (h : Weight weight n) :
    weight.foldl applyParameter 1000 = n := by
  cases h with
  | omitted => rfl
  | numeral hp hc hv hd =>
    rw [List.foldl_cons, List.foldl_nil, applyParameter_of_sets hp, trim_append_left hc,
      trim_append_right hd, hv.graphic.trim, weight?_eq_some_iff.2 hv]
    rfl
  | @malformed p v hp hplain hv =>
    have hnone : weight? (trim v) = none := by
      rw [Option.eq_none_iff_forall_ne_some]
      exact fun n hn => hv n (weight?_eq_some_iff.1 hn)
    rw [List.foldl_cons, List.foldl_nil, applyParameter_of_sets hp, hnone]
    rfl

/-! ### Elements and rows -/

lemma plain_append {s t : Text} (hs : Plain s) (ht : Plain t) : Plain (s ++ t) :=
  List.forall_mem_append.2 ⟨hs, ht⟩

lemma plain_cons {c : Char} {s : Text} (hc : c ≠ ',' ∧ c ≠ ';' ∧ c ≠ '"') (hs : Plain s) :
    Plain (c :: s) :=
  List.forall_mem_cons.2 ⟨hc, hs⟩

lemma plain_of_blanks {s : Text} (h : s.Blanks) : Plain s := by
  intro c hc
  have hb := h c hc
  refine ⟨?_, ?_, ?_⟩ <;> rintro rfl <;> exact absurd hb (by decide)

lemma Sets.plain {p value : Text} (h : Sets p value) (hv : Plain value) : Plain p := by
  obtain ⟨a, b, x, ha, hb, hx, rfl⟩ := h
  have hxc : x ≠ ',' ∧ x ≠ ';' ∧ x ≠ '"' := by
    rcases hx with rfl | rfl <;> decide
  exact plain_append (plain_of_blanks ha)
    (plain_cons hxc (plain_append (plain_of_blanks hb) (plain_cons (by decide) hv)))

lemma Numeral.plain {v : Text} {n : Nat} (h : Numeral v n) : Plain v := by
  intro c hc
  have hb := h.char_bounds c hc
  refine ⟨?_, ?_, ?_⟩ <;> rintro rfl <;> exact absurd hb (by decide)

lemma Weight.plain {weight : List Text} {n : Nat} (h : Weight weight n) :
    ∀ p ∈ weight, Plain p := by
  cases h with
  | omitted => exact fun p hp => absurd hp List.not_mem_nil
  | numeral hp hc hv hd =>
    refine List.forall_mem_singleton.2 (hp.plain ?_)
    exact plain_append (plain_of_blanks hc) (plain_append hv.plain (plain_of_blanks hd))
  | malformed hp hplain hv => exact List.forall_mem_singleton.2 (hp.plain hplain)

lemma graphic_of_tokenChar {c : Char} (h : TokenChar c.toLower) :
    GraphicChar c ∧ c ≠ ',' ∧ c ≠ ';' ∧ c ≠ '"' := by
  have hn := toNat_toLower c
  have hrange : 42 ≤ c.toNat ∧ c.toNat ≤ 122 ∧ c.toNat ≠ 44 ∧ c.toNat ≠ 59 := by
    rcases h with ⟨h1, h2⟩ | h | h | h | h
    · split_ifs at hn <;> omega
    · have hd := toNat_of_isDigit h
      split_ifs at hn <;> omega
    all_goals
      rw [h] at hn
      have hval : '*'.toNat = 42 ∧ '-'.toNat = 45 ∧ '_'.toNat = 95 := ⟨rfl, rfl, rfl⟩
      split_ifs at hn <;> omega
  refine ⟨⟨by omega, by omega⟩, ?_, ?_, ?_⟩ <;> rintro rfl
  · exact hrange.2.2.1 rfl
  · exact hrange.2.2.2 rfl
  · exact absurd hrange.1 (by decide)

section

variable {name token : Text} (ht : TokenChars token) (hname : lower name = token)

include ht hname

lemma tokenChar_of_mem {c : Char} (hc : c ∈ name) : TokenChar c.toLower :=
  ht _ (hname ▸ List.mem_map_of_mem hc)

lemma tokenOf_eq {a b : Text} (ha : a.Blanks) (hb : b.Blanks) :
    tokenOf (a ++ (name ++ b)) = token := by
  have hgraphic : name.Graphic :=
    fun c hc => (graphic_of_tokenChar (tokenChar_of_mem ht hname hc)).1
  have hquotes : strip (· == '"') name = name := by
    refine strip_of_forall fun c hc => ?_
    have hne := (graphic_of_tokenChar (tokenChar_of_mem ht hname hc)).2.2.2
    simpa using hne
  rw [tokenOf, trim_append_left ha, trim_append_right hb, hgraphic.trim, hquotes, hname]

lemma plain_name : Plain name := fun _ hc => (graphic_of_tokenChar (tokenChar_of_mem ht hname hc)).2

end

/-- The parts of an element are plain, so that only semicolons come between them. -/
lemma Element.exists_parts {s : Text} {i : Item} (h : Element s i) :
    ∃ first rest, s = joinWith [';'] (first :: rest) ∧ (∀ p ∈ first :: rest, Plain p) ∧
      tokenOf first = i.token ∧ i.token ≠ [] ∧ rest.foldl applyParameter 1000 = i.quality := by
  obtain ⟨ha, hb, hne, ht, hname, hp, hw⟩ := h
  refine ⟨_, _, rfl, ?_, tokenOf_eq ht hname ha hb, hne, ?_⟩
  · refine List.forall_mem_cons.2 ⟨?_, List.forall_mem_append.2 ⟨fun p hm => (hp p hm).1, hw.plain⟩⟩
    exact plain_append (plain_of_blanks ha)
      (plain_append (plain_name ht hname) (plain_of_blanks hb))
  · rw [List.foldl_append, foldl_applyParameter_of_not_sets fun p hm => (hp p hm).2, hw.foldl]

lemma Element.item?_eq {s : Text} {i : Item} (h : Element s i) : item? s = some i := by
  obtain ⟨first, rest, rfl, hplain, htoken, hne, hquality⟩ := h.exists_parts
  have hsplit : splitOn ';' (joinWith [';'] (first :: rest)) = first :: rest :=
    splitOn_joinWith (List.cons_ne_nil _ _) fun p hp hm => (hplain p hp _ hm).2.1 rfl
  rw [item?_of_splitOn hsplit, htoken, hquality, if_neg (by simpa using hne)]

lemma Element.not_mem {s : Text} {i : Item} (h : Element s i) : ',' ∉ s ∧ '"' ∉ s := by
  obtain ⟨first, rest, rfl, hplain, -⟩ := h.exists_parts
  constructor
  · intro hm
    rcases mem_joinWith hm with hm | ⟨p, hp, hm⟩
    · exact absurd hm (by decide)
    · exact (hplain p hp _ hm).1 rfl
  · intro hm
    rcases mem_joinWith hm with hm | ⟨p, hp, hm⟩
    · exact absurd hm (by decide)
    · exact (hplain p hp _ hm).2.2 rfl

lemma Row.not_mem {pieces : List Text} {items : List Item} (h : Row pieces items) :
    ∀ s ∈ pieces, ',' ∉ s ∧ '"' ∉ s := by
  induction h with
  | nil => exact fun s hs => absurd hs List.not_mem_nil
  | empty hs _ ih =>
    exact List.forall_mem_cons.2 ⟨⟨hs.not_mem (by decide), hs.not_mem (by decide)⟩, ih⟩
  | element hs _ ih => exact List.forall_mem_cons.2 ⟨hs.not_mem, ih⟩

lemma Row.filterMap {pieces : List Text} {items : List Item} (h : Row pieces items) :
    pieces.filterMap item? = items := by
  induction h with
  | nil => rfl
  | @empty s _ _ hs _ ih =>
    have hnone : item? s = none := by
      rw [← item?_trim, trim_of_blanks hs]
      rfl
    rw [List.filterMap_cons_none hnone, ih]
  | element hs _ ih => rw [List.filterMap_cons_some hs.item?_eq, ih]

lemma pieces_joinWith {p : Text} {ps : List Text} (h : ∀ s ∈ p :: ps, ',' ∉ s ∧ '"' ∉ s) :
    pieces false (joinWith [','] (p :: ps)) = p :: ps := by
  induction ps generalizing p with
  | nil => exact pieces_of_not_mem (h p List.mem_cons_self).1 false
  | cons q ps ih =>
    obtain ⟨hp, hr⟩ := List.forall_mem_cons.1 h
    have hclosed : (p.count '"' + Bool.toNat false) % 2 = 0 := by
      rw [List.count_eq_zero.2 hp.2]
      rfl
    rw [joinWith_cons (List.cons_ne_nil q ps), List.append_assoc, List.singleton_append,
      pieces_append hclosed, pieces_of_not_mem hp.1, ih hr]
    rfl

/-! ### Every list can be written -/

/-- The item has a token in lower case, and its weight is at most 1. -/
structure Item.Proper (i : Item) : Prop where
  nonempty : i.token ≠ []
  chars : TokenChars i.token
  bound : i.quality ≤ 1000

lemma exists_numeral {n : Nat} (h : n ≤ 1000) : ∃ v, Numeral v n := by
  rcases Nat.lt_or_eq_of_le h with h | rfl
  · have hl : (padded 3 n).length = 3 := length_padded (by decide) h
    have hv : digitsValue (padded 3 n) = n := (digitsValue_zeros _ _).trans (digitsValue_decimal n)
    refine ⟨_, .fraction hl.le (fun _ hc => isDigit_of_mem_padded hc) ?_⟩
    rw [hl, hv, Nat.mul_comm n]
    rfl
  · exact ⟨_, .one⟩

lemma lower_of_tokenChars {token : Text} (h : TokenChars token) : lower token = token := by
  refine (List.map_congr_left fun c hc => ?_).trans (List.map_id token)
  have hn := toNat_toLower c
  have hrange : ¬ (65 ≤ c.toNat ∧ c.toNat ≤ 90) := by
    rcases h c hc with h | h | rfl | rfl | rfl
    · omega
    · have hd := toNat_of_isDigit h
      omega
    all_goals decide
  rw [if_neg hrange] at hn
  exact Char.toNat_inj.1 hn

lemma Item.Proper.exists_element {i : Item} (h : i.Proper) : ∃ s, Element s i := by
  obtain ⟨v, hv⟩ := exists_numeral h.bound
  have hnone : Blanks [] := fun c hc => absurd hc List.not_mem_nil
  have hsets : Sets ('q' :: '=' :: v) ([] ++ (v ++ [])) :=
    ⟨[], [], 'q', hnone, hnone, Or.inl rfl, by simp⟩
  exact ⟨_, .mk hnone hnone h.nonempty h.chars (lower_of_tokenChars h.chars)
    (fun p hp => absurd hp List.not_mem_nil) (.numeral hsets hnone hv hnone)⟩

lemma exists_writes {items : List Item} (h : ∀ i ∈ items, i.Proper) : ∃ s, Writes s items := by
  suffices hrow : ∃ pieces, Row pieces items by
    obtain ⟨pieces, hrow⟩ := hrow
    exact ⟨_, pieces, rfl, hrow⟩
  induction items with
  | nil => exact ⟨[], .nil⟩
  | cons i items ih =>
    obtain ⟨hi, hr⟩ := List.forall_mem_cons.1 h
    obtain ⟨s, hs⟩ := hi.exists_element
    obtain ⟨pieces, hrow⟩ := ih hr
    exact ⟨s :: pieces, .element hs hrow⟩

/-- **Lists of weighted tokens**: every list of tokens with weights up to 1 can be written, and
however it is written, it is read as these tokens with these weights, in their order. The numerals
of weights are all that is read as a weight. -/
theorem parse_of_writes :
    (∀ v n, weight? v = some n ↔ Numeral v n) ∧
      (∀ items : List Item, (∀ i ∈ items, i.Proper) → ∃ s, Writes s items) ∧
      ∀ s items, Writes s items → parse s = items := by
  refine ⟨fun v n => weight?_eq_some_iff, fun items h => exists_writes h, ?_⟩
  rintro s items ⟨pieces, rfl, hrow⟩
  cases pieces with
  | nil =>
    have hitems : [] = items := hrow.filterMap
    exact hitems
  | cons p ps => rw [parse_eq, pieces_joinWith hrow.not_mem, hrow.filterMap]

/-- A list with an empty element, a token in capitals, a parameter that is no weight, and a weight
above 1. -/
theorem parse_of_writes_sample :
    Writes "gzip;level=9; Q = 0.5 ,, BR\t,x;q=1.001".toList
        [⟨"gzip".toList, 500⟩, ⟨"br".toList, 1000⟩, ⟨['x'], 0⟩] ∧
      parse "gzip;level=9; Q = 0.5 ,, BR\t,x;q=1.001".toList =
        [⟨"gzip".toList, 500⟩, ⟨"br".toList, 1000⟩, ⟨['x'], 0⟩] := by
  have hblank : Blanks [' '] ∧ Blanks ['\t'] ∧ Blanks [] := by decide
  have hlevel : ∀ value, ¬ Sets "level=9".toList value := by
    rintro value ⟨a, b, x, -, -, hx, hp⟩
    have hm : x ∈ "level=9".toList := by simp [hp]
    rcases hx with rfl | rfl <;> exact absurd hm (by decide)
  have hover : ∀ n, ¬ Numeral (trim "1.001".toList) n := by
    intro n hn
    have hnone : weight? (trim "1.001".toList) = none := by decide
    rw [weight?_eq_some_iff.2 hn] at hnone
    cases hnone
  have hgzip : Element "gzip;level=9; Q = 0.5 ".toList ⟨"gzip".toList, 500⟩ := by
    have hq : Sets " Q = 0.5 ".toList ([' '] ++ ("0.5".toList ++ [' '])) :=
      ⟨[' '], [' '], 'Q', hblank.1, hblank.1, Or.inr rfl, by decide⟩
    exact @Element.mk [] "gzip".toList [] _ ["level=9".toList] [" Q = 0.5 ".toList] 500 hblank.2.2
      hblank.2.2 (by decide) (by decide) rfl
      (List.forall_mem_singleton.2 ⟨by decide, hlevel⟩)
      (.numeral hq hblank.1 (.fraction (by decide) (List.forall_mem_singleton.2 rfl) rfl) hblank.1)
  have hbr : Element " BR\t".toList ⟨"br".toList, 1000⟩ :=
    @Element.mk [' '] "BR".toList ['\t'] _ [] [] 1000 hblank.1 hblank.2.1 (by decide)
      (by decide) rfl (by simp) .omitted
  have hx : Element "x;q=1.001".toList ⟨['x'], 0⟩ :=
    @Element.mk [] ['x'] [] _ [] ["q=1.001".toList] 0 hblank.2.2 hblank.2.2 (by decide)
      (by decide) rfl (by simp)
      (.malformed ⟨[], [], 'q', hblank.2.2, hblank.2.2, Or.inl rfl, rfl⟩ (by decide) hover)
  have hwrites : Writes "gzip;level=9; Q = 0.5 ,, BR\t,x;q=1.001".toList
      [⟨"gzip".toList, 500⟩, ⟨"br".toList, 1000⟩, ⟨['x'], 0⟩] :=
    ⟨["gzip;level=9; Q = 0.5 ".toList, [], " BR\t".toList, "x;q=1.001".toList], by decide,
      .element hgzip (.empty hblank.2.2 (.element hbr (.element hx .nil)))⟩
  exact ⟨hwrites, parse_of_writes.2.2 _ _ hwrites⟩

end Quality

end Docroot

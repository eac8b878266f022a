import Mathlib.Data.Char
import Mathlib.Data.Int.ConditionallyCompleteOrder
import Mathlib.Data.List.Lex
import Mathlib.Data.List.Nodup
import Mathlib.Data.Prod.Lex
import Mathlib.Order.WithBot
import Mathlib.Tactic.Common
import Docroot.Proofs.Arrangement
import Docroot.Proofs.Descent
import Docroot.Proofs.Table

/-!
The order of a listing. The items are sorted by the column that the query asks for, those that are
equal in it by their names; with different names there is one such order, so that it does not matter
in which order the items were found, and asking for the opposite direction turns the rows around.
-/

namespace Docroot

/-! ### Sorting by a key -/

namespace Ordered

variable {α κ : Type} [LinearOrder κ] {before : α → α → Bool} {key : α → κ}
  (h : ∀ a b, before a b = true ↔ key a < key b)

include h

lemma ranks_of_key : Ranks before where
  asymm := by
    intro a b hab
    rw [← Bool.not_eq_true, h, not_lt]
    exact ((h a b).1 hab).le
  trans := by
    intro a b c hab hbc
    rw [← Bool.not_eq_true, h, not_lt] at hab hbc ⊢
    exact hbc.trans hab

lemma pairwise_sort_of_key {l : List α} (hl : (l.map key).Nodup) :
    (sort before l).Pairwise fun a b => key a < key b := by
  have hne : l.Pairwise fun a b => key a ≠ key b := List.pairwise_map.1 hl
  refine ((ranks_of_key h).pairwise_sort hne).imp ?_
  rintro a b (hab | ⟨hba, hab⟩)
  · exact (h a b).1 hab
  · rw [← Bool.not_eq_true, h, not_lt] at hba
    exact lt_of_le_of_ne hba hab

/-- There is one way to put elements with different keys in order. -/
lemma eq_sort_of_pairwise {l s : List α} (hl : (l.map key).Nodup) (hp : s.Perm l)
    (hs : s.Pairwise fun a b => key a < key b) : s = sort before l :=
  List.Perm.eq_of_pairwise (fun _ _ _ _ hab hba => absurd hba hab.not_gt) hs
    (pairwise_sort_of_key h hl) (hp.trans (sort_perm before l).symm)

lemma sort_eq_of_perm {l l' : List α} (hl : (l.map key).Nodup) (hp : l'.Perm l) :
    sort before l' = sort before l :=
  eq_sort_of_pairwise h hl ((sort_perm before l').trans hp)
    (pairwise_sort_of_key h ((hp.map key).nodup_iff.2 hl))

end Ordered

namespace Listing

/-! ### The order of the items -/

/-- What an item is ranked by in a column, its name apart: an item without a time comes first. -/
def rank : Column → Item → WithBot ℤ
  | .name, _ => ⊥
  | .modified, i => match i.modified with
    | none => ⊥
    | some t => (t.nanos : ℤ)
  | .size, i => (i.size : ℤ)

/-- The item comes before the other in a column: it has a lower rank there, or the same one and a
name that comes before. -/
def Earlier (column : Column) (a b : Item) : Prop :=
  rank column a < rank column b ∨ rank column a = rank column b ∧ a.name < b.name

def key (column : Column) (i : Item) : WithBot ℤ ×ₗ Text := toLex (rank column i, i.name)

lemma earlier_iff {column : Column} {a b : Item} :
    Earlier column a b ↔ key column a < key column b :=
  (Prod.Lex.toLex_lt_toLex (x := (rank column a, a.name)) (y := (rank column b, b.name))).symm

lemma ascending_iff {column : Column} {a b : Item} :
    ascending column a b = true ↔ Earlier column a b := by
  unfold Earlier
  cases column with
  | name => simp [ascending, nameBefore, rank]
  | modified =>
    have hnanos : ∀ s t : Timestamp, s = t ↔ s.nanos = t.nanos := fun ⟨_⟩ ⟨_⟩ => by simp
    rcases a with ⟨_, _, _, _ | s⟩ <;> rcases b with ⟨_, _, _, _ | t⟩ <;>
      simp [ascending, nameBefore, timeBefore, rank, hnanos]
  | size => simp [ascending, nameBefore, rank]

lemma before_ascending_iff (column : Column) (a b : Item) :
    before ⟨column, false⟩ a b = true ↔ key column a < key column b :=
  ascending_iff.trans earlier_iff

lemma before_descending_iff (column : Column) (a b : Item) :
    before ⟨column, true⟩ a b = true ↔
      OrderDual.toDual (key column a) < OrderDual.toDual (key column b) :=
  ascending_iff.trans earlier_iff

section

variable {items : List Item} (hn : (items.map Item.name).Nodup)

include hn

lemma nodup_key (column : Column) : (items.map (key column)).Nodup :=
  List.Nodup.of_map (fun k => (ofLex k).2) (by rwa [List.map_map])

lemma nodup_toDual_key (column : Column) :
    (items.map fun i => OrderDual.toDual (key column i)).Nodup :=
  nodup_key hn column

lemma arrange_eq_of_perm (arr : Arrangement) {found : List Item} (hp : found.Perm items) :
    arrange arr found = arrange arr items := by
  obtain ⟨column, _ | _⟩ := arr
  · exact Ordered.sort_eq_of_perm (before_ascending_iff column) (nodup_key hn column) hp
  · exact Ordered.sort_eq_of_perm (before_descending_iff column) (nodup_toDual_key hn column) hp

lemma pairwise_arrange (column : Column) :
    (arrange ⟨column, false⟩ items).Pairwise (Earlier column) :=
  (Ordered.pairwise_sort_of_key (before_ascending_iff column) (nodup_key hn column)).imp
    earlier_iff.2

/-- **The opposite direction** turns the items around. -/
lemma arrange_descending (column : Column) :
    arrange ⟨column, true⟩ items = (arrange ⟨column, false⟩ items).reverse := by
  -- the ascending order, read backwards, is sorted by the same key in the dual order
  refine (Ordered.eq_sort_of_pairwise (before_descending_iff column) (nodup_toDual_key hn column)
    ((List.reverse_perm _).trans (Ordered.sort_perm _ _)) ?_).symm
  rw [List.pairwise_reverse]
  exact (pairwise_arrange hn column).imp earlier_iff.1

end

/-! ### What the query asks for -/

def columnOf? (parameter : Text) : Option Column :=
  if parameter = "C=N".toList then some .name
  else if parameter = "C=M".toList then some .modified
  else if parameter = "C=S".toList then some .size
  else none

/-- Whether a parameter asks for the descending or for the ascending order. -/
def descendingOf? (parameter : Text) : Option Bool :=
  if parameter = "O=D".toList then some true
  else if parameter = "O=A".toList then some false
  else none

/-- What the parameters of a query ask for: for each of column and direction the last one that is
about it counts, and the others are nothing. -/
def asked (query : Option Text) : Arrangement where
  column := ((Text.splitOn '&' (query.getD [])).filterMap columnOf?).getLast?.getD .name
  descending := ((Text.splitOn '&' (query.getD [])).filterMap descendingOf?).getLast?.getD false

lemma applyParameter_eq (a : Arrangement) (p : Text) : applyParameter a p =
    ⟨(columnOf? p).getD a.column, (descendingOf? p).getD a.descending⟩ := by
  by_cases hp : p ∈ ["C=M".toList, "C=S".toList, "C=N".toList, "O=D".toList, "O=A".toList]
  · simp only [List.mem_cons, List.not_mem_nil, or_false] at hp
    rcases hp with rfl | rfl | rfl | rfl | rfl <;> rfl
  · simp only [List.mem_cons, List.not_mem_nil, or_false, not_or] at hp
    obtain ⟨hm, hs, hn, hd, ha⟩ := hp
    simp only [applyParameter, columnOf?, descendingOf?, if_neg hm, if_neg hs, if_neg hn, if_neg hd,
      if_neg ha, Option.getD_none]

lemma getLast?_filterMap_cons {α β : Type} (f : α → Option β) (a : α) (l : List α) (b : β) :
    ((a :: l).filterMap f).getLast?.getD b = (l.filterMap f).getLast?.getD ((f a).getD b) := by
  cases hf : f a with
  | none => rw [List.filterMap_cons_none hf, Option.getD_none]
  | some c =>
    rw [List.filterMap_cons_some hf, List.getLast?_cons, Option.getD_some, Option.getD_some]

lemma foldl_applyParameter (parameters : List Text) (a : Arrangement) :
    parameters.foldl applyParameter a =
      ⟨(parameters.filterMap columnOf?).getLast?.getD a.column,
        (parameters.filterMap descendingOf?).getLast?.getD a.descending⟩ := by
  induction parameters generalizing a with
  | nil => rfl
  | cons p parameters ih =>
    rw [List.foldl_cons, ih, applyParameter_eq, getLast?_filterMap_cons, getLast?_filterMap_cons]

/-- **A listing is arranged** as its query asks. -/
lemma arrangement_eq_asked (query : Option Text) : arrangement query = asked query :=
  foldl_applyParameter _ _

lemma asked_append {parameter : Text} (hp : '&' ∉ parameter) {descending : Bool}
    (hd : descendingOf? parameter = some descending) (hc : columnOf? parameter = none) (q : Text) :
    asked (some (q ++ '&' :: parameter)) = ⟨(asked (some q)).column, descending⟩ := by
  have hsplit : Text.splitOn '&' (q ++ '&' :: parameter) = Text.splitOn '&' q ++ [parameter] := by
    rw [Text.splitOn_append_sep, Text.splitOn_of_not_mem hp]
  unfold asked
  rw [Option.getD_some, hsplit]
  simp [hd, hc]

/-! ### The page -/

variable {base : Text} {parent : Bool} {query : Option Text} {items : List Item} {page : Text}

lemma rows_of_render? (h : render? base parent query items = some page) :
    rows page = (if parent then [parentCells] else []) ++
      (arrange (asked query) items).map (itemCells base) := by
  rw [render?, arrangement_eq_asked] at h
  rw [(page?_eq_some_iff.1 h).2, rows_page, bodyRows]

/-- **The order of a listing**: whatever order the items were found in, the page is the same; there
is one just when there is a date for each time. Its rows show the items in the order that the query
asks for, and asking for the opposite direction turns the rows around. -/
theorem render_sorted (base : Text) (parent : Bool) (query : Option Text) {items : List Item}
    (hn : (items.map Item.name).Nodup) :
    (∀ found : List Item, found.Perm items →
      render? base parent query found = render? base parent query items) ∧
    ((∃ page, render? base parent query items = some page) ↔ ∀ i ∈ items, i.OnCalendar) ∧
    (∀ page, render? base parent query items = some page →
      ∃ (shown : List Item) (table : List (List Tag)), shown.Perm items ∧
        (if (asked query).descending then shown.reverse else shown).Pairwise
          (Earlier (asked query).column) ∧
        rows page = (if parent then [parentCells] else []) ++ table ∧
        List.Forall₂ (Shows base) shown table) ∧
    ∀ up down, render? base parent (some (query.getD [] ++ "&O=A".toList)) items = some up →
      render? base parent (some (query.getD [] ++ "&O=D".toList)) items = some down →
        ∃ table : List (List Tag), rows up = (if parent then [parentCells] else []) ++ table ∧
          rows down = (if parent then [parentCells] else []) ++ table.reverse := by
  refine ⟨fun found hp => ?_, exists_render?_iff, fun page h => ?_, fun up down hup hdown => ?_⟩
  · unfold render?
    rw [arrange_eq_of_perm hn _ hp]
  · rw [render?, arrangement_eq_asked] at h
    obtain ⟨table, hrows, hshows⟩ := exists_rows_of_page? h
    refine ⟨arrange (asked query) items, table, Ordered.sort_perm _ _, ?_, hrows, hshows⟩
    obtain ⟨column, _ | _⟩ := asked query
    · exact pairwise_arrange hn column
    · simp only [if_true]
      rw [arrange_descending hn, List.reverse_reverse]
      exact pairwise_arrange hn column
  -- the order that is asked for last counts, the column stays
  · have hascending : asked (some (query.getD [] ++ "&O=A".toList)) =
        ⟨(asked (some (query.getD []))).column, false⟩ :=
      asked_append (by decide : '&' ∉ "O=A".toList) rfl rfl _
    have hdescending : asked (some (query.getD [] ++ "&O=D".toList)) =
        ⟨(asked (some (query.getD []))).column, true⟩ :=
      asked_append (by decide : '&' ∉ "O=D".toList) rfl rfl _
    refine ⟨_, rows_of_render? hup, ?_⟩
    rw [rows_of_render? hdown, hascending, hdescending, arrange_descending hn, List.map_reverse]

namespace Sample

def mixed : List Item :=
  [⟨"b.txt".toList, false, 5, none⟩, ⟨"d".toList, true, 0, some ⟨784111777000000000⟩⟩,
    ⟨"a.txt".toList, false, 5, some ⟨-1⟩⟩]

end Sample

/-- The items by size, the greatest first, although the query has named another column before. -/
theorem render_sorted_sample :
    let query := some "O=D&C=M&x&C=S".toList
    (Sample.mixed.map Item.name).Nodup ∧ asked query = ⟨.size, true⟩ ∧
      render? ['/'] true query Sample.mixed.reverse = render? ['/'] true query Sample.mixed ∧
      (∃ page, render? ['/'] true query Sample.mixed = some page ∧
        ∃ (shown : List Item) (table : List (List Tag)), shown.Perm Sample.mixed ∧
          shown.reverse.Pairwise (Earlier .size) ∧ rows page = [parentCells] ++ table ∧
          List.Forall₂ (Shows ['/']) shown table) ∧
      ∃ up down, render? ['/'] true (some "O=D&C=M&x&C=S&O=A".toList) Sample.mixed = some up ∧
        render? ['/'] true (some "O=D&C=M&x&C=S&O=D".toList) Sample.mixed = some down ∧
        ∃ table : List (List Tag), rows up = [parentCells] ++ table ∧
          rows down = [parentCells] ++ table.reverse := by
  have hn : (Sample.mixed.map Item.name).Nodup := by decide
  have hasked : asked (some "O=D&C=M&x&C=S".toList) = ⟨.size, true⟩ := by decide
  have hdates : ∀ i ∈ Sample.mixed, i.OnCalendar := by
    simp only [Sample.mixed, List.forall_mem_cons]
    refine ⟨fun t h => (by cases h), fun t h => ?_, fun t h => ?_,
      fun _ h => absurd h List.not_mem_nil⟩ <;> cases h <;> decide
  obtain ⟨hsame, hwritten, hsorted, hturned⟩ :=
    render_sorted ['/'] true (some "O=D&C=M&x&C=S".toList) hn
  rw [hasked] at hsorted
  obtain ⟨page, hpage⟩ := hwritten.2 hdates
  obtain ⟨up, hup⟩ : ∃ up, render? ['/'] true (some "O=D&C=M&x&C=S&O=A".toList) Sample.mixed =
      some up := exists_render?_iff.2 hdates
  obtain ⟨down, hdown⟩ : ∃ down, render? ['/'] true (some "O=D&C=M&x&C=S&O=D".toList)
      Sample.mixed = some down := exists_render?_iff.2 hdates
  exact ⟨hn, hasked, hsame _ (List.reverse_perm _), ⟨page, hpage, hsorted page hpage⟩,
    up, down, hup, hdown, hturned up down hup hdown⟩

end Listing

end Docroot

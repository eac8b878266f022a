import Mathlib.Data.List.FinRange
import Mathlib.Data.List.Sort
import Mathlib.Data.List.TakeWhile
import Mathlib.Tactic.Common
import Docroot.Proofs.Arrangement
import Docroot.Proofs.History

/-!
The order of the codings that a client accepts, and the form that it calls for. The accepted
elements of the header lines have one arrangement by quality, by the server's preference, and by
their places, and the negotiator gives their tokens in it. The first token that stands for a form
decides which is sent; where none does, the resource itself is.
-/

namespace Docroot

/-! ### The elements of several lines -/

namespace Text

lemma forall_of_strip_eq_nil {p : Char → Bool} {s : Text} (h : strip p s = []) :
    ∀ c ∈ s, p c = true := by
  have hback : ∀ c ∈ s.dropWhile p, p c = true := by
    unfold strip dropEndWhile at h
    rw [List.reverse_eq_nil_iff, List.dropWhile_eq_nil_iff] at h
    exact fun c hc => h c (List.mem_reverse.2 hc)
  intro c hc
  rw [← List.takeWhile_append_dropWhile (p := p) (l := s)] at hc
  exact (List.mem_append.1 hc).elim List.mem_takeWhile_imp (hback c)

lemma lower_lower (s : Text) : lower (lower s) = lower s := by
  unfold lower
  rw [List.map_map]
  refine List.map_congr_left fun c _ => ?_
  show c.toLower.toLower = c.toLower
  delta Char.toLower
  grind

end Text

namespace Quality

/-- Each quote in the line is closed. -/
def Closed (line : Text) : Prop := line.count '"' % 2 = 0

instance : DecidablePred Closed := fun line =>
  inferInstanceAs (Decidable (line.count '"' % 2 = 0))

lemma pieces_cons (inQuotes : Bool) (c : Char) (r : Text) :
    pieces inQuotes (c :: r) =
      if c = ',' ∧ inQuotes = false then [] :: pieces inQuotes r
      else match pieces (if c = '"' then !inQuotes else inQuotes) r with
        | [] => [[c]]
        | p :: ps => (c :: p) :: ps := rfl

lemma pieces_ne_nil (inQuotes : Bool) (s : Text) : pieces inQuotes s ≠ [] := by
  cases s with
  | nil => exact List.cons_ne_nil _ _
  | cons c r =>
    rw [pieces_cons]
    split
    · exact List.cons_ne_nil _ _
    · split <;> exact List.cons_ne_nil _ _

lemma pieces_of_not_mem {s : Text} (h : ',' ∉ s) (inQuotes : Bool) : pieces inQuotes s = [s] := by
  induction s generalizing inQuotes with
  | nil => rfl
  | cons c r ih =>
    rw [List.mem_cons, not_or] at h
    rw [pieces_cons, if_neg fun hc => h.1 hc.1.symm, ih h.2]

/-- A comma where all quotes are closed is between two pieces. -/
lemma pieces_append {s : Text} {inQuotes : Bool} (h : (s.count '"' + inQuotes.toNat) % 2 = 0)
    (r : Text) : pieces inQuotes (s ++ ',' :: r) = pieces inQuotes s ++ pieces false r := by
  induction s generalizing inQuotes with
  | nil =>
    obtain rfl : inQuotes = false := by
      cases inQuotes
      · rfl
      · exact absurd h (by decide)
    rfl
  | cons c s ih =>
    rw [List.cons_append, pieces_cons, pieces_cons]
    by_cases hc : c = ',' ∧ inQuotes = false
    · obtain ⟨rfl, rfl⟩ := hc
      rw [if_pos ⟨rfl, rfl⟩, if_pos ⟨rfl, rfl⟩, ih (by simpa using h)]
      rfl
    · have hcount : (s.count '"' + (if c = '"' then !inQuotes else inQuotes).toNat) % 2 = 0 := by
        rw [List.count_cons] at h
        by_cases hq : c = '"'
        · cases inQuotes <;> simp [hq] at h ⊢ <;> omega
        · simpa [hq] using h
      rw [if_neg hc, if_neg hc, ih hcount]
      cases hp : pieces (if c = '"' then !inQuotes else inQuotes) s with
      | nil => exact absurd hp (pieces_ne_nil _ _)
      | cons p ps => rfl

lemma parse_append {s : Text} (h : Closed s) (r : Text) :
    parse (s ++ ',' :: r) = parse s ++ parse r := by
  unfold parse elements
  rw [pieces_append (show (s.count '"' + Bool.toNat false) % 2 = 0 from h), List.map_append,
    List.filter_append, List.filterMap_append]

lemma parse_of_trim_eq_nil {value : Text} (h : Text.trim value = []) : parse value = [] := by
  have hcomma : ',' ∉ value := fun hm =>
    absurd (Text.forall_of_strip_eq_nil h ',' hm) (by decide)
  unfold parse elements
  rw [pieces_of_not_mem hcomma]
  simp [h]

/-- **The elements of several lines** are those of each line after the other, if the quotes of each
line are closed. -/
theorem parse_key {lines : List Text} (h : ∀ line ∈ lines, Closed line) :
    parse (Negotiator.key lines) = lines.flatMap parse := by
  unfold Negotiator.key
  induction lines with
  | nil => rfl
  | cons line lines ih =>
    obtain ⟨hline, hlines⟩ := List.forall_mem_cons.1 h
    rcases lines with _ | ⟨next, lines⟩
    · simp [Text.joinWith]
    · rw [Text.joinWith_cons (List.cons_ne_nil next lines), List.append_assoc,
        List.singleton_append, parse_append hline, ih hlines]
      rfl

lemma lower_token {value : Text} : ∀ i ∈ parse value, Text.lower i.token = i.token := by
  intro i hi
  obtain ⟨element, -, he⟩ := List.mem_filterMap.1 hi
  unfold item? at he
  split at he
  · cases he
  · simp only at he
    split at he
    · cases he
    · cases he
      exact Text.lower_lower _

end Quality

/-! ### The order -/

namespace Negotiator

variable {names : List Text} {items : List Quality.Item} {tokens : List Text}

/-- The place of a coding among the names that the server prefers, in lower case; a coding that is
not among them comes after them all. -/
def place (names : List Text) (token : Text) : Nat := (names.map Text.lower).idxOf token

/-- The element at `i` is preferred to the one at `j`. -/
def Preferred (names : List Text) (items : List Quality.Item) (i j : Fin items.length) : Prop :=
  items[j].quality < items[i].quality ∨
    items[i].quality = items[j].quality ∧
      (place names items[i].token < place names items[j].token ∨
        place names items[i].token = place names items[j].token ∧ (i : Nat) < j)

/-- These are the tokens of the accepted elements, each of which occurs once, the most preferred
first. -/
def Arranges (names : List Text) (items : List Quality.Item) (tokens : List Text) : Prop :=
  ∃ places : List (Fin items.length), (∀ i, i ∈ places ↔ 0 < items[i].quality) ∧
    places.Pairwise (Preferred names items) ∧ tokens = places.map fun i => items[i].token

lemma rank_eq_place (names : List Text) (token : Text) :
    rank (names.map Text.lower) token = place names token :=
  List.findIdx_eq_getD_findIdx?.symm

lemma ranks_comesBefore (preferred : List Text) : Ordered.Ranks (comesBefore preferred) where
  asymm := by
    intro a b h
    simp only [comesBefore, Bool.or_eq_true, Bool.and_eq_true, decide_eq_true_eq, beq_iff_eq,
      Bool.or_eq_false_iff, Bool.and_eq_false_imp, decide_eq_false_iff_not] at h ⊢
    omega
  trans := by
    intro a b c hab hbc
    simp only [comesBefore, Bool.or_eq_false_iff, Bool.and_eq_false_imp, decide_eq_false_iff_not,
      beq_iff_eq] at hab hbc ⊢
    omega

lemma preferred_of_precedes {i j : Fin items.length}
    (h : Ordered.Precedes (fun i j => comesBefore (names.map Text.lower) items[i] items[j])
      (fun i j : Fin items.length => i < j) i j) : Preferred names items i j := by
  simp only [Ordered.Precedes, comesBefore, rank_eq_place, Bool.or_eq_true, Bool.and_eq_true,
    decide_eq_true_eq, beq_iff_eq, Bool.or_eq_false_iff, Bool.and_eq_false_imp,
    decide_eq_false_iff_not, Fin.lt_def] at h
  unfold Preferred
  omega

lemma Preferred.asymm {i j : Fin items.length} (h : Preferred names items i j) :
    ¬ Preferred names items j i := by
  unfold Preferred at h ⊢
  omega

/-- **The order of a value** is an arrangement of its accepted elements. -/
theorem arranges_orderOf (names : List Text) (value : Text) :
    Arranges names (Quality.parse value) (orderOf (names.map Text.lower) value) := by
  generalize hitems : Quality.parse value = items
  refine ⟨Ordered.sort (fun i j => comesBefore (names.map Text.lower) items[i] items[j])
    ((List.finRange items.length).filter fun i => decide (0 < items[i].quality)), ?_, ?_, ?_⟩
  · intro i
    rw [(Ordered.sort_perm _ _).mem_iff]
    simp
  · have hranks : Ordered.Ranks fun i j : Fin items.length =>
        comesBefore (names.map Text.lower) items[i] items[j] :=
      ⟨(ranks_comesBefore _).asymm, (ranks_comesBefore _).trans⟩
    have hplaces := (List.pairwise_lt_finRange items.length).filter
      fun i => decide (0 < items[i].quality)
    exact (hranks.pairwise_sort hplaces).imp preferred_of_precedes
  · have haccepted : (items.filter fun i => decide (0 < i.quality)) =
        ((List.finRange items.length).filter fun i => decide (0 < items[i].quality)).map
          fun i => items[i] := by
      conv_lhs => rw [← List.map_getElem_finRange items]
      rw [List.filter_map]
      rfl
    unfold orderOf
    rw [hitems, haccepted, Ordered.map_sort, List.map_map]
    rfl

lemma Arranges.unique {others : List Text} (h : Arranges names items tokens)
    (h' : Arranges names items others) : others = tokens := by
  obtain ⟨places, hmem, hsorted, rfl⟩ := h
  obtain ⟨places', hmem', hsorted', rfl⟩ := h'
  have hirrefl : Std.Irrefl (Preferred names items) := ⟨fun _ hi => hi.asymm hi⟩
  have hperm : places'.Perm places := (List.perm_ext_iff_of_nodup hsorted'.nodup hsorted.nodup).2
    fun i => (hmem' i).trans (hmem i).symm
  rw [hperm.eq_of_pairwise (fun _ _ _ _ hij hji => absurd hji hij.asymm) hsorted' hsorted]

/-- Lines that say nothing have no codings, as their value has none. -/
lemma codings_eq_orderOf (preferred lines : List Text) :
    codings preferred lines = orderOf preferred (key lines) := by
  unfold codings
  split
  · next hblank =>
    unfold orderOf
    rw [Quality.parse_of_trim_eq_nil (List.isEmpty_iff.1 hblank)]
    rfl
  · rfl

lemma mem_codings_iff {preferred lines : List Text} {token : Text} :
    token ∈ codings preferred lines ↔
      ∃ i ∈ Quality.parse (key lines), i.token = token ∧ 0 < i.quality := by
  rw [codings_eq_orderOf, orderOf, List.mem_map]
  simp only [(Ordered.sort_perm _ _).mem_iff, List.mem_filter, decide_eq_true_eq]
  exact exists_congr fun i => by rw [and_assoc, and_comm (a := 0 < i.quality)]

end Negotiator

/-! ### The choice -/

namespace Variant

variable {variants : List Variant} {order : List Text} {token : Text} {v : Variant}

/-- Among forms in configured order, the star stands for the first one, and any other token for the
first one that has exactly this coding. -/
def StandsFor (variants : List Variant) (token : Text) (v : Variant) : Prop :=
  token = ['*'] ∧ variants.head? = some v ∨
    token ≠ ['*'] ∧ ∃ earlier later, variants = earlier ++ v :: later ∧ v.format.encoding = token ∧
      ∀ u ∈ earlier, u.format.encoding ≠ token

/-- The token is exactly the coding of one of the forms, or it is the star, and there are forms. -/
def Names (variants : List Variant) (token : Text) : Prop :=
  token = ['*'] ∧ variants ≠ [] ∨ ∃ v ∈ variants, v.format.encoding = token

/-- The form that a row of tokens calls for: the one that its first token that names a form stands
for, or none if no token names a form. -/
inductive Calls (variants : List Variant) (order : List Text) : Option Variant → Prop
  | form {earlier later : List Text} {token : Text} {v : Variant}
      (ho : order = earlier ++ token :: later) (he : ∀ other ∈ earlier, ¬ Names variants other)
      (hv : StandsFor variants token v) : Calls variants order (some v)
  | base (h : ∀ token ∈ order, ¬ Names variants token) : Calls variants order none

lemma calls_none_iff : Calls variants order none ↔ ∀ token ∈ order, ¬ Names variants token :=
  ⟨fun | .base h => h, .base⟩

lemma select?_eq_some_iff : select? token variants = some v ↔ StandsFor variants token v := by
  unfold select? StandsFor Format.isNamedBy
  by_cases hstar : token = ['*']
  · subst hstar
    cases variants <;> simp
  · rw [List.find?_eq_some_iff_append]
    simp only [beq_eq_false_iff_ne.2 hstar, Bool.false_or, beq_iff_eq, hstar, false_and, false_or,
      ne_eq, not_false_eq_true, true_and, Bool.not_eq_true', beq_eq_false_iff_ne]
    constructor
    · rintro ⟨hv, earlier, later, he, hn⟩
      exact ⟨earlier, later, he, hv, hn⟩
    · rintro ⟨earlier, later, he, hv, hn⟩
      exact ⟨hv, earlier, later, he, hn⟩

lemma select?_eq_none_iff : select? token variants = none ↔ ¬ Names variants token := by
  unfold select? Names Format.isNamedBy
  rw [List.find?_eq_none]
  by_cases hstar : token = ['*']
  · subst hstar
    cases variants with
    | nil => simp
    | cons v later =>
      have hnames : ['*'] = ['*'] ∧ v :: later ≠ [] := ⟨rfl, List.cons_ne_nil v later⟩
      exact iff_of_false (fun h => h v List.mem_cons_self rfl) (not_not_intro (Or.inl hnames))
  · simp [hstar]

/-- **The choice**: what is sent is what the row of tokens calls for. -/
theorem calls_iff {form : Option Variant} :
    Calls variants order form ↔ Service.chosen order variants = form := by
  unfold Service.chosen
  constructor
  · intro h
    cases h with
    | form ho he hv =>
      rw [List.findSome?_eq_some_iff]
      exact ⟨_, _, _, ho, select?_eq_some_iff.2 hv, fun other hm =>
        select?_eq_none_iff.2 (he other hm)⟩
    | base h =>
      exact List.findSome?_eq_none_iff.2 fun token hm => select?_eq_none_iff.2 (h token hm)
  · rintro rfl
    cases hc : order.findSome? fun token => select? token variants with
    | none =>
      exact .base fun token hm => select?_eq_none_iff.1 (List.findSome?_eq_none_iff.1 hc token hm)
    | some v =>
      obtain ⟨earlier, token, later, ho, hv, he⟩ := List.findSome?_eq_some_iff.1 hc
      exact .form ho (fun other hm => select?_eq_none_iff.1 (he other hm))
        (select?_eq_some_iff.1 hv)

end Variant

namespace Service

open Serving

/-- What is sent when a form of `base` is called for, which is presented as `base`, or when none is
and `base` itself is sent. -/
def sentAs (s : Service) (q : Inquiry) (base : Resource) (d : Draft) :
    Option Variant → Except Abort Reply
  | some v => (Delivery.deliver s.options q.boundary q.headOnly q.path
      (q.headers.lines HeaderName.range) v.resource
      (Representation.presentAsBase base v.format d)).result
  | none => (Delivery.deliver s.options q.boundary q.headOnly q.path
      (q.headers.lines HeaderName.range) base d).result

lemma run_send_compressible (s : Service) (q : Inquiry) (base : Resource) (variants : List Variant)
    (d : Draft) (n : Negotiator) :
    (run (s.send q ⟨base, .compressible variants⟩ d) n).1 =
      s.sentAs q base (d.append HeaderName.vary (Text.utf8 "Accept-Encoding".toList))
        (chosen (n.order (q.headers.lines HeaderName.acceptEncoding)).1 variants) := by
  rw [run_send]
  simp only [consulted, presented]
  cases chosen (n.order (q.headers.lines HeaderName.acceptEncoding)).1 variants <;> rfl

/-- **Order and choice**: whatever was asked of a negotiator before, the row of tokens that it gives
for header lines is the one arrangement of the accepted elements, whose tokens are in lower case;
these are the elements of each line after the other, unless a quote is left open. A resource with
compressed forms is sent in the form that the row calls for, and as it is if the row calls for
none. -/
theorem arranged_and_sent (names : List Text) (capacity : Nat) (calls : List Negotiator.Call) :
    let n := (Negotiator.new names capacity).afterAll calls
    (∀ lines, let items := Quality.parse (Negotiator.key lines)
      Negotiator.Arranges names items (n.order lines).1 ∧
        (∀ tokens, Negotiator.Arranges names items tokens → tokens = (n.order lines).1) ∧
        (∀ i ∈ items, Text.lower i.token = i.token) ∧
        ((∀ line ∈ lines, Quality.Closed line) → items = lines.flatMap Quality.parse)) ∧
      ∀ (s : Service) (q : Inquiry) (base : Resource) (variants : List Variant) (d : Draft),
        let order := (n.order (q.headers.lines HeaderName.acceptEncoding)).1
        ∃ form, (∀ other, Variant.Calls variants order other ↔ other = form) ∧
          (run (s.send q ⟨base, .compressible variants⟩ d) n).1 =
            s.sentAs q base (d.append HeaderName.vary (Text.utf8 "Accept-Encoding".toList))
              form := by
  intro n
  have hn := ((Negotiator.kept_new names capacity).afterAll calls).toSound
  refine ⟨fun lines => ?_, fun s q base variants d => ⟨_, fun other => ?_,
    run_send_compressible s q base variants d n⟩⟩
  · have ha : Negotiator.Arranges names (Quality.parse (Negotiator.key lines))
        (n.order lines).1 := by
      rw [hn.order_fst, Negotiator.codings_eq_orderOf]
      exact Negotiator.arranges_orderOf names _
    exact ⟨ha, fun _ ht => ha.unique ht, Quality.lower_token, Quality.parse_key⟩
  · exact Variant.calls_iff.trans eq_comm

/-- A coding that is not preferred comes behind one that is, whichever line it stands in. -/
example : ((Negotiator.new ["br".toList, "GZIP".toList] 1).order
    ["x-a, Gzip;q=0.5, gzip".toList, "br, deflate;q=0, *".toList]).1 =
      ["br".toList, "gzip".toList, "x-a".toList, ['*'], "gzip".toList] := by
  decide +kernel

end Service

end Docroot

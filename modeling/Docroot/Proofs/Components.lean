import Mathlib.Data.List.Forall2
import Mathlib.Data.List.Induction
import Mathlib.Data.List.Sort
import Mathlib.Logic.Relation
import Docroot.Proofs.Joining

/-!
What the sum of a list of ranges is. Two ranges of the list are linked when a chain of ranges leads
from one to the other, each of which shares a byte with the next. The linked ranges cover an
interval, and the sum consists of these intervals, in the order of the earliest range in each. From
this follows what a reply in several parts relies on: no byte is sent twice and none is left out.
-/

namespace Docroot.ByteRange

/-- A chain of ranges of the list, each sharing a byte with the one before, leads from the first
range to the second. -/
def Linked (es : List ByteRange) : ByteRange → ByteRange → Prop :=
  Relation.ReflTransGen fun r s => s ∈ es ∧ r.Shares s

/-- The range `r` has just the bytes of the ranges that `e` is linked with. -/
def Spans (es : List ByteRange) (e r : ByteRange) : Prop :=
  ∀ b, r.Covers b ↔ ∃ x ∈ es, Linked es e x ∧ x.Covers b

/-- The range at place `i` is linked with none before it. -/
def Opens (es : List ByteRange) (i : Nat) : Prop :=
  ∃ e, es[i]? = some e ∧ ∀ j < i, ∀ x, es[j]? = some x → ¬ Linked es x e

/-- There is one range for each that is linked with none before it, in the order of these, and it
spans what is linked with that one. -/
def Components (es rs : List ByteRange) : Prop :=
  ∃ places : List Nat, places.Pairwise (· < ·) ∧ (∀ i, i ∈ places ↔ Opens es i) ∧
    List.Forall₂ (fun i r => ∃ e, es[i]? = some e ∧ Spans es e r) places rs

variable {es rs : List ByteRange} {e r s x : ByteRange}

namespace Linked

lemma mem (h : Linked es e x) (he : e ∈ es) : x ∈ es := by
  cases h with
  | refl => exact he
  | tail _ hx => exact hx.1

lemma symm (h : Linked es e x) (he : e ∈ es) : Linked es x e := by
  induction h with
  | refl => exact .refl
  | tail hy hyz ih => exact .head ⟨mem hy he, hyz.2.symm⟩ ih

lemma mono (h : Linked es e x) {es' : List ByteRange} (hs : es ⊆ es') : Linked es' e x := by
  induction h with
  | refl => exact .refl
  | tail _ hy ih => exact ih.tail ⟨hs hy.1, hy.2⟩

end Linked

def Inside (e r : ByteRange) : Prop := r.first ≤ e.first ∧ e.last ≤ r.last

instance (e r : ByteRange) : Decidable (e.Inside r) :=
  inferInstanceAs (Decidable (r.first ≤ e.first ∧ e.last ≤ r.last))

lemma Inside.covers (h : e.Inside r) {b : Nat} (hb : e.Covers b) : r.Covers b :=
  ⟨Nat.le_trans h.1 hb.1, Nat.le_trans hb.2 h.2⟩

lemma inside_of_covers (he : e.Proper) (h : ∀ b, e.Covers b → r.Covers b) : e.Inside r :=
  ⟨(h e.first he.covers_first).1, (h e.last ⟨he, Nat.le_refl _⟩).2⟩

/-- The place of the earliest range of the list that lies in `r`. -/
def earliest (es : List ByteRange) (r : ByteRange) : Nat := es.findIdx fun e => decide (e.Inside r)

lemma earliest_lt (h : ∃ x ∈ es, x.Inside r) : earliest es r < es.length := by
  refine List.findIdx_lt_length_of_exists ?_
  simpa using h

lemma exists_earliest (h : ∃ x ∈ es, x.Inside r) :
    ∃ x, es[earliest es r]? = some x ∧ x ∈ es ∧ x.Inside r := by
  have hlt := earliest_lt h
  exact ⟨es[earliest es r], List.getElem?_eq_getElem hlt, List.getElem_mem hlt,
    of_decide_eq_true (List.findIdx_getElem (w := hlt))⟩

lemma not_inside_of_lt {i : Nat} (hi : i < earliest es r) (hx : es[i]? = some x) :
    ¬ x.Inside r := by
  obtain ⟨hlt, rfl⟩ := List.getElem?_eq_some_iff.1 hx
  simpa using List.not_of_lt_findIdx hi

lemma earliest_le {i : Nat} (hx : es[i]? = some x) (h : x.Inside r) : earliest es r ≤ i :=
  Nat.le_of_not_lt fun hi => not_inside_of_lt hi hx h

lemma earliest_append (h : ∃ x ∈ es, x.Inside r) (later : List ByteRange) :
    earliest (es ++ later) r = earliest es r :=
  List.findIdx_append.trans (if_pos (earliest_lt h))

/-- The ranges `rs` are disjoint, take in all of `es`, and each is filled and held together by the
ranges that lie in it; they stand in the order of the earliest of these. -/
structure Joined (es rs : List ByteRange) : Prop where
  apart : Apart rs
  inside : ∀ e ∈ es, ∃ r ∈ rs, e.Inside r
  filled : ∀ r ∈ rs, ∀ b, r.Covers b → ∃ e ∈ es, e.Inside r ∧ e.Covers b
  linked : ∀ r ∈ rs, ∀ e ∈ es, ∀ x ∈ es, e.Inside r → x.Inside r → Linked es e x
  ordered : rs.Pairwise fun r s => earliest es r < earliest es s

namespace Joined

lemma exists_inside (h : Joined es rs) (hr : r ∈ rs) : ∃ x ∈ es, x.Inside r := by
  obtain ⟨x, hx, hi, -⟩ := h.filled r hr r.first (h.apart.proper r hr).covers_first
  exact ⟨x, hx, hi⟩

lemma inside_of_shares (h : Joined es rs) (hr : r ∈ rs) (hx : x ∈ es) (hi : e.Inside r)
    (hs : e.Shares x) : x.Inside r := by
  obtain ⟨b, heb, hxb⟩ := hs
  obtain ⟨s, hs, hxs⟩ := h.inside x hx
  rw [h.apart.eq_of_shares hr hs ⟨b, hi.covers heb, hxs.covers hxb⟩]
  exact hxs

lemma inside_of_linked (h : Joined es rs) (hr : r ∈ rs) (hi : e.Inside r) (hl : Linked es e x) :
    x.Inside r := by
  induction hl with
  | refl => exact hi
  | tail _ hyz ih => exact h.inside_of_shares hr hyz.1 ih hyz.2

/-- A range of the sum spans what any range that lies in it is linked with. -/
lemma spans (h : Joined es rs) (hr : r ∈ rs) (he : e ∈ es) (hi : e.Inside r) : Spans es e r := by
  intro b
  constructor
  · intro hb
    obtain ⟨x, hx, hxi, hxb⟩ := h.filled r hr b hb
    exact ⟨x, hx, h.linked r hr e he x hx hi hxi, hxb⟩
  · rintro ⟨x, -, hl, hxb⟩
    exact (h.inside_of_linked hr hi hl).covers hxb

/-- The earliest ranges of the sum are those that are linked with none before them. -/
lemma mem_map_earliest (h : Joined es rs) (i : Nat) :
    i ∈ rs.map (earliest es) ↔ Opens es i := by
  rw [List.mem_map]
  constructor
  · rintro ⟨r, hr, rfl⟩
    obtain ⟨e, hget, he, hi⟩ := exists_earliest (h.exists_inside hr)
    refine ⟨e, hget, fun j hj x hx hl => not_inside_of_lt hj hx ?_⟩
    exact h.inside_of_linked hr hi (hl.symm (List.mem_of_getElem? hx))
  · rintro ⟨e, hget, hfirst⟩
    have he := List.mem_of_getElem? hget
    obtain ⟨r, hr, hi⟩ := h.inside e he
    refine ⟨r, hr, Nat.le_antisymm (earliest_le hget hi) (Nat.le_of_not_lt fun hlt => ?_)⟩
    obtain ⟨x, hx, hxm, hxi⟩ := exists_earliest ⟨e, he, hi⟩
    exact hfirst _ hlt x hx (h.linked r hr x hxm e he hxi hi)

theorem components (h : Joined es rs) : Components es rs := by
  refine ⟨rs.map (earliest es), List.pairwise_map.2 h.ordered, h.mem_map_earliest, ?_⟩
  rw [List.forall₂_map_left_iff, List.forall₂_same]
  intro r hr
  obtain ⟨e, hget, he, hi⟩ := exists_earliest (h.exists_inside hr)
  exact ⟨e, hget, h.spans hr he hi⟩

/-! ### One more range -/

lemma nil : Joined [] [] :=
  ⟨⟨fun _ h => absurd h List.not_mem_nil, List.Pairwise.nil⟩, fun _ h => absurd h List.not_mem_nil,
    fun _ h => absurd h List.not_mem_nil, fun _ h => absurd h List.not_mem_nil, List.Pairwise.nil⟩

lemma earliest_snoc (h : Joined es rs) (hr : r ∈ rs) (e : ByteRange) :
    earliest (es ++ [e]) r = earliest es r :=
  earliest_append (h.exists_inside hr) [e]

lemma linked_of_shares (h : Joined es rs) (hr : r ∈ rs) (hre : r.Shares e) (hx : x ∈ es)
    (hi : x.Inside r) : Linked (es ++ [e]) x e := by
  obtain ⟨b, hrb, heb⟩ := hre
  obtain ⟨y, hy, hyi, hyb⟩ := h.filled r hr b hrb
  refine ((h.linked r hr x hx y hy hi hyi).mono (List.subset_append_left _ _)).tail ?_
  exact ⟨by simp, b, hyb, heb⟩

variable (h : Joined es rs) (hes : ∀ x ∈ es, x.Proper) (he : e.Proper)
include h he

lemma inside_widened_self : e.Inside (widened rs e) :=
  inside_of_covers he fun _ hb => (covers_widened h.apart.proper he).2 (Or.inl hb)

lemma mem_add : r ∈ ByteRange.add rs e ↔ r = widened rs e ∨ r ∈ rs ∧ ¬ r.Shares e := by
  obtain ⟨front, back, hadd, hp⟩ := exists_placed h.apart he
  rw [← hp.mem_iff, hadd, List.mem_append, List.mem_append, List.mem_cons]
  tauto

lemma apart_add : Apart (ByteRange.add rs e) := by
  obtain ⟨front, back, hadd, hp⟩ := exists_placed h.apart he
  have hapart : ∀ r ∈ front ++ back, ¬ r.Shares (widened rs e) := by
    intro r hr
    obtain ⟨hr, hn⟩ := hp.mem_iff.1 hr
    exact h.apart.not_shares_widened he hr hn
  constructor
  · intro r hr
    rcases (h.mem_add he).1 hr with rfl | ⟨hr, -⟩
    · exact proper_widened he
    · exact h.apart.proper r hr
  · rw [hadd]
    exact hp.pairwise h.apart.pairwise (fun r hr => hapart r (by simp [hr]))
      fun r hr hn => hapart r (by simp [hr]) hn.symm

include hes

/-- What lies in the widened range lay in a range that it has taken in. -/
lemma inside_widened_iff (hx : x ∈ es) :
    x.Inside (widened rs e) ↔ ∃ r ∈ rs, r.Shares e ∧ x.Inside r := by
  have hp := h.apart.proper
  constructor
  · intro hi
    obtain ⟨r, hr, hxr⟩ := h.inside x hx
    have hb : (widened rs e).Covers x.first := hi.covers (hes x hx).covers_first
    have hrb : r.Covers x.first := hxr.covers (hes x hx).covers_first
    rcases (covers_widened hp he).1 hb with hb | ⟨s, hs, hse, hsb⟩
    · exact ⟨r, hr, ⟨x.first, hrb, hb⟩, hxr⟩
    · obtain rfl := h.apart.eq_of_shares hr hs ⟨x.first, hrb, hsb⟩
      exact ⟨r, hr, hse, hxr⟩
  · rintro ⟨r, hr, hre, hi⟩
    refine inside_of_covers (hes x hx) fun b hb => ?_
    exact (covers_widened hp he).2 (Or.inr ⟨r, hr, hre, hi.covers hb⟩)

lemma linked_widened (hx : x ∈ es ++ [e]) (hi : x.Inside (widened rs e)) :
    Linked (es ++ [e]) x e := by
  rcases List.mem_append.1 hx with hx | hx
  · obtain ⟨r, hr, hre, hxr⟩ := (h.inside_widened_iff hes he hx).1 hi
    exact h.linked_of_shares hr hre hx hxr
  · rw [List.mem_singleton.1 hx]
    exact .refl

lemma linked_add {y : ByteRange} (hr : r ∈ ByteRange.add rs e) (hx : x ∈ es ++ [e])
    (hy : y ∈ es ++ [e]) (hxi : x.Inside r) (hyi : y.Inside r) : Linked (es ++ [e]) x y := by
  rcases (h.mem_add he).1 hr with rfl | ⟨hr, hn⟩
  · exact (h.linked_widened hes he hx hxi).trans ((h.linked_widened hes he hy hyi).symm hy)
  · -- the new range does not lie in one that shares no byte with it
    have hold : ∀ z ∈ es ++ [e], z.Inside r → z ∈ es := by
      intro z hz hi
      rcases List.mem_append.1 hz with hz | hz
      · exact hz
      · rw [List.mem_singleton.1 hz] at hi
        exact absurd ⟨e.first, hi.covers he.covers_first, he.covers_first⟩ hn
    exact (h.linked r hr x (hold x hx hxi) y (hold y hy hyi) hxi hyi).mono
      (List.subset_append_left _ _)

/-- Where the ranges that the widened one has taken in begin, it begins at the earliest. -/
lemma le_earliest_widened {k : Nat} (hk : k ≤ es.length)
    (hr : ∀ r ∈ rs, r.Shares e → k ≤ earliest es r) :
    k ≤ earliest (es ++ [e]) (widened rs e) := by
  by_contra hlt
  have hself : ∃ x ∈ es ++ [e], x.Inside (widened rs e) :=
    ⟨e, by simp, h.inside_widened_self he⟩
  obtain ⟨x, hx, -, hi⟩ := exists_earliest hself
  rw [List.getElem?_append_left (by omega)] at hx
  obtain ⟨r, hrs, hre, hxr⟩ := (h.inside_widened_iff hes he (List.mem_of_getElem? hx)).1 hi
  have h1 := hr r hrs hre
  have h2 := earliest_le hx hxr
  omega

/-- The widened range stands where the earliest of its ranges calls for. -/
lemma earliest_widened {front left : List ByteRange} (hp : Placed rs e front left) :
    (∀ r ∈ front, earliest (es ++ [e]) r < earliest (es ++ [e]) (widened rs e)) ∧
      ∀ r ∈ left, earliest (es ++ [e]) (widened rs e) < earliest (es ++ [e]) r := by
  cases hp with
  | last hn =>
    have hle := h.le_earliest_widened hes he (Nat.le_refl _) fun r hr hre => absurd hre (hn r hr)
    refine ⟨fun r hr => ?_, fun r hr => absurd hr List.not_mem_nil⟩
    rw [h.earliest_snoc hr]
    exact Nat.lt_of_lt_of_le (earliest_lt (h.exists_inside hr)) hle
  | @first s _ back _ hrs hf hs hl hb =>
    obtain rfl := hrs
    obtain ⟨-, hord, hfront⟩ := List.pairwise_append.1 h.ordered
    have hback := (List.pairwise_cons.1 hord).1
    have hsm : s ∈ front ++ s :: back := by simp
    -- the first entry within the widened range is the first within `s`, which was there before `e`
    have heq : earliest (es ++ [e]) (widened (front ++ s :: back) e) = earliest es s := by
      obtain ⟨x, hget, hx, hi⟩ := exists_earliest (h.exists_inside hsm)
      refine Nat.le_antisymm (earliest_le ?_ ((h.inside_widened_iff hes he hx).2 ⟨s, hsm, hs, hi⟩))
        (h.le_earliest_widened hes he (Nat.le_of_lt (earliest_lt ⟨x, hx, hi⟩)) fun r hr hre => ?_)
      · rw [List.getElem?_append_left (earliest_lt ⟨x, hx, hi⟩), hget]
      · rw [List.mem_append, List.mem_cons] at hr
        rcases hr with hr | rfl | hr
        · exact absurd hre (hf r hr)
        · exact Nat.le_refl _
        · exact Nat.le_of_lt (hback r hr)
    refine ⟨fun r hr => ?_, fun r hr => ?_⟩
    · rw [heq, h.earliest_snoc (by simp [hr])]
      exact hfront r hr s List.mem_cons_self
    · have hrb := ((hb r).1 hr).1
      rw [heq, h.earliest_snoc (by simp [hrb])]
      exact hback r hrb

/-- **One more range** keeps the ranges joined. -/
theorem add : Joined (es ++ [e]) (ByteRange.add rs e) := by
  have hself := h.inside_widened_self he
  have htaken := fun x (hx : x ∈ es) => h.inside_widened_iff hes he hx
  constructor
  case apart => exact h.apart_add he
  -- a range lies in the widened one, or where it lay before
  case inside =>
    intro x hx
    rcases List.mem_append.1 hx with hx | hx
    · obtain ⟨r, hr, hi⟩ := h.inside x hx
      by_cases hre : r.Shares e
      · exact ⟨_, (h.mem_add he).2 (Or.inl rfl), (htaken x hx).2 ⟨r, hr, hre, hi⟩⟩
      · exact ⟨r, (h.mem_add he).2 (Or.inr ⟨hr, hre⟩), hi⟩
    · rw [List.mem_singleton.1 hx]
      exact ⟨_, (h.mem_add he).2 (Or.inl rfl), hself⟩
  case filled =>
    intro r hr b hb
    rcases (h.mem_add he).1 hr with rfl | ⟨hr, -⟩
    · rcases (covers_widened h.apart.proper he).1 hb with hb | ⟨s, hs, hse, hsb⟩
      · exact ⟨e, by simp, hself, hb⟩
      · obtain ⟨x, hx, hi, hxb⟩ := h.filled s hs b hsb
        exact ⟨x, by simp [hx], (htaken x hx).2 ⟨s, hs, hse, hi⟩, hxb⟩
    · obtain ⟨x, hx, hi, hxb⟩ := h.filled r hr b hb
      exact ⟨x, by simp [hx], hi, hxb⟩
  case linked => exact fun r hr x hx y hy hxi hyi => h.linked_add hes he hr hx hy hxi hyi
  -- the widened range stands where the first of the ranges stood that it took in
  case ordered =>
    obtain ⟨front, back, hadd, hp⟩ := exists_placed h.apart he
    obtain ⟨hfront, hback⟩ := h.earliest_widened hes he hp
    rw [hadd]
    refine hp.pairwise (h.ordered.imp_of_mem fun {r s} hr hs hlt => ?_) hfront hback
    rw [h.earliest_snoc hr, h.earliest_snoc hs]
    exact hlt

end Joined

/-- **The sum of ranges** consists of their components. -/
theorem joined_sum (h : ∀ e ∈ es, e.Proper) : Joined es (sum es) := by
  induction es using List.reverseRecOn with
  | nil => exact Joined.nil
  | append_singleton es e ih =>
    have hes : ∀ x ∈ es, x.Proper := fun x hx => h x (by simp [hx])
    rw [sum, List.foldl_append]
    exact (ih hes).add hes (h e (by simp))

/-! ### The one sum -/

lemma Spans.unique (h : Spans es e r) (h' : Spans es e s) (hm : e ∈ es) (he : e.Proper) :
    r = s := by
  have hiff : ∀ b, r.Covers b ↔ s.Covers b := fun b => (h b).trans (h' b).symm
  have hr : r.Covers e.first := (h _).2 ⟨e, hm, .refl, he.covers_first⟩
  have hpr : r.Proper := Nat.le_trans hr.1 hr.2
  have hs := (hiff _).1 hr
  have hps : s.Proper := Nat.le_trans hs.1 hs.2
  obtain ⟨h1, -⟩ := (hiff r.first).1 hpr.covers_first
  obtain ⟨-, h2⟩ := (hiff r.last).1 ⟨hpr, Nat.le_refl _⟩
  obtain ⟨h3, -⟩ := (hiff s.first).2 hps.covers_first
  obtain ⟨-, h4⟩ := (hiff s.last).2 ⟨hps, Nat.le_refl _⟩
  cases r
  cases s
  simp only at h1 h2 h3 h4
  rw [Nat.le_antisymm h1 h3, Nat.le_antisymm h2 h4]

theorem Components.unique (hes : ∀ x ∈ es, x.Proper) {rs' : List ByteRange}
    (h : Components es rs) (h' : Components es rs') : rs = rs' := by
  obtain ⟨places, hsorted, hmem, hall⟩ := h
  obtain ⟨places', hsorted', hmem', hall'⟩ := h'
  obtain rfl : places = places' :=
    hsorted.eq_of_mem_iff hsorted' fun i => (hmem i).trans (hmem' i).symm
  clear hsorted hsorted' hmem hmem'
  induction hall generalizing rs' with
  | nil =>
    cases hall'
    rfl
  | cons hr _ ih =>
    cases hall' with
    | cons hr' hall' =>
      obtain ⟨e, hget, hspans⟩ := hr
      obtain ⟨e', hget', hspans'⟩ := hr'
      obtain rfl : e = e' := Option.some.inj (hget.symm.trans hget')
      have he := List.mem_of_getElem? hget
      rw [hspans.unique hspans' he (hes e he), ih hall']

end Docroot.ByteRange

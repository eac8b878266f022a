import Mathlib.Data.List.InsertIdx
import Mathlib.Data.List.Pairwise
import Mathlib.Tactic.Common
import Docroot.Proofs.Ranges

/-!
One more range in a list of ranges of which no two share a byte. It is joined with the ranges that
it shares a byte with, all of them at once: what it reaches only by way of another range would share
a byte with that one. The joined range stands where the first of them stood.
-/

namespace Docroot.ByteRange

def Covers (r : ByteRange) (b : Nat) : Prop := r.first ≤ b ∧ b ≤ r.last

def Shares (r s : ByteRange) : Prop := ∃ b, r.Covers b ∧ s.Covers b

def Proper (r : ByteRange) : Prop := r.first ≤ r.last

variable {r s x : ByteRange} {rs front back : List ByteRange}

lemma Shares.symm (h : r.Shares s) : s.Shares r := by
  obtain ⟨b, hr, hs⟩ := h
  exact ⟨b, hs, hr⟩

lemma Proper.covers_first (h : r.Proper) : r.Covers r.first := ⟨Nat.le_refl _, h⟩

lemma overlaps_iff (hr : r.Proper) (hs : s.Proper) : r.overlaps s = true ↔ r.Shares s := by
  unfold overlaps Shares Covers
  rw [Bool.and_eq_true, decide_eq_true_eq, decide_eq_true_eq]
  constructor
  · rintro ⟨h1, h2⟩
    refine ⟨max r.first s.first, ⟨Nat.le_max_left _ _, ?_⟩, Nat.le_max_right _ _, ?_⟩
    · exact Nat.max_le.2 ⟨hr, h2⟩
    · exact Nat.max_le.2 ⟨h1, hs⟩
  · rintro ⟨b, ⟨h1, h2⟩, h3, h4⟩
    omega

lemma proper_hull (hr : r.Proper) : (hull r s).Proper :=
  Nat.le_trans (Nat.min_le_left _ _) (Nat.le_trans hr (Nat.le_max_left _ _))

/-- Nothing lies between two ranges that share a byte, so their hull has only their bytes. -/
lemma covers_hull (h : r.Shares s) {b : Nat} : (hull r s).Covers b ↔ r.Covers b ∨ s.Covers b := by
  obtain ⟨c, ⟨h1, h2⟩, h3, h4⟩ := h
  unfold Covers hull
  simp only
  omega

lemma shares_hull (h : r.Shares s) : x.Shares (hull r s) ↔ x.Shares r ∨ x.Shares s := by
  constructor
  · rintro ⟨b, hx, hb⟩
    exact ((covers_hull h).1 hb).imp (fun hr => ⟨b, hx, hr⟩) fun hs => ⟨b, hx, hs⟩
  · rintro (⟨b, hx, hr⟩ | ⟨b, hx, hs⟩)
    · exact ⟨b, hx, (covers_hull h).2 (Or.inl hr)⟩
    · exact ⟨b, hx, (covers_hull h).2 (Or.inr hs)⟩

/-- No two of the ranges share a byte, and none is empty. -/
structure Apart (rs : List ByteRange) : Prop where
  proper : ∀ r ∈ rs, r.Proper
  pairwise : rs.Pairwise fun r s => ¬ r.Shares s

lemma Apart.sublist (h : Apart rs) {rs' : List ByteRange} (hs : rs'.Sublist rs) : Apart rs' :=
  ⟨fun r hr => h.proper r (hs.subset hr), h.pairwise.sublist hs⟩

lemma Apart.eq_of_shares (h : Apart rs) (hr : r ∈ rs) (hs : s ∈ rs) (hrs : r.Shares s) : r = s := by
  have : Std.Symm fun r s : ByteRange => ¬ r.Shares s := ⟨fun _ _ hn h => hn h.symm⟩
  by_contra hne
  exact h.pairwise.forall hr hs hne hrs

/-! ### All ranges at once -/

/-- The range with all ranges of the list that it overlaps. -/
def widened (rs : List ByteRange) (r : ByteRange) : ByteRange :=
  (rs.filter (·.overlaps r)).foldl hull r

lemma widened_of_none (h : ∀ x ∈ rs, x.overlaps r = false) : widened rs r = r := by
  unfold widened
  rw [List.filter_eq_nil_iff.2 fun x hx => by simp [h x hx]]
  rfl

/-- What the first overlapping range brings into reach it overlapped itself. -/
lemma overlaps_hull (h : Apart (front ++ s :: back)) (hr : r.Proper) (hs : s.overlaps r = true) :
    ∀ x ∈ front ++ back, x.overlaps (hull r s) = x.overlaps r := by
  have hps : s.Proper := h.proper s (by simp)
  have hrs : r.Shares s := ((overlaps_iff hps hr).1 hs).symm
  intro x hx
  have hxs : ¬ x.Shares s := by
    rw [List.mem_append] at hx
    have hp := List.pairwise_append.1 h.pairwise
    rcases hx with hx | hx
    · exact hp.2.2 x hx s List.mem_cons_self
    · exact fun hn => (List.pairwise_cons.1 hp.2.1).1 x hx hn.symm
  have hpx : x.Proper := h.proper x (by
    simp only [List.mem_append, List.mem_cons] at hx ⊢
    tauto)
  rw [Bool.eq_iff_iff, overlaps_iff hpx (proper_hull hr), overlaps_iff hpx hr, shares_hull hrs]
  exact or_iff_left hxs

/-- A range that overlaps the same ranges when it has grown leaves the same ones behind. -/
lemma widened_hull (h : ∀ x ∈ rs, x.overlaps (hull r s) = x.overlaps r) :
    widened rs (hull r s) = (rs.filter (·.overlaps r)).foldl hull (hull r s) ∧
      (rs.filter fun x => !x.overlaps (hull r s)) = rs.filter fun x => !x.overlaps r := by
  refine ⟨?_, List.filter_congr fun x hx => by rw [h x hx]⟩
  unfold widened
  rw [List.filter_congr h]

lemma absorb_of_none (fuel : Nat) (h : ∀ x ∈ rs, x.overlaps r = false) (place : Option Nat) :
    absorb fuel rs r place = rs.insertIdx (place.getD rs.length) r := by
  cases fuel with
  | zero => rfl
  | succ fuel =>
    have hn : rs.findIdx? (overlaps · r) = none := List.findIdx?_eq_none_iff.2 h
    rw [absorb, hn]

lemma absorb_of_first (fuel : Nat) (h : ∀ x ∈ front, x.overlaps r = false)
    (hs : s.overlaps r = true) (place : Option Nat) :
    absorb (fuel + 1) (front ++ s :: back) r place =
      absorb fuel (front ++ back) (hull r s)
        (some (min (place.getD front.length) front.length)) := by
  have hf : (front ++ s :: back).findIdx? (overlaps · r) = some front.length := by
    rw [List.findIdx?_append, List.findIdx?_eq_none_iff.2 h, List.findIdx?_cons, hs]
    simp
  rw [absorb, hf]
  simp [List.eraseIdx_append_of_length_le]

lemma insertIdx_length_append (front back : List ByteRange) (r : ByteRange) :
    (front ++ back).insertIdx front.length r = front ++ r :: back := by
  induction front with
  | nil => rfl
  | cons x front ih => simp [ih]

/-- The joining once its place is found: nothing before the place is reached, so the place stays,
and what is joined leaves the rest behind it in order. -/
lemma absorb_eq (fuel : Nat) (h : Apart (front ++ back)) (hr : r.Proper)
    (hf : ∀ x ∈ front, x.overlaps r = false) (hl : back.length ≤ fuel) :
    absorb fuel (front ++ back) r (some front.length) =
      front ++ widened back r :: back.filter fun x => !x.overlaps r := by
  -- the induction is on the number of ranges that can still be joined
  induction fuel generalizing back r with
  | zero =>
    obtain rfl := List.eq_nil_of_length_eq_zero (Nat.le_zero.1 hl)
    rw [absorb, Option.getD_some, insertIdx_length_append]
    rfl
  | succ fuel ih =>
    cases hfind : back.find? (·.overlaps r) with
    | none =>
      have hb : ∀ x ∈ back, x.overlaps r = false := by
        simpa using List.find?_eq_none.1 hfind
      have hall : ∀ x ∈ front ++ back, x.overlaps r = false := by
        intro x hx
        exact (List.mem_append.1 hx).elim (hf x) (hb x)
      rw [absorb_of_none _ hall, Option.getD_some, insertIdx_length_append, widened_of_none hb,
        List.filter_eq_self.2 fun x hx => by simp [hb x hx]]
    | some s =>
      -- what shares a byte with the joined range shares one with `r`: `s` lies apart from the rest
      obtain ⟨hs, before, later, rfl, hbefore⟩ := List.find?_eq_some_iff_append.1 hfind
      have hb : ∀ x ∈ before, x.overlaps r = false := by simpa using hbefore
      have hfb : ∀ x ∈ front ++ before, x.overlaps r = false := by
        intro x hx
        exact (List.mem_append.1 hx).elim (hf x) (hb x)
      have hap : Apart ((front ++ before) ++ s :: later) := by simpa using h
      have hsame := overlaps_hull hap hr hs
      have hlen : (before ++ later).length ≤ fuel := by
        simp only [List.length_append, List.length_cons] at hl ⊢
        omega
      have hrest : Apart (front ++ (before ++ later)) :=
        h.sublist (by simp)
      have hnew := ih hrest (proper_hull hr) (fun x hx => by
        rw [hsame x (by simp [hx])]
        exact hf x hx) hlen
      have hplace : min ((some front.length).getD (front ++ before).length)
          (front ++ before).length = front.length := by simp
      have hsub : ∀ x ∈ before ++ later, x.overlaps (hull r s) = x.overlaps r :=
        fun x hx => hsame x (by simp only [List.append_assoc, List.mem_append] at hx ⊢; tauto)
      obtain ⟨hw, hrem⟩ := widened_hull hsub
      rw [← List.append_assoc, absorb_of_first fuel hfb hs, hplace, List.append_assoc, hnew, hw,
        hrem]
      have hbn : before.filter (·.overlaps r) = [] :=
        List.filter_eq_nil_iff.2 fun x hx => by simp [hb x hx]
      simp [widened, List.filter_append, hbn, hs]

lemma add_of_none (h : ∀ x ∈ rs, x.overlaps r = false) : add rs r = rs ++ [r] := by
  rw [add, absorb_of_none _ h]
  simp

/-- **One more range** takes the place of the first range that it overlaps, and takes all others
that it overlaps into it. -/
theorem add_of_first (h : Apart (front ++ s :: back)) (hr : r.Proper)
    (hf : ∀ x ∈ front, x.overlaps r = false) (hs : s.overlaps r = true) :
    add (front ++ s :: back) r =
      front ++ widened (s :: back) r :: back.filter fun x => !x.overlaps r := by
  have hsame := overlaps_hull h hr hs
  have hrest : Apart (front ++ back) := h.sublist (by simp)
  have hlen : (front ++ s :: back).length = (front ++ back).length + 1 := by simp; omega
  have hnew := absorb_eq (front ++ back).length hrest (proper_hull (s := s) hr)
    (fun x hx => by
      rw [hsame x (by simp [hx])]
      exact hf x hx) (by simp)
  obtain ⟨hw, hrem⟩ := widened_hull fun x (hx : x ∈ back) => hsame x (by simp [hx])
  rw [add, hlen, absorb_of_first _ hf hs, Option.getD_none, Nat.min_self, hnew, hw, hrem]
  simp [widened, hs]

lemma proper_widened (hr : r.Proper) : (widened rs r).Proper := by
  unfold widened
  generalize rs.filter (·.overlaps r) = ts
  induction ts generalizing r with
  | nil => exact hr
  | cons t ts ih => exact ih (proper_hull hr)

lemma covers_foldl_hull (h : ∀ x ∈ rs, x.Shares r) {b : Nat} :
    (rs.foldl hull r).Covers b ↔ r.Covers b ∨ ∃ x ∈ rs, x.Covers b := by
  induction rs generalizing r with
  | nil => simp
  | cons s rs ih =>
    rw [List.forall_mem_cons] at h
    rw [List.foldl_cons, ih fun x hx => (shares_hull h.1.symm).2 (Or.inl (h.2 x hx)),
      covers_hull h.1.symm]
    simp [or_assoc]

lemma covers_widened (h : ∀ x ∈ rs, x.Proper) (hr : r.Proper) {b : Nat} :
    (widened rs r).Covers b ↔ r.Covers b ∨ ∃ x ∈ rs, x.Shares r ∧ x.Covers b := by
  have hmem : ∀ x, x ∈ rs.filter (·.overlaps r) ↔ x ∈ rs ∧ x.Shares r := by
    intro x
    rw [List.mem_filter]
    exact and_congr_right fun hx => overlaps_iff (h x hx) hr
  unfold widened
  rw [covers_foldl_hull fun x hx => ((hmem x).1 hx).2]
  simp only [hmem, and_assoc]

/-- A range that shares no byte with the new one shares none with the widened one. -/
lemma Apart.not_shares_widened (h : Apart rs) (hr : r.Proper) (hx : x ∈ rs) (hn : ¬ x.Shares r) :
    ¬ x.Shares (widened rs r) := by
  rintro ⟨b, hxb, hb⟩
  rcases (covers_widened h.proper hr).1 hb with hb | ⟨s, hs, hsr, hsb⟩
  · exact hn ⟨b, hxb, hb⟩
  · exact hn (h.eq_of_shares hx hs ⟨b, hxb, hsb⟩ ▸ hsr)

/-- Where the widened range stands among those that are left: at the end if it has joined none, and
else in the place of the first that it has joined. -/
inductive Placed (rs : List ByteRange) (r : ByteRange) : List ByteRange → List ByteRange → Prop
  | last (h : ∀ x ∈ rs, ¬ x.Shares r) : Placed rs r rs []
  | first {s : ByteRange} {front back left : List ByteRange} (hrs : rs = front ++ s :: back)
      (hf : ∀ x ∈ front, ¬ x.Shares r) (hs : s.Shares r) (hl : left.Sublist back)
      (hb : ∀ x, x ∈ left ↔ x ∈ back ∧ ¬ x.Shares r) : Placed rs r front left

/-- **One more range**: it is widened by all that it shares a byte with, and takes its place. -/
theorem exists_placed (h : Apart rs) (hr : r.Proper) :
    ∃ front back, add rs r = front ++ widened rs r :: back ∧ Placed rs r front back := by
  have hiff : ∀ x ∈ rs, x.overlaps r = false ↔ ¬ x.Shares r := by
    intro x hx
    rw [← overlaps_iff (h.proper x hx) hr, Bool.not_eq_true]
  cases hfind : rs.find? (·.overlaps r) with
  | none =>
    have hn : ∀ x ∈ rs, x.overlaps r = false := by simpa using List.find?_eq_none.1 hfind
    refine ⟨rs, [], ?_, .last fun x hx => (hiff x hx).1 (hn x hx)⟩
    rw [add_of_none hn, widened_of_none hn]
  | some s =>
    obtain ⟨hs, front, back, rfl, hfront⟩ := List.find?_eq_some_iff_append.1 hfind
    have hf : ∀ x ∈ front, x.overlaps r = false := by simpa using hfront
    have hw : widened (front ++ s :: back) r = widened (s :: back) r := by
      unfold widened
      rw [List.filter_append, List.filter_eq_nil_iff.2 fun x hx => by simp [hf x hx],
        List.nil_append]
    refine ⟨front, _, by rw [add_of_first h hr hf hs, hw], .first rfl
      (fun x hx => (hiff x (by simp [hx])).1 (hf x hx))
      ((overlaps_iff (h.proper s (by simp)) hr).1 hs) List.filter_sublist fun x => ?_⟩
    rw [List.mem_filter, Bool.not_eq_true']
    exact and_congr_right fun hx => hiff x (by simp [hx])

lemma Placed.mem_iff (h : Placed rs r front back) :
    x ∈ front ++ back ↔ x ∈ rs ∧ ¬ x.Shares r := by
  cases h with
  | last hn =>
    rw [List.append_nil]
    exact ⟨fun hx => ⟨hx, hn x hx⟩, fun hx => hx.1⟩
  | @first s _ back left hrs hf hs hl hb =>
    rw [hrs, List.mem_append, List.mem_append, List.mem_cons, hb]
    constructor
    · rintro (hx | hx)
      · exact ⟨Or.inl hx, hf x hx⟩
      · exact ⟨Or.inr (Or.inr hx.1), hx.2⟩
    · rintro ⟨hx | rfl | hx, hn⟩
      · exact Or.inl hx
      · exact absurd hs hn
      · exact Or.inr ⟨hx, hn⟩

lemma Placed.sublist (h : Placed rs r front back) : (front ++ back).Sublist rs := by
  cases h with
  | last _ => simp
  | first hrs _ _ hl _ =>
    rw [hrs]
    exact (List.Sublist.refl _).append (hl.trans (List.sublist_cons_self _ _))

/-- A relation that holds along the ranges holds along them with the widened one, if it does between
that one and the others. -/
lemma Placed.pairwise (h : Placed rs r front back) {R : ByteRange → ByteRange → Prop}
    (hp : rs.Pairwise R) {m : ByteRange} (hf : ∀ x ∈ front, R x m) (hb : ∀ x ∈ back, R m x) :
    (front ++ m :: back).Pairwise R := by
  obtain ⟨h1, h2, h3⟩ := List.pairwise_append.1 (hp.sublist h.sublist)
  refine List.pairwise_append.2 ⟨h1, List.pairwise_cons.2 ⟨hb, h2⟩, fun x hx y hy => ?_⟩
  rcases List.mem_cons.1 hy with rfl | hy
  · exact hf x hx
  · exact h3 x hx y hy

end Docroot.ByteRange

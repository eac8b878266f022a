import Mathlib.Data.List.Induction
import Docroot.Proofs.Emission

/-!
What a draft foretells of a field and what the finished reply holds there, after any row of steps.
The draft looks at the last override of the field and at what was put, but the reply lets all the
overrides act in turn, and an earlier one may have brought the field or taken it away. The two
differ just when the last override rewrites the field if it is there, and the earlier ones have
changed whether it is.
-/

namespace Docroot

inductive Edit
  | put (name : Text) (value : Bytes)
  | putText (name value : Text)
  | append (name : Text) (value : Bytes)
  | remove (name : Text)
  | intercept (name : Text) (value : Option Bytes)
  | force (name : Text) (value : Bytes)
  | dropOverride (name : Text)
  | clearOverrides
  | setStatus (status : Nat)
deriving DecidableEq

namespace Draft

def edit (d : Draft) : Edit → Logged Abort Draft
  | .put name value => pure (d.put name value)
  | .putText name value => d.putText name value
  | .append name value => pure (d.append name value)
  | .remove name => pure (d.remove name)
  | .intercept name value => pure (d.intercept name value)
  | .force name value => pure (d.force name value)
  | .dropOverride name => pure (d.dropOverride name)
  | .clearOverrides => pure d.clearOverrides
  | .setStatus status => pure (d.setStatus status)

def edits (d : Draft) : List Edit → Logged Abort Draft
  | [] => pure d
  | e :: r => do
    let d ← d.edit e
    d.edits r

/-- An override that acts in any case has a value. -/
def Sound (d : Draft) : Prop := ∀ o ∈ d.overrides, o.forced = true → o.value ≠ none

lemma Sound.snoc {d : Draft} (h : d.Sound) {o : Override} (ho : o.forced = true → o.value ≠ none) :
    Sound { d with overrides := d.overrides ++ [o] } := by
  intro x hx
  rcases List.mem_append.1 hx with hx | hx
  · exact h x hx
  · rw [List.mem_singleton.1 hx]
    exact ho

lemma exists_edit {d : Draft} (h : d.Sound) (e : Edit) :
    ∃ d', (d.edit e).result = .ok d' ∧ d'.Sound := by
  cases e with
  | put name value => exact ⟨_, rfl, h⟩
  | putText name value =>
    refine ⟨_, result_putText name value d, ?_⟩
    unfold Sound
    rw [overrides_setText]
    exact h
  | append name value => exact ⟨_, rfl, h⟩
  | remove name => exact ⟨_, rfl, h⟩
  | intercept name value => exact ⟨_, rfl, h.snoc fun hf => by cases hf⟩
  | force name value => exact ⟨_, rfl, h.snoc fun _ => Option.some_ne_none value⟩
  | dropOverride name => exact ⟨_, rfl, fun o ho => h o (List.mem_filter.1 ho).1⟩
  | clearOverrides => exact ⟨_, rfl, fun o ho => absurd ho List.not_mem_nil⟩
  | setStatus status => exact ⟨_, rfl, h⟩

lemma exists_edits {d : Draft} (h : d.Sound) (es : List Edit) :
    ∃ d', (d.edits es).result = .ok d' ∧ d'.Sound := by
  induction es generalizing d with
  | nil => exact ⟨d, rfl, h⟩
  | cons e es ih =>
    obtain ⟨d₁, h₁, hs⟩ := exists_edit h e
    obtain ⟨d₂, h₂, hs'⟩ := ih hs
    exact ⟨d₂, (Logged.result_bind_ok h₁).trans h₂, hs'⟩

/-- The overrides of a field, in the order in which they act. -/
def overridesOf (d : Draft) (name : Text) : List Override :=
  d.overrides.filter fun o => o.name == name

end Draft

/-! ### Rows of overrides of one field -/

namespace Override

/-- What a row of overrides makes of the values of its field. -/
def actAll (os : List Override) (values : List Bytes) : List Bytes :=
  os.foldl (fun values o => o.act values) values

/-- An override of the row satisfies `p`, and all later ones satisfy `q`. -/
def EverSince (p q : Override → Prop) (os : List Override) : Prop :=
  ∃ front o back, os = front ++ o :: back ∧ p o ∧ ∀ x ∈ back, q x

/-- An override takes the field away, and no later one brings it back. -/
def Removes (os : List Override) : Prop := EverSince (·.value = none) (·.forced = false) os

/-- An override brings the field, and no later one takes it away. -/
def Brings (os : List Override) : Prop := EverSince (·.forced = true) (·.value ≠ none) os

variable {os : List Override} {o : Override}

lemma actAll_snoc (values : List Bytes) : actAll (os ++ [o]) values = o.act (actAll os values) := by
  simp [actAll]

lemma everSince_nil {p q : Override → Prop} : ¬ EverSince p q [] := by
  rintro ⟨front, x, back, hs, -⟩
  exact List.append_ne_nil_of_right_ne_nil front (List.cons_ne_nil x back) hs.symm

lemma everSince_snoc {p q : Override → Prop} :
    EverSince p q (os ++ [o]) ↔ p o ∨ q o ∧ EverSince p q os := by
  constructor
  · rintro ⟨front, x, back, hs, hx, hb⟩
    rcases List.eq_nil_or_concat back with rfl | ⟨back, y, rfl⟩
    · obtain ⟨-, h⟩ := List.append_inj' hs rfl
      obtain rfl : o = x := (List.cons.inj h).1
      exact Or.inl hx
    · rw [List.concat_eq_append, ← List.cons_append, ← List.append_assoc] at hs
      obtain ⟨hos, h⟩ := List.append_inj' hs rfl
      obtain rfl : o = y := (List.cons.inj h).1
      rw [List.concat_eq_append, List.forall_mem_append, List.forall_mem_singleton] at hb
      exact Or.inr ⟨hb.2, front, x, back, hos, hx, hb.1⟩
  · rintro (ho | ⟨ho, front, x, back, rfl, hx, hb⟩)
    · exact ⟨os, o, [], rfl, ho, fun y hy => absurd hy List.not_mem_nil⟩
    · refine ⟨front, x, back ++ [o], by simp, hx, ?_⟩
      rw [List.forall_mem_append, List.forall_mem_singleton]
      exact ⟨hb, ho⟩

lemma act_eq_nil_iff (ho : o.forced = true → o.value ≠ none) {values : List Bytes} :
    o.act values = [] ↔ o.value = none ∨ o.forced = false ∧ values = [] := by
  unfold act
  cases hf : o.forced with
  | true =>
    have hv := ho hf
    simp [hv]
  | false =>
    cases values with
    | nil => simp
    | cons v r => simp

lemma removes_snoc : Removes (os ++ [o]) ↔ o.value = none ∨ o.forced = false ∧ Removes os := by
  rw [Removes, everSince_snoc]
  rfl

lemma brings_snoc : Brings (os ++ [o]) ↔ o.forced = true ∨ o.value ≠ none ∧ Brings os := by
  rw [Brings, everSince_snoc]
  rfl

/-- A field that was put is gone just when the overrides remove it. -/
lemma actAll_eq_nil_iff (h : ∀ o ∈ os, o.forced = true → o.value ≠ none) {values : List Bytes}
    (hv : values ≠ []) : actAll os values = [] ↔ Removes os := by
  induction os using List.reverseRecOn with
  | nil => exact iff_of_false hv everSince_nil
  | append_singleton os o ih =>
    rw [List.forall_mem_append, List.forall_mem_singleton] at h
    rw [actAll_snoc, act_eq_nil_iff h.2, ih h.1, removes_snoc]

/-- A field that was not put is there just when the overrides bring it. -/
lemma actAll_nil_ne_nil_iff (h : ∀ o ∈ os, o.forced = true → o.value ≠ none) :
    actAll os [] ≠ [] ↔ Brings os := by
  induction os using List.reverseRecOn with
  | nil => exact iff_of_false (fun hne => hne rfl) everSince_nil
  | append_singleton os o ih =>
    rw [List.forall_mem_append, List.forall_mem_singleton] at h
    have hact : o.act (actAll os []) ≠ [] ↔
        o.forced = true ∨ o.value ≠ none ∧ actAll os [] ≠ [] := by
      rw [Ne, act_eq_nil_iff h.2]
      have ho := h.2
      cases hf : o.forced with
      | true => simpa using ho hf
      | false => simp
    rw [actAll_snoc, hact, ih h.1, brings_snoc]

end Override

/-! ### What is foretold -/

namespace Draft

open Override

/-- The last override of the field rewrites it if it is there, and the earlier ones have taken away
the field that was put, or have brought it where none was put. -/
def Misjudges (d : Draft) (name : Text) : Prop :=
  ∃ before v, d.overridesOf name = before ++ [⟨name, some v, false⟩] ∧
    (d.headers.contains name = true ∧ Removes before ∨
      d.headers.contains name = false ∧ Brings before)

variable {d : Draft} {name : Text}

lemma getAll_finish_eq (d : Draft) (name : Text) :
    d.finish.getAll name = actAll (d.overridesOf name) (d.headers.getAll name) :=
  getAll_finish d name

lemma effective_eq_of_snoc {before : List Override} {o : Override}
    (h : d.overridesOf name = before ++ [o]) :
    d.effective name = if o.forced || d.headers.contains name then o.value else none := by
  have hlast : (d.overrides.reverse.find? fun o => o.name == name) = some o := by
    rw [← List.head?_filter, List.filter_reverse, List.head?_reverse]
    show (d.overridesOf name).getLast? = some o
    rw [h, List.getLast?_concat]
  have habsent : d.headers.contains name = false → d.headers.get? name = none := by
    intro hc
    rw [Headers.get?_eq_head?]
    rw [Headers.contains_eq_not_isEmpty] at hc
    simpa using hc
  unfold effective
  rw [hlast]
  cases hc : d.headers.contains name with
  | true => simp
  | false => simp [habsent hc]

lemma get?_finish_of_snoc {before : List Override} {o : Override}
    (h : d.overridesOf name = before ++ [o]) :
    d.finish.get? name =
      if o.forced || !(actAll before (d.headers.getAll name)).isEmpty then o.value else none := by
  rw [Headers.get?_eq_head?, getAll_finish_eq, h, actAll_snoc, act]
  cases hp : o.forced || !(actAll before (d.headers.getAll name)).isEmpty with
  | true => cases o.value <;> rfl
  | false =>
    have he : actAll before (d.headers.getAll name) = [] := by
      simp only [Bool.or_eq_false_iff, Bool.not_eq_false'] at hp
      simpa using hp.2
    simp [he]

/-- The overrides before the last one change whether a field is there just when they remove one
that was put, or bring one that was not. -/
lemma isEmpty_actAll_eq_iff {before : List Override}
    (hs : ∀ o ∈ before, o.forced = true → o.value ≠ none) :
    (actAll before (d.headers.getAll name)).isEmpty = d.headers.contains name ↔
      (d.headers.contains name = true ∧ Removes before ∨
        d.headers.contains name = false ∧ Brings before) := by
  rw [Headers.contains_eq_not_isEmpty]
  cases hv : d.headers.getAll name with
  | nil =>
    have h := actAll_nil_ne_nil_iff hs
    simpa using h
  | cons v r =>
    have h := actAll_eq_nil_iff hs (List.cons_ne_nil v r)
    simpa using h

lemma contains_finish_eq (d : Draft) (name : Text) :
    d.finish.contains name = (d.finish.get? name).isSome := by
  rw [Headers.contains_eq_not_isEmpty, Headers.get?_eq_head?]
  cases d.finish.getAll name <;> rfl

lemma not_misjudges_of_nil (h : d.overridesOf name = []) : ¬ d.Misjudges name := by
  rintro ⟨before, v, h', -⟩
  rw [h] at h'
  exact List.append_ne_nil_of_right_ne_nil before (List.cons_ne_nil _ []) h'.symm

lemma not_misjudges_of_last {before : List Override} {o : Override}
    (h : d.overridesOf name = before ++ [o]) (ho : o.forced = true ∨ o.value = none) :
    ¬ d.Misjudges name := by
  rintro ⟨before', v, h', -⟩
  rw [h] at h'
  obtain ⟨-, he⟩ := List.append_inj' h' rfl
  obtain rfl := (List.cons.inj he).1
  rcases ho with ho | ho <;> cases ho

lemma Sound.overridesOf (hs : d.Sound) {o : Override} (ho : o ∈ d.overridesOf name) :
    o.name = name ∧ (o.forced = true → o.value ≠ none) := by
  obtain ⟨hm, hn⟩ := List.mem_filter.1 ho
  exact ⟨by simpa using hn, hs o hm⟩

/-- Where the last override rewrites the field, all hangs on whether the earlier ones leave it. -/
lemma Sound.misjudges_iff (hs : d.Sound) {before : List Override} {o : Override} {v : Bytes}
    (h : d.overridesOf name = before ++ [o]) (hf : o.forced = false) (hv : o.value = some v) :
    d.Misjudges name ↔
      (actAll before (d.headers.getAll name)).isEmpty = d.headers.contains name := by
  have hbefore : ∀ x ∈ before, x.forced = true → x.value ≠ none := by
    intro x hx
    have hm : x ∈ d.overridesOf name := by
      rw [h]
      exact List.mem_append_left _ hx
    exact (hs.overridesOf hm).2
  have ho : o = ⟨name, some v, false⟩ := by
    have hm : o ∈ d.overridesOf name := by
      rw [h]
      exact List.mem_concat_self
    rw [← (hs.overridesOf hm).1, ← hv, ← hf]
  rw [isEmpty_actAll_eq_iff hbefore]
  constructor
  · rintro ⟨before', v', h', hchange⟩
    rw [h] at h'
    obtain ⟨rfl, -⟩ := List.append_inj' h' rfl
    exact hchange
  · intro hchange
    exact ⟨before, v, by rw [h, ho], hchange⟩

/-- What is foretold comes true unless the draft misjudges the field; then either a field is
foretold that will not be there, or none is and there will be one. -/
lemma Sound.foretells_iff (hs : d.Sound) (name : Text) :
    (d.effective name = d.finish.get? name ↔ ¬ d.Misjudges name) ∧
      (d.contains name = d.finish.contains name ↔ ¬ d.Misjudges name) := by
  rw [contains, contains_finish_eq]
  rcases List.eq_nil_or_concat (d.overridesOf name) with hn | ⟨before, o, ho⟩
  · have heq : d.effective name = d.finish.get? name := by
      have hle : (d.overridesOf name).length ≤ 1 := by
        rw [hn]
        exact Nat.zero_le 1
      rw [Headers.get?_eq_head?]
      exact effective_eq_head? hle
    simp [heq, not_misjudges_of_nil hn]
  · rw [List.concat_eq_append] at ho
    rw [effective_eq_of_snoc ho, get?_finish_of_snoc ho]
    cases hf : o.forced with
    | true => simp [not_misjudges_of_last ho (Or.inl hf)]
    | false =>
      cases hv : o.value with
      | none => simp [not_misjudges_of_last ho (Or.inr hv)]
      | some v =>
        rw [hs.misjudges_iff ho hf hv]
        cases (actAll before (d.headers.getAll name)).isEmpty <;>
          cases d.headers.contains name <;> simp

/-- **What is foretold**: no row of steps fails, and of each field the draft that it makes foretells
the first value in the finished reply, and whether there is one, just when it does not misjudge the
field. -/
theorem foretold_of_edits (steps : List Edit) :
    ∃ d, (edits {} steps).result = .ok d ∧ ∀ name,
      (d.effective name = d.finish.get? name ↔ ¬ d.Misjudges name) ∧
        (d.contains name = d.finish.contains name ↔ ¬ d.Misjudges name) := by
  have hnew : Sound {} := fun o ho => absurd ho List.not_mem_nil
  obtain ⟨d, hd, hs⟩ := exists_edits hnew steps
  exact ⟨d, hd, hs.foretells_iff⟩

/-- A field that is forced and then rewritten is in the reply, but is not foretold; one that is put,
then taken away and then rewritten is foretold, but is not in the reply. -/
theorem forced_unforetold :
    let forced : List Edit := [.force HeaderName.etag [97], .intercept HeaderName.etag (some [98])]
    let removed : List Edit := [.put HeaderName.etag [97], .intercept HeaderName.etag none,
      .intercept HeaderName.etag (some [98])]
    (∃ d, (edits {} forced).result = .ok d ∧ d.effective HeaderName.etag = none ∧
      d.contains HeaderName.etag = false ∧ d.finish = [(HeaderName.etag, [98])]) ∧
    ∃ d, (edits {} removed).result = .ok d ∧ d.effective HeaderName.etag = some [98] ∧
      d.contains HeaderName.etag = true ∧ d.finish = [] :=
  ⟨⟨_, rfl, by decide +kernel⟩, ⟨_, rfl, by decide +kernel⟩⟩

end Draft

end Docroot

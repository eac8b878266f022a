import Docroot.Proofs.Tags

/-!
The laws of suffixes. A suffix that is put on a tag takes the place of the one that stands there,
and the tag goes on standing for the same content, whatever the tag looks like. Both are so just for
the suffixes that come off again. Tags that were given for two contents stand for each other, with
suffixes or without, just when time and length agree.
-/

namespace Docroot.EntityTag

/-! ### Suffixes that come off again -/

lemma withSuffix_withSuffix {s : Text} (hs : Detaches s) (tag s' : Text) :
    withSuffix (withSuffix tag s) s' = withSuffix tag s' := by
  have hbase : base (base (parts tag).label ++ s) = base (parts tag).label := hs _
  have hwrite := withSuffix_write { parts tag with label := base (parts tag).label ++ s } s'
  rw [hbase] at hwrite
  exact hwrite

lemma covers_withSuffix_iff (tag s : Text) :
    covers tag (withSuffix tag s) = true ↔
      base (base (parts tag).label ++ s) = base (parts tag).label := by
  rw [withSuffix, covers_write]
  exact eq_comm

lemma base_append_dashes (label : Text) : base (label ++ ['-', '-']) = label :=
  detaches_iff.2 ⟨[], rfl, by decide, by decide⟩ label

/-- A suffix takes the place of the one before it, in every tag, just when it comes off again. -/
theorem detaches_iff_replaces {s : Text} :
    Detaches s ↔ ∀ tag s' : Text, withSuffix (withSuffix tag s) s' = withSuffix tag s' := by
  refine ⟨fun hs => withSuffix_withSuffix hs, fun h label => ?_⟩
  have htag := h (ofLabel (label ++ ['-', '-'])) []
  rw [withSuffix_ofLabel, withSuffix_ofLabel, withSuffix_ofLabel, base_append_dashes,
    List.append_nil, List.append_nil] at htag
  have hlabel := congrArg (fun tag => (parts tag).label) htag
  rwa [parts_ofLabel, parts_ofLabel] at hlabel

/-- A tag stands for what it stood for before the suffix was put on it, whatever the tag, just when
the suffix comes off again. -/
theorem detaches_iff_covers {s : Text} :
    Detaches s ↔ ∀ tag : Text, covers tag (withSuffix tag s) = true := by
  simp only [covers_withSuffix_iff]
  refine ⟨fun hs tag => hs _, fun h label => ?_⟩
  have htag := h (ofLabel (label ++ ['-', '-']))
  rwa [parts_ofLabel, base_append_dashes] at htag

/-! ### Tags of two contents -/

/-- Two dashes, and behind them a text without a quote that has no two dashes in a row and does not
begin with a dash. -/
def Proper (s : Text) : Prop :=
  ∃ x : Text, s = '-' :: '-' :: x ∧ ¬ ['-', '-'] <:+: x ∧ x.head? ≠ some '-' ∧ '"' ∉ x

lemma Proper.detaches {s : Text} (h : Proper s) : Detaches s := by
  obtain ⟨x, hs, hx, hhead, -⟩ := h
  exact detaches_iff.2 ⟨x, hs, hx, hhead⟩

/-- The whole milliseconds from the beginning of 1970; none for no time and for one before that. -/
def wholeMillis : Option Timestamp → Nat
  | none => 0
  | some t => if t.nanos < 0 then 0 else t.nanos.toNat / 1000000

lemma epochMillis_getD (t : Option Timestamp) :
    (t.map Timestamp.epochMillis).getD 0 = wholeMillis t := by
  cases t with
  | none => rfl
  | some t =>
    have hmillis : (t.nanos / 1000000).toNat =
        if t.nanos < 0 then 0 else t.nanos.toNat / 1000000 := by
      split <;> omega
    exact hmillis

lemma withSuffix_generate (t : Option Timestamp) (l : Option Nat) (s : Text) :
    withSuffix (generate t l) s = ofLabel (labelOf (wholeMillis t) (l.getD 0) ++ s) := by
  have hbase := base_labelOf_append (wholeMillis t) (l.getD 0) (Or.inl rfl)
  rw [List.append_nil] at hbase
  rw [generate_eq_ofLabel, epochMillis_getD, withSuffix_ofLabel, hbase]

/-- **The laws of suffixes**: a proper suffix is replaced by whatever is put in its place and leaves
the tag standing for the same content, whatever the tag looks like; and the tags of two contents
stand for each other, with suffixes or without, just when milliseconds and lengths are the same. -/
theorem suffix_laws :
    (∀ tag s s' : Text, Proper s →
      withSuffix (withSuffix tag s) s' = withSuffix tag s' ∧
        covers tag (withSuffix tag s) = true) ∧
    ∀ (t₁ t₂ : Option Timestamp) (l₁ l₂ : Option Nat) (s₁ s₂ : Text),
      s₁ = [] ∨ Proper s₁ → s₂ = [] ∨ Proper s₂ →
      (covers (withSuffix (generate t₁ l₁) s₁) (withSuffix (generate t₂ l₂) s₂) = true ↔
        wholeMillis t₁ = wholeMillis t₂ ∧ l₁.getD 0 = l₂.getD 0) := by
  constructor
  · intro tag s s' hs
    exact ⟨detaches_iff_replaces.1 hs.detaches tag s', detaches_iff_covers.1 hs.detaches tag⟩
  · intro t₁ t₂ l₁ l₂ s₁ s₂ h₁ h₂
    rw [withSuffix_generate, withSuffix_generate]
    exact covers_labelOf_iff (h₁.imp_right Proper.detaches) (h₂.imp_right Proper.detaches)

/-- A tag without its last quote, with two dashes twice, and two times in the same millisecond. -/
theorem suffix_laws_sample :
    Proper "--gzip".toList ∧
      (withSuffix (withSuffix "W/\"a--b--".toList "--gzip".toList) "--br".toList =
          withSuffix "W/\"a--b--".toList "--br".toList ∧
        covers "W/\"a--b--".toList (withSuffix "W/\"a--b--".toList "--gzip".toList) = true) ∧
      covers (withSuffix (generate (some ⟨1999999⟩) (some 42)) "--gzip".toList)
        (withSuffix (generate (some ⟨1000000⟩) (some 42)) []) = true := by
  have hgzip : Proper "--gzip".toList :=
    ⟨"gzip".toList, by decide, by decide, by decide, by decide⟩
  exact ⟨hgzip, suffix_laws.1 _ _ _ hgzip,
    (suffix_laws.2 _ _ _ _ _ _ (Or.inr hgzip) (Or.inl rfl)).2 ⟨by decide, rfl⟩⟩

end Docroot.EntityTag

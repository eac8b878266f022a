import Mathlib.Algebra.GroupWithZero.Nat
import Mathlib.Data.List.Nodup
import Mathlib.Data.List.Perm.Subperm
import Docroot.Proofs.Components

/-!
The parts that the `Range` lines of a request select. They are the components of the entries that
can be satisfied: as many bytes as these have are sent, none of them twice, and how the entries are
spread over the lines plays no part.
-/

namespace Docroot.ByteRange

variable {es rs : List ByteRange} {size : Nat}

lemma Within.proper {r : ByteRange} (h : Within size r) : r.Proper := h.1

def positions (rs : List ByteRange) : List Nat := rs.flatMap fun r => List.range' r.first r.length

lemma mem_positions (h : ∀ r ∈ rs, r.Proper) {b : Nat} :
    b ∈ positions rs ↔ ∃ r ∈ rs, r.Covers b := by
  unfold positions
  rw [List.mem_flatMap]
  refine exists_congr fun r => and_congr_right fun hr => ?_
  have hp : r.first ≤ r.last := h r hr
  rw [List.mem_range'_1, Covers, length]
  omega

lemma length_positions (rs : List ByteRange) :
    (positions rs).length = (rs.map ByteRange.length).sum := by
  simp [positions, List.length_flatMap]

lemma Apart.nodup_positions (h : Apart rs) : (positions rs).Nodup := by
  unfold positions
  rw [List.nodup_flatMap]
  refine ⟨fun r _ => List.nodup_range', ?_⟩
  refine h.pairwise.imp_of_mem fun {r s} hr hs hn => ?_
  intro b hb hb'
  have hpr : r.first ≤ r.last := h.proper r hr
  have hps : s.first ≤ s.last := h.proper s hs
  refine hn ⟨b, ?_, ?_⟩
  · simp only [List.mem_range'_1, length, Covers] at hb ⊢
    omega
  · simp only [List.mem_range'_1, length, Covers] at hb' ⊢
    omega

/-- Disjoint parts of a content have not more bytes than the content. -/
lemma Apart.sum_length_le (h : Apart rs) (hw : ∀ r ∈ rs, Within size r) :
    (rs.map ByteRange.length).sum ≤ size := by
  have hsub : positions rs ⊆ List.range size := by
    intro b hb
    obtain ⟨r, hr, hb⟩ := (mem_positions h.proper).1 hb
    exact List.mem_range.2 (Nat.lt_of_le_of_lt hb.2 (hw r hr).2)
  have hle := (List.subperm_of_subset h.nodup_positions hsub).length_le
  rwa [length_positions, List.length_range] at hle

lemma Joined.eq_nil_iff (h : Joined es rs) : rs = [] ↔ es = [] := by
  constructor
  · rintro rfl
    refine List.eq_nil_iff_forall_not_mem.2 fun e he => ?_
    obtain ⟨r, hr, -⟩ := h.inside e he
    exact absurd hr List.not_mem_nil
  · rintro rfl
    refine List.eq_nil_iff_forall_not_mem.2 fun r hr => ?_
    obtain ⟨x, hx, -⟩ := h.exists_inside hr
    exact absurd hx List.not_mem_nil

lemma Joined.covers_iff (h : Joined es rs) {b : Nat} :
    (∃ r ∈ rs, r.Covers b) ↔ ∃ e ∈ es, e.Covers b := by
  constructor
  · rintro ⟨r, hr, hb⟩
    obtain ⟨e, he, -, heb⟩ := h.filled r hr b hb
    exact ⟨e, he, heb⟩
  · rintro ⟨e, he, hb⟩
    obtain ⟨r, hr, hi⟩ := h.inside e he
    exact ⟨r, hr, hi.covers hb⟩

/-- The parts `rs` of a content of `size` bytes send what the entries `es` ask for: their
components, which lie in the content, have no byte in common and just the bytes that are asked for,
and so not more than the content. -/
structure Parts (size : Nat) (es rs : List ByteRange) : Prop where
  components : Components es rs
  disjoint : rs.Pairwise fun r s => ¬ r.Shares s
  within : ∀ r ∈ rs, r.first ≤ r.last ∧ r.last < size
  covers : ∀ b, (∃ r ∈ rs, r.Covers b) ↔ ∃ e ∈ es, e.Covers b
  total : (rs.map ByteRange.length).sum ≤ size

lemma parts_sum (h : ∀ e ∈ es, Within size e) : Parts size es (sum es) := by
  have hj := joined_sum fun e he => (h e he).proper
  have hw := within_sum h
  exact ⟨hj.components, hj.apart.pairwise, hw, fun _ => hj.covers_iff, hj.apart.sum_length_le hw⟩

/-- What is selected depends on the entries only, once a line has the unit. -/
lemma select_of_units {lines : List Text} (h : lines.filterMap bytesUnit? ≠ []) (size : Nat) :
    select lines (some size) =
      if requested size (lines.filterMap bytesUnit?) = [] then .unsatisfiable
      else .parts (sum (requested size (lines.filterMap bytesUnit?))) := by
  have hj := joined_sum fun e (he : e ∈ requested size (lines.filterMap bytesUnit?)) =>
    (within_of_mem_requested he).proper
  unfold select
  split
  · next hn => exact absurd hn h
  · simp only [Option.map_some, Option.getD_some]
    split
    · next hn => rw [if_pos (hj.eq_nil_iff.1 hn)]
    · next hne => rw [if_neg fun hn => hne (hj.eq_nil_iff.2 hn)]

lemma units_ne_nil_iff {lines : List Text} :
    lines.filterMap bytesUnit? ≠ [] ↔ ∃ line ∈ lines, bytesUnit? line ≠ none := by
  rw [Ne, List.filterMap_eq_nil_iff]
  push Not
  rfl

lemma select_congr_of_entries {lines lines' : List Text} (h : lines.filterMap bytesUnit? ≠ [])
    (h' : lines'.filterMap bytesUnit? ≠ [])
    (he : (lines.filterMap bytesUnit?).flatMap entries =
      (lines'.filterMap bytesUnit?).flatMap entries) (size : Nat) :
    select lines (some size) = select lines' (some size) := by
  rw [select_of_units h, select_of_units h', requested, requested, he]

/-- **Selected parts**: of a content of less than 2 to the 64 bytes, the whole is selected just when
no line has the unit `bytes`, and nothing just when one has but no entry can be satisfied; else the
parts are the components of the entries, and only these, and 64 bits count the bytes of each. The
entries of a line may be moved to several lines, in order. -/
theorem select_components (lines : List Text) {size : Nat} (hs : size < 2 ^ 64) :
    let es := requested size (lines.filterMap bytesUnit?)
    (select lines (some size) = .whole ↔ ∀ line ∈ lines, bytesUnit? line = none) ∧
      (select lines (some size) = .unsatisfiable ↔
        (∃ line ∈ lines, bytesUnit? line ≠ none) ∧ es = []) ∧
      ((∃ line ∈ lines, bytesUnit? line ≠ none) → es ≠ [] →
        ∃ rs, select lines (some size) = .parts rs ∧ Parts size es rs ∧
          (∀ rs', Components es rs' → rs = rs') ∧
          ∀ r ∈ rs, r.length = r.last - r.first + 1 ∧ r.last - r.first + 1 < 2 ^ 64) ∧
      ∀ front line back split spec, lines = front ++ line :: back → bytesUnit? line = some spec →
        split ≠ [] → (∀ l ∈ split, bytesUnit? l ≠ none) →
        (split.filterMap bytesUnit?).flatMap entries = entries spec →
        select (front ++ split ++ back) (some size) = select lines (some size) := by
  intro es
  have hw : ∀ e ∈ es, Within size e := fun e he => within_of_mem_requested he
  have hparts : Parts size es (sum es) := parts_sum hw
  refine ⟨select_eq_whole_iff, ?_, fun hl hne => ?_, ?_⟩
  · constructor
    -- without a line in bytes the whole content would have been sent
    · intro h
      have hu : lines.filterMap bytesUnit? ≠ [] := by
        intro hn
        rw [select_eq_whole_iff.2 (List.filterMap_eq_nil_iff.1 hn)] at h
        cases h
      rw [select_of_units hu] at h
      split at h
      · next he => exact ⟨units_ne_nil_iff.1 hu, he⟩
      · cases h
    · rintro ⟨hl, he⟩
      rw [select_of_units (units_ne_nil_iff.2 hl), if_pos he]
  · refine ⟨sum es, by rw [select_of_units (units_ne_nil_iff.2 hl), if_neg hne], hparts,
      fun rs' h => hparts.components.unique (fun e he => (hw e he).proper) h, fun r hr => ?_⟩
    obtain ⟨h1, h2⟩ := hparts.within r hr
    rw [ByteRange.length]
    omega
  · rintro front line back split spec rfl hline hne hunits hentries
    obtain ⟨l, hl⟩ := List.exists_mem_of_ne_nil split hne
    refine select_congr_of_entries ?_ ?_ ?_ size
    · exact units_ne_nil_iff.2 ⟨l, by simp [hl], hunits l hl⟩
    · exact units_ne_nil_iff.2 ⟨line, by simp, by simp [hline]⟩
    · simp [List.filterMap_append, List.flatMap_append, hline, hentries]

/-- The second line of three joins two ranges of the first; what follows a malformed entry is not
read. -/
theorem select_components_sample :
    let lines := ["bytes=50-59, 0-9,20-29".toList, "items=1".toList, "Bytes=8-21,x,1-2".toList]
    let split := ["bytes=50-59,0-9".toList, "bytes= 20-29".toList]
    select lines (some 100) = .parts [⟨50, 59⟩, ⟨0, 29⟩] ∧
      Parts 100 [⟨50, 59⟩, ⟨0, 9⟩, ⟨20, 29⟩, ⟨8, 21⟩] [⟨50, 59⟩, ⟨0, 29⟩] ∧
      select (split ++ ["items=1".toList, "Bytes=8-21,x,1-2".toList]) (some 100) =
        .parts [⟨50, 59⟩, ⟨0, 29⟩] := by
  intro lines split
  have hes : requested 100 (lines.filterMap bytesUnit?) =
      [⟨50, 59⟩, ⟨0, 9⟩, ⟨20, 29⟩, ⟨8, 21⟩] := by decide +kernel
  have hsel : select lines (some 100) = .parts [⟨50, 59⟩, ⟨0, 29⟩] := by decide +kernel
  obtain ⟨-, -, hparts, hmove⟩ := select_components lines (show 100 < 2 ^ 64 by decide)
  simp only [hes] at hparts
  obtain ⟨rs, hrs, hp, -⟩ := hparts ⟨"bytes=50-59, 0-9,20-29".toList, by decide, by decide +kernel⟩
    (by decide)
  rw [hsel] at hrs
  cases hrs
  refine ⟨hsel, hp, ?_⟩
  rw [← hsel]
  exact hmove [] _ _ split _ rfl rfl (by decide) (by decide +kernel) (by decide +kernel)

end Docroot.ByteRange

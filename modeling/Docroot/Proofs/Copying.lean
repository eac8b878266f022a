import Mathlib.Tactic.Common
import Docroot.Copy
import Docroot.Delivery
import Docroot.Proofs.Ranges

/-!
What a receiver gets of a file that is copied. However large the buffer is, the chunks of a piece
put together are the bytes of that piece, and a row of pieces that lie in the file comes through
without a failure.
-/

namespace Docroot

def ByteRange.slice (data : Bytes) (r : ByteRange) : Bytes := (data.drop r.first).take r.length

def Segment.content (data : Bytes) : Segment → Bytes
  | literal b => b
  | range r => r.slice data
  | all => data

def Segment.Fits (data : Bytes) : Segment → Prop
  | range r => r.Within data.length
  | _ => True

lemma ByteRange.Within.length_slice {data : Bytes} {r : ByteRange} (h : r.Within data.length) :
    (r.slice data).length = r.length := by
  obtain ⟨h1, h2⟩ := h
  simp only [slice, List.length_take, List.length_drop, length]
  omega

namespace Streamed

/-- The bytes come through, and all of them. -/
def Brings (s : Streamed) (data : Bytes) : Prop := s.failure = none ∧ s.bytes = data

lemma Brings.andThen {s next : Streamed} {a b : Bytes} (hs : s.Brings a) (hn : next.Brings b) :
    (s.andThen next).Brings (a ++ b) := by
  obtain ⟨hf, ha⟩ := hs
  obtain ⟨hg, hb⟩ := hn
  unfold Streamed.andThen
  rw [hf]
  refine ⟨hg, ?_⟩
  unfold bytes at ha hb ⊢
  rw [List.flatten_append, ha, hb]

end Streamed

namespace Copy

lemma flatten_chunksOf {size : Nat} (hs : 0 < size) (fuel : Nat) (data : Bytes)
    (h : data.length ≤ fuel) : (chunksOf size fuel data).flatten = data := by
  induction fuel generalizing data with
  | zero =>
    have hd : data = [] := List.eq_nil_of_length_eq_zero (by omega)
    rw [hd]
    rfl
  | succ fuel ih =>
    unfold chunksOf
    cases data with
    | nil => rfl
    | cons b r =>
      have hl : ((b :: r).drop size).length ≤ fuel := by
        simp only [List.length_drop, List.length_cons] at h ⊢
        omega
      simp [ih _ hl]

/-- **Chunks**: put together they are the data, whatever the size of the buffer. -/
theorem flatten_chunks (size : Nat) (data : Bytes) : (chunks size data).flatten = data := by
  have hs : 0 < min (max size 1) readBound := by
    unfold readBound
    omega
  exact flatten_chunksOf hs _ data (Nat.le_refl _)

lemma brings_segment (size : Nat) {data : Bytes} {s : Segment} (h : s.Fits data) :
    (segment size data s).Brings (s.content data) := by
  cases s with
  | literal b =>
    refine ⟨rfl, ?_⟩
    unfold Streamed.bytes segment literal
    cases b <;> simp [Segment.content]
  | all => exact ⟨rfl, flatten_chunks size data⟩
  | range r =>
    refine ⟨?_, flatten_chunks size _⟩
    have hl : ¬ ((data.drop r.first).take r.length).length < r.length := by
      have := ByteRange.Within.length_slice h
      unfold ByteRange.slice at this
      omega
    unfold segment
    exact if_neg hl

theorem brings_segments (size : Nat) {data : Bytes} {ss : List Segment}
    (h : ∀ s ∈ ss, s.Fits data) :
    (segments size data ss).Brings (ss.flatMap (Segment.content data)) := by
  induction ss with
  | nil => exact ⟨rfl, rfl⟩
  | cons s ss ih =>
    rw [List.forall_mem_cons] at h
    exact (brings_segment size h.1).andThen (ih h.2)

lemma brings_file {t : Tree} {path : Text} {place : Place} {data : Bytes} {modified : Timestamp}
    (ht : t.stat path = .ok (place, ⟨.file data, modified⟩)) {size : Nat}
    (hs : size < bufferBound) {ss : List Segment} (h : ∀ s ∈ ss, s.Fits data) :
    (file t path ss size).Brings (ss.flatMap (Segment.content data)) := by
  unfold file
  rw [ht]
  simp only [if_neg (Nat.not_le.2 hs)]
  exact brings_segments size h

end Copy

/-! ### Several parts -/

namespace Multipart

/-- A part of a body in several parts: the delimiter, the fields of the part, and its bytes. -/
def part (boundary : Text) (type : Option Text) (data : Bytes) (r : ByteRange) : Bytes :=
  Text.utf8 (Delivery.partHead boundary type data.length true r) ++ r.slice data

/-- A body in several parts. Each part ends with a line end; the closing delimiter stands behind the
last one. -/
def body (boundary : Text) (type : Option Text) (data : Bytes) (rs : List ByteRange) : Bytes :=
  (rs.flatMap fun r => part boundary type data r ++ Text.utf8 Delivery.lineEnd) ++
    Text.utf8 ("--".toList ++ boundary ++ "--".toList ++ Delivery.lineEnd)

variable (boundary : Text) (type : Option Text) (data : Bytes)

lemma partHead_false (total : Nat) (r : ByteRange) :
    Delivery.partHead boundary type total false r =
      Delivery.lineEnd ++ Delivery.partHead boundary type total true r := by
  simp [Delivery.partHead]

lemma content_parts_false (rs : List ByteRange) :
    (Delivery.parts boundary type data.length false rs).flatMap (Segment.content data) =
      Text.utf8 Delivery.lineEnd ++ body boundary type data rs := by
  induction rs with
  | nil => simp [Delivery.parts, Segment.content, body, Delivery.closing]
  | cons r rs ih =>
    simp [Delivery.parts, Segment.content, ih, body, part, partHead_false]

lemma content_parts {rs : List ByteRange} (h : rs ≠ []) :
    (Delivery.parts boundary type data.length true rs).flatMap (Segment.content data) =
      body boundary type data rs := by
  cases rs with
  | nil => exact absurd rfl h
  | cons r rs =>
    simp [Delivery.parts, Segment.content, content_parts_false, body, part]

lemma fits_parts {total : Nat} {rs : List ByteRange} (h : ∀ r ∈ rs, r.Within data.length)
    (first : Bool) : ∀ s ∈ Delivery.parts boundary type total first rs, s.Fits data := by
  induction rs generalizing first with
  | nil =>
    intro s hs
    obtain rfl := List.mem_singleton.1 hs
    trivial
  | cons r rs ih =>
    rw [List.forall_mem_cons] at h
    intro s hs
    rcases List.mem_cons.1 hs with rfl | hs
    · trivial
    · rcases List.mem_cons.1 hs with rfl | hs
      · exact h.1
      · exact ih h.2 false s hs

end Multipart

end Docroot

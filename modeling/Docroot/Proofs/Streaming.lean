import Mathlib.Data.List.Forall2
import Docroot.Proofs.Copying

/-!
A file that is copied read by read. A read may bring fewer bytes than it is asked for, so that a row
of pieces can come through in many ways; whichever it is, the chunks put together are what the same
pieces make of the same bytes in memory, none is empty, and none that is cut from the file is longer
than the buffer. A file too short for a range ends the copy with a failure behind its last byte. All
this is so for every buffer that memory can hold.
-/

namespace Docroot

/-! ### Reads -/

namespace Copy

/-- One read of at most `want` bytes of a file of which the first argument is still to be read: the
bytes that it brings, and what is then still to be read. It brings none only at the end. -/
inductive Reads (want : Nat) : Bytes → Bytes → Bytes → Prop
  | next {chunk rest : Bytes} (hc : chunk ≠ []) (hl : chunk.length ≤ want) :
      Reads want (chunk ++ rest) chunk rest
  | ended : Reads want [] [] []

inductive ReadsAll (size : Nat) : Bytes → List Bytes → Prop
  | ended {rest rest' : Bytes} (h : Reads size rest [] rest') : ReadsAll size rest []
  | more {rest chunk rest' : Bytes} {chunks : List Bytes} (h : Reads size rest chunk rest')
      (hc : chunk ≠ []) (go : ReadsAll size rest' chunks) : ReadsAll size rest (chunk :: chunks)

/-- The reads of `remaining` bytes, none of which asks for more than remain, and what is still to be
read after them. -/
inductive ReadsRange (size : Nat) : Nat → Bytes → Streamed → Bytes → Prop
  | done {rest : Bytes} : ReadsRange size 0 rest ⟨[], none⟩ rest
  | short {remaining : Nat} {rest rest' : Bytes} (hr : 0 < remaining)
      (h : Reads (min remaining size) rest [] rest') :
      ReadsRange size remaining rest ⟨[], some .shorterThanRecorded⟩ rest'
  | more {remaining : Nat} {rest chunk rest' last : Bytes} {out : Streamed} (hr : 0 < remaining)
      (h : Reads (min remaining size) rest chunk rest') (hc : chunk ≠ [])
      (go : ReadsRange size (remaining - chunk.length) rest' out last) :
      ReadsRange size remaining rest ⟨chunk :: out.chunks, out.failure⟩ last

/-- The copies of a row of pieces of a file that holds `data`, of which the first argument is still
to be read. A range is looked for from the beginning of the file. -/
inductive Copies (size : Nat) (data : Bytes) : Bytes → List Segment → Streamed → Prop
  | done {rest : Bytes} : Copies size data rest [] ⟨[], none⟩
  | literal {rest b : Bytes} {ss : List Segment} {out : Streamed}
      (go : Copies size data rest ss out) :
      Copies size data rest (.literal b :: ss) ⟨Copy.literal b ++ out.chunks, out.failure⟩
  | all {rest : Bytes} {ss : List Segment} {chunks : List Bytes} {out : Streamed}
      (h : ReadsAll size rest chunks) (go : Copies size data [] ss out) :
      Copies size data rest (.all :: ss) ⟨chunks ++ out.chunks, out.failure⟩
  | range {rest rest' : Bytes} {r : ByteRange} {ss : List Segment} {chunks : List Bytes}
      {out : Streamed} (h : ReadsRange size r.length (data.drop r.first) ⟨chunks, none⟩ rest')
      (go : Copies size data rest' ss out) :
      Copies size data rest (.range r :: ss) ⟨chunks ++ out.chunks, out.failure⟩
  | short {rest rest' : Bytes} {r : ByteRange} {ss : List Segment} {chunks : List Bytes}
      {e : IoError} (h : ReadsRange size r.length (data.drop r.first) ⟨chunks, some e⟩ rest') :
      Copies size data rest (.range r :: ss) ⟨chunks, some e⟩

/-! ### Frames -/

/-- The chunks cut the data into pieces that are not empty and have at most `size` bytes. -/
structure Cuts (size : Nat) (data : Bytes) (chunks : List Bytes) : Prop where
  flatten : chunks.flatten = data
  nonempty : ∀ c ∈ chunks, c ≠ []
  bounded : ∀ c ∈ chunks, c.length ≤ size

namespace Cuts

variable {size : Nat} {data : Bytes} {chunk : Bytes} {chunks : List Bytes}

lemma nil : Cuts size [] [] where
  flatten := rfl
  nonempty := fun _ hc => absurd hc List.not_mem_nil
  bounded := fun _ hc => absurd hc List.not_mem_nil

lemma cons (hc : chunk ≠ []) (hl : chunk.length ≤ size) (h : Cuts size data chunks) :
    Cuts size (chunk ++ data) (chunk :: chunks) where
  flatten := by rw [List.flatten_cons, h.flatten]
  nonempty := List.forall_mem_cons.2 ⟨hc, h.nonempty⟩
  bounded := List.forall_mem_cons.2 ⟨hl, h.bounded⟩

end Cuts

variable {size : Nat} {data rest : Bytes}

lemma Reads.length_le {want : Nat} {chunk rest' : Bytes} (h : Reads want rest chunk rest') :
    rest = chunk ++ rest' ∧ chunk.length ≤ want := by
  cases h with
  | next hc hl => exact ⟨rfl, hl⟩
  | ended => exact ⟨rfl, Nat.zero_le want⟩

lemma Reads.eq_nil {want : Nat} {rest' : Bytes} (h : Reads want rest [] rest') :
    rest = [] ∧ rest' = [] := by
  generalize hc : ([] : Bytes) = chunk at h
  cases h with
  | next hne _ => exact absurd hc.symm hne
  | ended => exact ⟨rfl, rfl⟩

lemma ReadsAll.cuts {chunks : List Bytes} (h : ReadsAll size rest chunks) :
    Cuts size rest chunks := by
  induction h with
  | ended h =>
    rw [h.eq_nil.1]
    exact Cuts.nil
  | more h hc go ih =>
    obtain ⟨hrest, hl⟩ := h.length_le
    rw [hrest]
    exact ih.cons hc hl

/-- Reading a range cuts it as far as it is there, and fails just when it is not all there. -/
lemma ReadsRange.cuts {remaining : Nat} {out : Streamed} {last : Bytes}
    (h : ReadsRange size remaining rest out last) :
    Cuts size (rest.take remaining) out.chunks ∧
      out.failure = if rest.length < remaining then some .shorterThanRecorded else none := by
  induction h with
  | done => exact ⟨Cuts.nil, by simp⟩
  | short hr h =>
    rw [h.eq_nil.1, List.take_nil]
    exact ⟨Cuts.nil, by rw [List.length_nil, if_pos hr]⟩
  | @more remaining rest chunk rest' last out hr h hc go ih =>
    obtain ⟨hrest, hl⟩ := h.length_le
    obtain ⟨hcuts, hfail⟩ := ih
    have htake : rest.take remaining = chunk ++ rest'.take (remaining - chunk.length) := by
      rw [hrest, List.take_append, List.take_of_length_le (by omega)]
    have hlt : rest.length < remaining ↔ rest'.length < remaining - chunk.length := by
      rw [hrest, List.length_append]
      omega
    refine ⟨?_, ?_⟩
    · rw [htake]
      exact hcuts.cons hc (by omega)
    · rw [hfail]
      simp only [hlt]

end Copy

/-- A literal piece, or a range that is not empty. -/
def Segment.Part : Segment → Prop
  | literal _ => True
  | range r => r.first ≤ r.last
  | all => False

/-- The frames that a piece of a file comes through in. A literal piece is one frame, and none if it
is empty. -/
def Segment.Frames (size : Nat) (data : Bytes) (s : Segment) (frames : List Bytes) : Prop :=
  match s with
  | literal b => frames = Copy.literal b
  | s => Copy.Cuts size (s.content data) frames

namespace Copy

/-- The frames of a row of pieces, one row of frames for each of them. -/
def Frames (size : Nat) (data : Bytes) (ss : List Segment) (frames : List Bytes) : Prop :=
  ∃ rows, List.Forall₂ (Segment.Frames size data) ss rows ∧ frames = rows.flatten

variable {size : Nat} {data rest : Bytes} {ss : List Segment} {frames : List Bytes}

lemma Frames.nil : Frames size data [] [] := ⟨[], .nil, rfl⟩

lemma Frames.cons {s : Segment} {row : List Bytes} (hs : s.Frames size data row)
    (h : Frames size data ss frames) : Frames size data (s :: ss) (row ++ frames) := by
  obtain ⟨rows, hrows, rfl⟩ := h
  exact ⟨row :: rows, .cons hs hrows, rfl⟩

lemma flatten_of_frames {s : Segment} (h : s.Frames size data frames) :
    frames.flatten = s.content data ∧ ∀ c ∈ frames, c ≠ [] := by
  cases s with
  | literal b =>
    have hb : frames = literal b := h
    rw [hb]
    cases b with
    | nil => exact ⟨rfl, fun c hc => absurd hc List.not_mem_nil⟩
    | cons x b => simp [literal, Segment.content]
  | range r => exact ⟨h.flatten, h.nonempty⟩
  | all => exact ⟨h.flatten, h.nonempty⟩

lemma Frames.flatten (h : Frames size data ss frames) :
    frames.flatten = ss.flatMap (Segment.content data) ∧ ∀ c ∈ frames, c ≠ [] := by
  obtain ⟨rows, hrows, rfl⟩ := h
  induction hrows with
  | nil => exact ⟨rfl, fun c hc => absurd hc List.not_mem_nil⟩
  | cons hs hrows ih =>
    obtain ⟨hf, hn⟩ := flatten_of_frames hs
    rw [List.flatten_cons, List.flatten_append, ih.1, hf, List.flatMap_cons]
    exact ⟨rfl, List.forall_mem_append.2 ⟨hn, ih.2⟩⟩

/-! ### What every copy brings -/

/-- What comes through are the pieces of `front` in full and what there is of the range `r`, and
then the copy fails because the file is too short. -/
def BreaksOff (size : Nat) (data : Bytes) (front : List Segment) (r : ByteRange)
    (out : Streamed) : Prop :=
  ∃ before available, out = ⟨before ++ available, some .shorterThanRecorded⟩ ∧
    Frames size data front before ∧ before.flatten = front.flatMap (Segment.content data) ∧
    Cuts size (r.slice data) available

lemma BreaksOff.cons {front : List Segment} {r : ByteRange} {out : Streamed}
    (h : BreaksOff size data front r out) {s : Segment} {row : List Bytes}
    (hs : s.Frames size data row) :
    BreaksOff size data (s :: front) r ⟨row ++ out.chunks, out.failure⟩ := by
  obtain ⟨before, available, rfl, hbefore, -, havailable⟩ := h
  have hframes := hbefore.cons hs
  exact ⟨row ++ before, available, by rw [List.append_assoc], hframes, hframes.flatten.1,
    havailable⟩

/-- A copy either brings all the pieces in full, because all are there, or breaks off in the first
range that the file is too short for. -/
lemma Copies.outcome {out : Streamed} (h : Copies size data rest ss out)
    (hss : ∀ s ∈ ss, s.Part) :
    ((∀ s ∈ ss, s.Fits data) ∧ out.failure = none ∧ Frames size data ss out.chunks) ∨
      ∃ front r back, ss = front ++ .range r :: back ∧ (∀ s ∈ front, s.Fits data) ∧
        data.length ≤ r.last ∧ BreaksOff size data front r out := by
  induction h with
  | done => exact Or.inl ⟨fun s hs => absurd hs List.not_mem_nil, rfl, Frames.nil⟩
  | @literal rest b ss out go ih =>
    rw [List.forall_mem_cons] at hss
    have hrow : Segment.Frames size data (.literal b) (Copy.literal b) := rfl
    rcases ih hss.2 with ⟨hfit, hf, hframes⟩ | ⟨front, r, back, rfl, hfit, hshort, hout⟩
    · exact Or.inl ⟨List.forall_mem_cons.2 ⟨trivial, hfit⟩, hf, hframes.cons hrow⟩
    · exact Or.inr ⟨.literal b :: front, r, back, rfl, List.forall_mem_cons.2 ⟨trivial, hfit⟩,
        hshort, hout.cons hrow⟩
  | all h go ih => exact absurd (hss _ List.mem_cons_self) id
  | @range rest rest' x ss chunks out h go ih =>
    rw [List.forall_mem_cons] at hss
    obtain ⟨hrow, hfail⟩ := h.cuts
    have hx : x.first ≤ x.last := hss.1
    -- nothing failed, so the file reaches the last byte of the range
    have hthere : x.Within data.length := by
      refine ⟨hx, ?_⟩
      by_contra hlast
      rw [if_pos (by rw [List.length_drop, ByteRange.length]; omega)] at hfail
      cases hfail
    rcases ih hss.2 with ⟨hfit, hf, hframes⟩ | ⟨front, r, back, rfl, hfit, hshort, hout⟩
    · exact Or.inl ⟨List.forall_mem_cons.2 ⟨hthere, hfit⟩, hf, hframes.cons hrow⟩
    · exact Or.inr ⟨.range x :: front, r, back, rfl, List.forall_mem_cons.2 ⟨hthere, hfit⟩, hshort,
        hout.cons hrow⟩
  | @short rest rest' x ss chunks e h =>
    obtain ⟨hrow, hfail⟩ := h.cuts
    -- the copy stopped here, so the file ends before that byte
    have hshort : data.length ≤ x.last := by
      by_contra hlast
      rw [if_neg (by rw [List.length_drop, ByteRange.length]; omega)] at hfail
      cases hfail
    have he : e = .shorterThanRecorded := by
      split at hfail
      · exact Option.some.inj hfail
      · cases hfail
    rw [he]
    exact Or.inr ⟨[], x, ss, rfl, fun s hs => absurd hs List.not_mem_nil, hshort, [], chunks, rfl,
      Frames.nil, rfl, hrow⟩

lemma Copies.whole {out : Streamed} (h : Copies size data data [.all] out) :
    out.failure = none ∧ Frames size data [.all] out.chunks := by
  cases h with
  | all h go =>
    cases go with
    | done => exact ⟨rfl, Frames.nil.cons h.cuts⟩

/-! ### The copy that is made -/

lemma readsAll_of_cuts {chunks : List Bytes} (h : Cuts size rest chunks) :
    ReadsAll size rest chunks := by
  induction chunks generalizing rest with
  | nil =>
    obtain rfl : [] = rest := h.flatten
    exact .ended .ended
  | cons c chunks ih =>
    obtain ⟨hf, hn, hb⟩ := h
    rw [List.forall_mem_cons] at hn hb
    rw [List.flatten_cons] at hf
    rw [← hf]
    exact .more (.next hn.1 hb.1) hn.1 (ih ⟨rfl, hn.2, hb.2⟩)

lemma readsRange_of_cuts {remaining : Nat} {chunks : List Bytes}
    (h : Cuts size (rest.take remaining) chunks) :
    ReadsRange size remaining rest
      ⟨chunks, if rest.length < remaining then some .shorterThanRecorded else none⟩
      (rest.drop remaining) := by
  induction chunks generalizing remaining rest with
  | nil =>
    have hnone : remaining = 0 ∨ rest = [] := by
      simpa using h.flatten.symm
    by_cases hr : remaining = 0
    · rw [hr, if_neg (Nat.not_lt_zero _)]
      exact .done
    · obtain rfl := hnone.resolve_left hr
      rw [if_pos (by simp; omega), List.drop_nil]
      exact .short (by omega) .ended
  | cons c chunks ih =>
    obtain ⟨hf, hn, hb⟩ := h
    rw [List.forall_mem_cons] at hn hb
    rw [List.flatten_cons] at hf
    have hpos : 0 < c.length := List.length_pos_iff.2 hn.1
    have hle : c.length ≤ remaining := by
      have hlen := congrArg List.length hf
      rw [List.length_append, List.length_take] at hlen
      omega
    -- the chunk is read off the front of what is left
    have hprefix : c <+: rest := by
      have hc : c <+: rest.take remaining := ⟨chunks.flatten, hf⟩
      exact hc.trans (List.take_prefix remaining rest)
    obtain ⟨rest', rfl⟩ := hprefix
    have htake : (c ++ rest').take remaining = c ++ rest'.take (remaining - c.length) := by
      rw [List.take_append, List.take_of_length_le hle]
    have hdrop : (c ++ rest').drop remaining = rest'.drop (remaining - c.length) := by
      rw [List.drop_append, List.drop_eq_nil_of_le hle, List.nil_append]
    have hlt : (c ++ rest').length < remaining ↔ rest'.length < remaining - c.length := by
      rw [List.length_append]
      omega
    rw [htake] at hf
    have hgo := ih ⟨List.append_cancel_left hf, hn.2, hb.2⟩
    rw [hdrop]
    simp only [hlt]
    exact .more (by omega) (.next hn.1 (by omega)) hn.1 hgo

lemma mem_chunksOf (hs : 0 < size) (fuel : Nat) {c : Bytes} (h : c ∈ chunksOf size fuel data) :
    c ≠ [] ∧ c.length ≤ size := by
  induction fuel generalizing data with
  | zero => exact absurd h List.not_mem_nil
  | succ fuel ih =>
    unfold chunksOf at h
    cases data with
    | nil => exact absurd h List.not_mem_nil
    | cons b r =>
      rcases List.mem_cons.1 h with rfl | h
      · refine ⟨?_, List.length_take_le size (b :: r)⟩
        rw [← List.length_pos_iff, List.length_take, List.length_cons]
        omega
      · exact ih h

lemma cuts_chunks (size : Nat) (data : Bytes) : Cuts (max size 1) data (chunks size data) := by
  have hpos : 0 < min (max size 1) readBound := by
    unfold readBound
    omega
  refine ⟨flatten_chunks size data, fun c hc => (mem_chunksOf hpos _ hc).1, fun c hc => ?_⟩
  exact Nat.le_trans (mem_chunksOf hpos _ hc).2 (Nat.min_le_left _ _)

lemma copies_segments (size : Nat) (hall : .all ∉ ss) :
    Copies (max size 1) data rest ss (segments size data ss) := by
  induction ss generalizing rest with
  | nil => exact .done
  | cons s ss ih =>
    rw [List.mem_cons, not_or] at hall
    cases s with
    | literal b => exact .literal (ih hall.2)
    | all => exact absurd rfl hall.1
    | range r =>
      have hread := readsRange_of_cuts (cuts_chunks size ((data.drop r.first).take r.length))
      have hlt : ((data.drop r.first).take r.length).length < r.length ↔
          (data.drop r.first).length < r.length := by
        rw [List.length_take]
        omega
      rw [segments, segment]
      simp only [hlt]
      by_cases hshort : (data.drop r.first).length < r.length
      · rw [if_pos hshort] at hread ⊢
        exact .short hread
      · rw [if_neg hshort] at hread ⊢
        exact .range hread (ih hall.2)

lemma copies_whole (size : Nat) (data : Bytes) :
    Copies (max size 1) data data [.all] (segments size data [.all]) :=
  .all (readsAll_of_cuts (cuts_chunks size data)) .done

end Copy

/-! ### In memory -/

namespace Delivery

lemma assemble_of_fits {data : Bytes} {ss : List Segment} (h : ∀ s ∈ ss, s.Fits data) :
    assemble data ss = .ok (ss.flatMap (Segment.content data)) := by
  induction ss with
  | nil => rfl
  | cons s ss ih =>
    rw [List.forall_mem_cons] at h
    cases s with
    | literal b => rw [assemble, ih h.2]; rfl
    | all => rw [assemble, ih h.2]; rfl
    | range r =>
      obtain ⟨h1, h2⟩ : r.first ≤ r.last ∧ r.last < data.length := h.1
      have hslice : slice? data r = some (r.slice data) := if_pos ⟨by omega, h2⟩
      rw [assemble, hslice, ih h.2]
      rfl

end Delivery

/-! ### The stream of a body -/

/-- The rows of pieces that bodies consist of: the whole of a file, or literal pieces and ranges. -/
def Laid (ss : List Segment) : Prop := ss = [.all] ∨ ∀ s ∈ ss, s.Part

/-- What comes through ends without a failure and is what the pieces make in memory, in frames none
of which is empty; those that are cut from the file have at most `size` bytes. -/
structure Streamed.Completes (size : Nat) (data : Bytes) (ss : List Segment) (out : Streamed) :
    Prop where
  failure : out.failure = none
  bytes : Delivery.assemble data ss = .ok out.bytes
  nonempty : ∀ c ∈ out.chunks, c ≠ []
  frames : Copy.Frames size data ss out.chunks

namespace Body

open Copy

lemma completes_of_frames {size : Nat} {data : Bytes} {ss : List Segment} {out : Streamed}
    (hfit : ∀ s ∈ ss, s.Fits data) (hf : out.failure = none)
    (hframes : Frames size data ss out.chunks) : out.Completes size data ss where
  failure := hf
  bytes := by rw [Delivery.assemble_of_fits hfit, Streamed.bytes, hframes.flatten.1]
  nonempty := hframes.flatten.2
  frames := hframes

lemma stream_of_stat {t : Tree} {name : Text} {place : Place} {data : Bytes} {modified : Timestamp}
    (ht : t.stat name = .ok (place, ⟨.file data, modified⟩)) (ss : List Segment) (size : Nat) :
    (Body.file name ss size).stream t =
      if bufferBound ≤ size then ⟨[], none⟩ else segments size data ss := by
  show Copy.file t name ss size = _
  unfold Copy.file
  rw [ht]

/-- **Streaming is slicing**: when a buffer of `size` bytes can be held, the stream of a body comes
of reads of its file; and in whatever way the reads bring their bytes, the pieces come through as
they are put together in memory if the file has them all, and else break off with a failure in the
first range that the file is too short for. A buffer that no memory can hold brings nothing, and no
failure. -/
theorem stream_of_reads {t : Tree} {name : Text} {place : Place} {data : Bytes}
    {modified : Timestamp} (ht : t.stat name = .ok (place, ⟨.file data, modified⟩)) (size : Nat)
    {ss : List Segment} (hss : Laid ss) :
    let stream := (Body.file name ss size).stream t
    (size < bufferBound → Copies (max size 1) data data ss stream ∧
      ∀ out, Copies (max size 1) data data ss out →
        (∀ s ∈ ss, s.Fits data) ∧ out.Completes (max size 1) data ss ∨
        ∃ front r back, ss = front ++ .range r :: back ∧ (∀ s ∈ front, s.Fits data) ∧
          data.length ≤ r.last ∧ BreaksOff (max size 1) data front r out) ∧
    (bufferBound ≤ size → stream = ⟨[], none⟩) := by
  intro stream
  have hstream : stream = _ := stream_of_stat ht ss size
  refine ⟨fun hs => ⟨?_, fun out hout => ?_⟩, fun hs => by rw [hstream, if_pos hs]⟩
  · rw [hstream, if_neg (Nat.not_le.2 hs)]
    rcases hss with rfl | hparts
    · exact copies_whole size data
    · exact copies_segments size fun hall => hparts _ hall
  · rcases hss with rfl | hparts
    · have hfit : ∀ s ∈ [Segment.all], s.Fits data := by
        intro s hm
        obtain rfl := List.mem_singleton.1 hm
        trivial
      obtain ⟨hf, hframes⟩ := hout.whole
      exact Or.inl ⟨hfit, completes_of_frames hfit hf hframes⟩
    · rcases hout.outcome hparts with ⟨hfit, hf, hframes⟩ | hshort
      · exact Or.inl ⟨hfit, completes_of_frames hfit hf hframes⟩
      · exact Or.inr hshort

/-- The second of two ranges reaches past the end of the file, and the buffer has no room at all:
what comes through are single bytes, up to the last one of the file. -/
theorem stream_of_reads_sample :
    let t : Tree := ⟨[(["a".toList], ⟨.file [104, 101, 108, 108, 111], ⟨0⟩⟩)]⟩
    let ss : List Segment := [.literal [45, 45], .range ⟨1, 2⟩, .range ⟨3, 9⟩, .literal [45, 45]]
    let stream := (Body.file "/a".toList ss 0).stream t
    t.stat "/a".toList = .ok (["a".toList], ⟨.file [104, 101, 108, 108, 111], ⟨0⟩⟩) ∧ Laid ss ∧
      stream = ⟨[[45, 45], [101], [108], [108], [111]], some .shorterThanRecorded⟩ ∧
      ∃ front r back, ss = front ++ .range r :: back ∧
        (∀ s ∈ front, s.Fits [104, 101, 108, 108, 111]) ∧ 5 ≤ r.last ∧
        BreaksOff 1 [104, 101, 108, 108, 111] front r stream := by
  intro t ss stream
  have ht : t.stat "/a".toList =
      .ok (["a".toList], ⟨.file [104, 101, 108, 108, 111], ⟨0⟩⟩) := by decide +kernel
  have hss : Laid ss := by
    refine Or.inr ?_
    simp [ss, Segment.Part]
  obtain ⟨hcopies, hall⟩ := (stream_of_reads ht 0 hss).1 (by decide)
  refine ⟨ht, hss, by decide +kernel, (hall stream hcopies).resolve_left ?_⟩
  rintro ⟨hfit, -⟩
  have hlast : ByteRange.Within 5 ⟨3, 9⟩ := hfit (.range ⟨3, 9⟩) (by simp [ss])
  exact absurd hlast.2 (by decide)

/-- With a buffer of 2 to the 63 bytes nothing of a file comes through, and no failure tells of
it. -/
theorem unheld_brings_nothing :
    let t : Tree := ⟨[(["a".toList], ⟨.file [104, 101, 108, 108, 111], ⟨0⟩⟩)]⟩
    (Body.file "/a".toList [.all] 9223372036854775808).stream t = ⟨[], none⟩ ∧
      Delivery.assemble [104, 101, 108, 108, 111] [.all] = .ok [104, 101, 108, 108, 111] := by
  decide +kernel

end Body

end Docroot

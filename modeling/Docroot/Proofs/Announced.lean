import Mathlib.Tactic.Common
import Docroot.Proofs.Dates
import Docroot.Proofs.Grounds
import Docroot.Proofs.Partial

/-!
The length that a reply announces, and the number of bytes that come through. The copy opens a file
later than it was looked up. A range that is no longer all there ends in a failure; but the whole of
a file is copied as it then is, so that a file which has changed its length comes through with
another number of bytes than was announced, and nothing tells of it.
-/

namespace Docroot

open Text

def Tree.fileLength? (t : Tree) (name : Text) : Option Nat :=
  match t.stat name with
  | .ok (_, ⟨.file data, _⟩) => some data.length
  | _ => none

/-- The reply says that its body has `k` bytes. -/
def Reply.Announces (reply : Reply) (k : Nat) : Prop :=
  Reply.numeral k ∈ reply.headers.getAll HeaderName.contentLength

instance (reply : Reply) (k : Nat) : Decidable (reply.Announces k) :=
  inferInstanceAs (Decidable (Reply.numeral k ∈ reply.headers.getAll HeaderName.contentLength))

/-- The body is no longer one of `k` bytes, and its copy does not notice: it is the whole of a file
that has another length now, or the buffer is one that no memory can hold. -/
inductive Body.Miscounted (t : Tree) (k : Nat) : Body → Prop
  | changed {name : Text} {size : Nat} (hs : size < Copy.bufferBound)
      (h : t.fileLength? name ≠ some k) : Miscounted t k (.file name [.all] size)
  | unheld {name : Text} {segments : List Segment} {size : Nat} (hs : Copy.bufferBound ≤ size)
      (hk : k ≠ 0) : Miscounted t k (.file name segments size)

/-! ### Copies that end without a failure -/

namespace Streamed

@[simp] lemma andThen_nil (s : Streamed) : s.andThen ⟨[], none⟩ = s := by
  obtain ⟨chunks, failure⟩ := s
  cases failure <;> simp [andThen]

end Streamed

namespace Copy

variable {t : Tree} {name : Text} {size : Nat}

lemma exists_data_of_file {s : Segment} (hs : size < bufferBound) (hl : ∀ b, s ≠ .literal b)
    (hf : (file t name [s] size).failure = none) :
    ∃ data, t.fileLength? name = some data.length ∧
      file t name [s] size = segment size data s := by
  unfold file at hf ⊢
  unfold Tree.fileLength?
  rcases hstat : t.stat name with e | ⟨place, ⟨node, modified⟩⟩
  · simp [hstat] at hf
  · simp only [hstat, if_neg (Nat.not_le.2 hs)] at hf ⊢
    have hu : (unreadable [s]).failure ≠ none := by
      cases s with
      | literal b => exact absurd rfl (hl b)
      | all => exact Option.some_ne_none _
      | range r => exact Option.some_ne_none _
    cases node with
    | file data => exact ⟨data, rfl, Streamed.andThen_nil _⟩
    | directory => exact absurd hf hu
    | link target => exact absurd hf hu

/-- A buffer that no memory can hold brings nothing. -/
lemma bytes_of_unheld {segments : List Segment} (hs : bufferBound ≤ size)
    (hf : (file t name segments size).failure = none) :
    (file t name segments size).bytes = [] := by
  unfold file at hf ⊢
  rcases hstat : t.stat name with e | ⟨place, e⟩
  · simp [hstat] at hf
  · simp only [if_pos hs]
    rfl

lemma length_bytes_all (hs : size < bufferBound)
    (hf : (file t name [.all] size).failure = none) :
    t.fileLength? name = some (file t name [.all] size).bytes.length := by
  obtain ⟨data, hl, he⟩ := exists_data_of_file hs (by simp) hf
  rw [hl, he]
  exact congrArg (fun b => some b.length) (flatten_chunks size data).symm

lemma length_bytes_range {r : ByteRange} (hs : size < bufferBound)
    (hf : (file t name [.range r] size).failure = none) :
    (file t name [.range r] size).bytes.length = r.length := by
  obtain ⟨data, -, he⟩ := exists_data_of_file hs (by simp) hf
  rw [he] at hf ⊢
  have hall : ¬ ((data.drop r.first).take r.length).length < r.length := by
    intro hlt
    have hs : (segment size data (.range r)).failure = some .shorterThanRecorded := if_pos hlt
    rw [hs] at hf
    cases hf
  have hb : (segment size data (.range r)).bytes = (data.drop r.first).take r.length :=
    flatten_chunks size _
  have hle := List.length_take_le r.length (data.drop r.first)
  rw [hb]
  omega

end Copy

/-! ### What is announced -/

namespace Reply

lemma numeral_injective {m n : Nat} (h : numeral m = numeral n) : m = n := by
  have hd := congrArg digitsValue (utf8_injective h)
  rwa [digitsValue_decimal, digitsValue_decimal] at hd

/-- What the reply announces of the whole of a file is its length in the tree. Whatever becomes of
the tree, a body that comes through without a failure has as many bytes as the reply announces,
unless it is miscounted. -/
def Counts (t : Tree) (reply : Reply) : Prop :=
  ∀ k, reply.Announces k →
    (∀ name size, reply.body = .file name [.all] size → t.fileLength? name = some k) ∧
    ∀ t', (reply.body.stream t').failure = none →
      ((reply.body.stream t').bytes.length = k ↔ ¬ reply.body.Miscounted t' k)

variable {t : Tree} {reply : Reply} {status : Nat} {headers : Headers} {data : Bytes}

lemma eq_of_announces {k n : Nat} (h : reply.headers.getAll HeaderName.contentLength = [numeral n])
    (hk : reply.Announces k) : k = n :=
  numeral_injective (List.mem_singleton.1 (h ▸ hk))

lemma counts_of_silent (h : reply.headers.getAll HeaderName.contentLength = []) :
    reply.Counts t := by
  intro k hk
  unfold Announces at hk
  rw [h] at hk
  exact absurd hk List.not_mem_nil

/-- A body that is at hand is what it was when it was counted. -/
lemma counts_of_held (hb : reply.Held) {n : Nat}
    (hn : ∀ t', (reply.body.stream t').bytes.length = n)
    (h : reply.headers.getAll HeaderName.contentLength = [numeral n]) : reply.Counts t := by
  intro k hk
  obtain rfl := eq_of_announces h hk
  refine ⟨fun name size hf => absurd hf (hb _ _ _), fun t' _ => iff_of_true (hn t') ?_⟩
  intro hm
  generalize hbody : reply.body = body at hm
  cases hm <;> exact hb _ _ _ hbody

lemma counts_full (h : headers.getAll HeaderName.contentLength = [numeral data.length]) :
    Counts t ⟨status, headers, .full data⟩ :=
  counts_of_held held_of_full (fun _ => by simp [Body.stream, Streamed.bytes]) h

lemma counts_empty (h : headers.getAll HeaderName.contentLength = [numeral 0]) :
    Counts t ⟨status, headers, .empty⟩ :=
  counts_of_held held_of_empty (fun _ => rfl) h

lemma counts_all {name : Text} {size n : Nat} (hn : t.fileLength? name = some n)
    (h : headers.getAll HeaderName.contentLength = [numeral n]) :
    Counts t ⟨status, headers, .file name [.all] size⟩ := by
  intro k hk
  obtain rfl := eq_of_announces h hk
  refine ⟨?_, fun t' hf => ?_⟩
  · intro name' size' hb
    cases hb
    exact hn
  show (Copy.file t' name [.all] size).bytes.length = k ↔ _
  -- either the buffer can be held and the file is copied, or nothing is
  rcases Nat.lt_or_ge size Copy.bufferBound with hs | hs
  · have hl := Copy.length_bytes_all hs hf
    constructor
    · rintro rfl hm
      cases hm with
      | changed _ hne => exact hne hl
      | unheld hge _ => omega
    · intro hm
      by_contra hne
      refine hm (.changed hs fun he => hne ?_)
      rw [hl] at he
      exact Option.some.inj he
  · rw [Copy.bytes_of_unheld hs hf]
    constructor
    · rintro rfl hm
      cases hm with
      | changed hlt _ => omega
      | unheld _ hne => exact hne rfl
    · intro hm
      by_contra hne
      exact hm (.unheld hs (Ne.symm hne))

lemma counts_range {name : Text} {size : Nat} {r : ByteRange}
    (h : headers.getAll HeaderName.contentLength = [numeral r.length]) :
    Counts t ⟨status, headers, .file name [.range r] size⟩ := by
  intro k hk
  refine ⟨?_, fun t' hf => ?_⟩
  · intro name' size' hb
    cases hb
  show (Copy.file t' name [.range r] size).bytes.length = k ↔ _
  rcases Nat.lt_or_ge size Copy.bufferBound with hs | hs
  · obtain rfl := eq_of_announces h hk
    refine iff_of_true (Copy.length_bytes_range hs hf) fun hm => ?_
    cases hm with
    | unheld hge _ => omega
  · rw [Copy.bytes_of_unheld hs hf]
    constructor
    · rintro rfl hm
      cases hm with
      | unheld _ hne => exact hne rfl
    · intro hm
      by_contra hne
      exact hm (.unheld hs (Ne.symm hne))

lemma counts_message (status : Nat) (text : Text) : (message status text).Counts t :=
  counts_full rfl

lemma counts_ofFailure (f : Failure) : (ofFailure f).Counts t := by
  cases f <;> exact counts_message _ _

lemma counts_redirected (location : Text) : (redirected location).Counts t := by
  refine counts_empty ?_
  rw [Headers.getAll_append_list]
  cases Headers.value? location <;> rfl

lemma counts_unchanged (tag : Option Text) : (unchanged tag).Counts t := by
  refine counts_of_silent ?_
  unfold unchanged
  cases tag.bind Headers.value? <;> rfl

end Reply

namespace Precondition.Verdict

lemma counts_of_reply? {t : Tree} {verdict : Verdict} {reply : Reply}
    (h : verdict.reply? = some reply) : reply.Counts t := by
  cases verdict <;> cases h
  · exact Reply.counts_unchanged _
  · exact Reply.counts_message _ _

end Precondition.Verdict

namespace Delivery

variable (options : Options) (boundary : Text) (resource : Resource) (modified : Option Text)
  {d : Draft}

lemma contentLength_unsatisfied :
    (unsatisfied options resource modified d).finish.getAll HeaderName.contentLength =
      [Reply.numeral notSatisfiableText.length] := by
  rw [Draft.getAll_finish_of_free, unsatisfied, Draft.getAll_setText_of_ne (by decide)]
  · simp [Draft.put, Draft.setStatus, Headers.getAll_put]
  · simp [Draft.Free]

lemma counts_replyFor {t : Tree} {name : Text} {n : Nat} (ht : t.fileLength? name = some n)
    (hn : resource.length = some n) (hf : d.Free HeaderName.contentLength)
    (hd : d.headers.getAll HeaderName.contentLength = []) (selected : ByteRange.Selection) :
    (replyFor options boundary false resource name modified d selected).Counts t :=
  match selected with
  | .whole => Reply.counts_all ht (contentLength_whole options resource modified hn hf)
  | .unsatisfiable => Reply.counts_full (contentLength_unsatisfied options resource modified)
  | .parts [r] => Reply.counts_range (contentLength_singlePart options resource modified r hf)
  | .parts [] => Reply.counts_of_silent (contentLength_severalParts _ _ _ _ hf hd)
  | .parts (_ :: _ :: _) => Reply.counts_of_silent (contentLength_severalParts _ _ _ _ hf hd)

end Delivery

namespace Service

lemma counts_of_fixes {t : Tree} {s : Service} {path : Text} {query : Option Text} {reply : Reply}
    (h : s.Fixes path query reply) : reply.Counts t := by
  cases h with
  | missing => exact Reply.counts_message _ _
  | refused => exact Reply.counts_message _ _
  | elsewhere _ => exact Reply.counts_redirected _

lemma counts_of_listingReply {t : Tree} {s : Service} {q : Inquiry} (hq : q.headOnly = false)
    {directory : Resource} {reply : Reply} (h : listingReply s q directory = .ok reply) :
    reply.Counts t := by
  unfold listingReply at h
  split at h
  · cases h
    exact Reply.counts_message _ _
  · split at h <;> cases h
    · exact Reply.counts_message _ _
    · rw [hq]
      exact Reply.counts_full rfl

end Service

namespace Site

open Service

variable (site : Site) (t : Tree) (b : Text) (arrival : Arrival) {r : Request} (n : Negotiator)

/-- **Announced lengths**: what a reply to a `GET` request announces of the whole of a file is the
length that the file has then. Let the body come through without a failure, from whatever the tree
has become: it has as many bytes as the reply announces, unless it is the whole of a file that has
changed its length, or the buffer is one that no memory can hold. -/
theorem length_stream_iff (hm : r.method = get) {reply : Reply}
    (h : (site.handle t b arrival r n).1.result = .ok reply) {k : Nat} (hk : reply.Announces k) :
    (∀ name size, reply.body = .file name [.all] size → t.fileLength? name = some k) ∧
    ∀ t', (reply.body.stream t').failure = none →
      ((reply.body.stream t').bytes.length = k ↔ ¬ reply.body.Miscounted t' k) := by
  suffices hc : reply.Counts t from hc k hk
  cases grounds_of_handle (by rw [hm]; exact methodReply_get) h with
  | nowhere => exact Reply.counts_message _ _
  | failed f => exact Reply.counts_ofFailure f
  | fixed _ hfix => exact counts_of_fixes hfix
  | verdict _ _ _ _ hv => exact Precondition.Verdict.counts_of_reply? hv
  | listing _ _ hl => exact counts_of_listingReply (Request.headOnly_of_get hm _ _) hl
  | file _ ha hd =>
    obtain ⟨p, written, hh, hdir, -, rfl⟩ := exists_sent_of_delivery (leads_of_aim _ ha) hd
    obtain ⟨place, data, modified, hstat, -, hres⟩ := hh.exists_file hdir
    rw [Request.headOnly_of_get hm]
    refine Delivery.counts_replyFor _ _ _ _ (n := data.length) ?_ ?_ (free_sent (by decide) _ _ _)
      (getAll_sent_of_ne (by decide) _ _ _) _
    · unfold Tree.fileLength?
      rw [hstat]
    · rw [hres]
      rfl

end Site

namespace Sample

def shortenedTree : Tree :=
  ⟨[(["srv".toList], ⟨.directory, ⟨0⟩⟩),
    (["srv".toList, "a.txt".toList], ⟨.file (Text.utf8 "he".toList), ⟨0⟩⟩)]⟩

lemma exists_announced :
    ∃ plain, (site.handle (tree ⟨0⟩) [] arrival (request []) site.negotiator).1.result =
        .ok plain ∧
      plain.Announces 5 ∧ plain.body = .file "/srv/a.txt".toList [.all] 32768 := by
  obtain ⟨plain, hp, hplain⟩ := exists_of_toOption
    (x := (site.handle (tree ⟨0⟩) [] arrival (request []) site.negotiator).1.result)
    (f := fun x => (decide (x.Announces 5), x.body))
    (b := (true, .file "/srv/a.txt".toList [.all] 32768)) (by decide +kernel)
  obtain ⟨ha, hb⟩ := Prod.mk.inj hplain
  exact ⟨plain, hp, of_decide_eq_true ha, hb⟩

end Sample

namespace Site

/-- The file that is looked up has five bytes, and of a file that has been cut down since not as
many come through. -/
theorem length_stream_iff_sample :
    ∃ reply, (Sample.site.handle (Sample.tree ⟨0⟩) [] Sample.arrival (Sample.request [])
        Sample.site.negotiator).1.result = .ok reply ∧ reply.Announces 5 ∧
      (Sample.tree ⟨0⟩).fileLength? "/srv/a.txt".toList = some 5 ∧
      (reply.body.stream Sample.shortenedTree).failure = none ∧
      (reply.body.stream Sample.shortenedTree).bytes.length ≠ 5 := by
  obtain ⟨reply, h, ha, hb⟩ := Sample.exists_announced
  obtain ⟨hlen, hcount⟩ := length_stream_iff Sample.site (Sample.tree ⟨0⟩) [] Sample.arrival
    Sample.site.negotiator (r := Sample.request []) rfl h ha
  have hf : (reply.body.stream Sample.shortenedTree).failure = none := by
    rw [hb]
    decide +kernel
  refine ⟨reply, h, ha, hlen _ _ hb, hf, fun he => (hcount _ hf).1 he ?_⟩
  rw [hb]
  exact .changed (by decide) (by decide +kernel)

/-- **A cut that nobody notices**: of a file that is cut down after its length has been announced,
the rest is left out, and the reply ends as if it were whole. -/
theorem cut_unnoticed :
    ∃ reply, (Sample.site.handle (Sample.tree ⟨0⟩) [] Sample.arrival (Sample.request [])
        Sample.site.negotiator).1.result = .ok reply ∧ reply.Announces 5 ∧
      (reply.body.stream Sample.shortenedTree).failure = none ∧
      (reply.body.stream Sample.shortenedTree).bytes.length = 2 := by
  obtain ⟨reply, h, ha, hb⟩ := Sample.exists_announced
  refine ⟨reply, h, ha, ?_, ?_⟩
  · rw [hb]
    decide +kernel
  · rw [hb]
    decide +kernel

end Site

end Docroot

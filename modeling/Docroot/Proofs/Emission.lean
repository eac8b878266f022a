import Mathlib.Tactic.Common
import Docroot.Delivery

/-!
What a finished draft holds in one field, and the fields that a representation is described by. An
override acts on its own field only, so the values of a field are those that were put there, seen
through the overrides of that field in their order.
-/

namespace Docroot

/-- The values that a field has after an override of it has acted. -/
def Override.act (o : Override) (values : List Bytes) : List Bytes :=
  if o.forced || !values.isEmpty then o.value.toList else values

lemma Headers.get?_eq_head? (h : Headers) (name : Text) : h.get? name = (h.getAll name).head? := by
  rw [get?, getAll, List.head?_map, List.head?_filter]

namespace Draft

def setText (name : Text) (value : Option Text) (d : Draft) : Draft :=
  match value.bind Headers.value? with
  | some v => d.put name v
  | none => d

lemma getAll_applyOverride (h : Headers) (o : Override) (name : Text) :
    (applyOverride h o).getAll name =
      if o.name = name then o.act (h.getAll name) else h.getAll name := by
  unfold applyOverride Override.act
  rw [Headers.contains_eq_not_isEmpty]
  by_cases hn : o.name = name
  · subst hn
    rcases hv : o.value with _ | v
    · split <;> simp [Headers.getAll_remove]
    · split <;> simp [Headers.getAll_put]
  · rcases hv : o.value with _ | v
    · split <;> simp [Headers.getAll_remove, hn]
    · split <;> simp [Headers.getAll_put, hn]

lemma getAll_foldl_applyOverride (os : List Override) (h : Headers) (name : Text) :
    (os.foldl applyOverride h : Headers).getAll name =
      (os.filter fun o => o.name == name).foldl (fun values o => o.act values)
        (h.getAll name) := by
  induction os generalizing h with
  | nil => rfl
  | cons o r ih =>
    rw [List.foldl_cons, ih, getAll_applyOverride]
    by_cases hn : o.name = name <;> simp [hn]

/-- **Emission**: a field of the finished reply is what was put there, seen through its own
overrides. -/
theorem getAll_finish (d : Draft) (name : Text) :
    d.finish.getAll name =
      (d.overrides.filter fun o => o.name == name).foldl (fun values o => o.act values)
        (d.headers.getAll name) :=
  getAll_foldl_applyOverride d.overrides d.headers name

def Free (d : Draft) (name : Text) : Prop := ∀ o ∈ d.overrides, o.name ≠ name

lemma Free.filter_eq_nil {d : Draft} {name : Text} (h : d.Free name) :
    (d.overrides.filter fun o => o.name == name) = [] := by
  simpa [Free, List.filter_eq_nil_iff] using h

lemma getAll_finish_of_free {d : Draft} {name : Text} (h : d.Free name) :
    d.finish.getAll name = d.headers.getAll name := by
  rw [getAll_finish, h.filter_eq_nil, List.foldl_nil]

/-- With one override of a field at most, what the field will hold first is what it holds first in
the finished reply. -/
lemma effective_eq_head? {d : Draft} {name : Text}
    (h : (d.overrides.filter fun o => o.name == name).length ≤ 1) :
    d.effective name = (d.finish.getAll name).head? := by
  rw [effective, getAll_finish, ← List.head?_filter, List.filter_reverse, Headers.get?_eq_head?]
  generalize (d.overrides.filter fun o => o.name == name) = os at h ⊢
  rcases os with _ | ⟨o, _ | ⟨o', os⟩⟩
  · rfl
  · simp only [List.reverse_singleton, List.head?_cons, List.foldl_cons, List.foldl_nil,
      Override.act, Headers.contains_eq_not_isEmpty]
    split
    · cases o.value <;> rfl
    · rfl
  · simp at h

@[simp] lemma overrides_setText (name : Text) (value : Option Text) (d : Draft) :
    (d.setText name value).overrides = d.overrides := by
  unfold setText
  split <;> rfl

@[simp] lemma status_setText (name : Text) (value : Option Text) (d : Draft) :
    (d.setText name value).status = d.status := by
  unfold setText
  split <;> rfl

lemma getAll_setText_of_ne {name m : Text} (hm : name ≠ m) (value : Option Text) (d : Draft) :
    (d.setText name value).headers.getAll m = d.headers.getAll m := by
  unfold setText
  split
  · rw [put, Headers.getAll_put, if_neg hm]
  · rfl

lemma getAll_finish_setText_of_ne {name m : Text} (hm : name ≠ m) (value : Option Text)
    (d : Draft) : (d.setText name value).finish.getAll m = d.finish.getAll m := by
  rw [getAll_finish, overrides_setText, getAll_setText_of_ne hm, getAll_finish]

lemma getAll_setText (name : Text) (value : Option Text) (d : Draft) :
    (d.setText name value).headers.getAll name =
      match value.bind Headers.value? with
      | some v => [v]
      | none => d.headers.getAll name := by
  unfold setText
  split
  · rw [put, Headers.getAll_put, if_pos rfl]
  · rfl

lemma getAll_setText_of_value {name value : Text} {v : Bytes} (hv : Headers.value? value = some v)
    (d : Draft) : (d.setText name (some value)).headers.getAll name = [v] := by
  rw [getAll_setText, Option.bind_some, hv]

lemma result_putText {ε : Type} (name value : Text) (d : Draft) :
    (d.putText name value : Logged ε Draft).result = .ok (d.setText name (some value)) := by
  unfold putText setText
  cases hv : Headers.value? value <;> simp [hv]

end Draft

namespace Representation

open Draft

lemma result_putText? (name : Text) (value : Option Text) (d : Draft) :
    (putText? name value d).result = .ok (d.setText name value) := by
  cases value with
  | none => rfl
  | some v => exact Draft.result_putText name v d

/-- The draft with the fields of a representation whose written date is `modified`. -/
def described (resource : Resource) (modified : Option Text) (length : SentLength)
    (options : Options) (d : Draft) : Draft :=
  let d := d.setText HeaderName.lastModified modified
  let d := putLength (length.of resource.length) d
  let d := d.setText HeaderName.contentType resource.contentType
  let d := d.setText HeaderName.contentEncoding resource.contentEncoding
  let d := d.setText HeaderName.etag (if options.tags then resource.tag else none)
  let d := putDefault HeaderName.acceptRanges
    (if options.ranges then some (Text.utf8 "bytes".toList) else none) d
  putDefault HeaderName.cacheControl options.cacheControl d

theorem result_describe (resource : Resource) (length : SentLength) (options : Options)
    (d : Draft) :
    (describe resource length options d).result =
      resource.lastModified.map fun modified => described resource modified length options d := by
  unfold describe
  rw [Logged.result_bind, Logged.result_ofExcept]
  cases resource.lastModified with
  | error e => rfl
  | ok modified =>
    show Logged.result _ = _
    rw [Logged.result_bind_ok (result_putText? _ _ _),
      Logged.result_bind_ok (result_putText? _ _ _),
      Logged.result_bind_ok (result_putText? _ _ _), Logged.result_bind_ok (result_putText? _ _ _)]
    rfl

@[simp] lemma overrides_putLength (length : Option Nat) (d : Draft) :
    (putLength length d).overrides = d.overrides := by
  cases length <;> rfl

@[simp] lemma status_putLength (length : Option Nat) (d : Draft) :
    (putLength length d).status = d.status := by
  cases length <;> rfl

@[simp] lemma overrides_putDefault (name : Text) (value : Option Bytes) (d : Draft) :
    (putDefault name value d).overrides = d.overrides := by
  unfold putDefault
  split
  · split <;> rfl
  · rfl

@[simp] lemma status_putDefault (name : Text) (value : Option Bytes) (d : Draft) :
    (putDefault name value d).status = d.status := by
  unfold putDefault
  split
  · split <;> rfl
  · rfl

lemma getAll_putLength_of_ne {m : Text} (hm : HeaderName.contentLength ≠ m) (length : Option Nat)
    (d : Draft) : (putLength length d).headers.getAll m = d.headers.getAll m := by
  cases length with
  | none => rfl
  | some n => rw [putLength, Draft.put, Headers.getAll_put, if_neg hm]

lemma getAll_putDefault_of_ne {name m : Text} (hm : name ≠ m) (value : Option Bytes) (d : Draft) :
    (putDefault name value d).headers.getAll m = d.headers.getAll m := by
  unfold putDefault
  split
  · split
    · rfl
    · rw [Draft.put, Headers.getAll_put, if_neg hm]
  · rfl

variable (resource : Resource) (modified : Option Text) (length : SentLength) (options : Options)
  (d : Draft)

@[simp] lemma overrides_described :
    (described resource modified length options d).overrides = d.overrides := by
  simp [described]

@[simp] lemma status_described :
    (described resource modified length options d).status = d.status := by
  simp [described]

/-- The fields that describe a representation. -/
def fieldNames : List Text :=
  [HeaderName.lastModified, HeaderName.contentLength, HeaderName.contentType,
    HeaderName.contentEncoding, HeaderName.etag, HeaderName.acceptRanges, HeaderName.cacheControl]

lemma getAll_described_of_not_mem {m : Text} (hm : m ∉ fieldNames) :
    (described resource modified length options d).headers.getAll m = d.headers.getAll m := by
  simp only [fieldNames, List.mem_cons, List.not_mem_nil, or_false, not_or] at hm
  obtain ⟨h1, h2, h3, h4, h5, h6, h7⟩ := hm
  rw [described, getAll_putDefault_of_ne (Ne.symm h7), getAll_putDefault_of_ne (Ne.symm h6),
    getAll_setText_of_ne (Ne.symm h5), getAll_setText_of_ne (Ne.symm h4),
    getAll_setText_of_ne (Ne.symm h3), getAll_putLength_of_ne (Ne.symm h2),
    getAll_setText_of_ne (Ne.symm h1)]

lemma getAll_described_contentLength :
    (described resource modified length options d).headers.getAll HeaderName.contentLength =
      match length.of resource.length with
      | some n => [Reply.numeral n]
      | none => d.headers.getAll HeaderName.contentLength := by
  rw [described, getAll_putDefault_of_ne (by decide), getAll_putDefault_of_ne (by decide),
    getAll_setText_of_ne (by decide), getAll_setText_of_ne (by decide),
    getAll_setText_of_ne (by decide)]
  cases length.of resource.length with
  | none => exact getAll_setText_of_ne (by decide) _ _
  | some n => rw [putLength, Draft.put, Headers.getAll_put, if_pos rfl]

lemma getAll_described_lastModified :
    (described resource modified length options d).headers.getAll HeaderName.lastModified =
      match modified.bind Headers.value? with
      | some v => [v]
      | none => d.headers.getAll HeaderName.lastModified := by
  rw [described, getAll_putDefault_of_ne (by decide), getAll_putDefault_of_ne (by decide),
    getAll_setText_of_ne (by decide), getAll_setText_of_ne (by decide),
    getAll_setText_of_ne (by decide), getAll_putLength_of_ne (by decide), getAll_setText]

lemma getAll_described_contentType :
    (described resource modified length options d).headers.getAll HeaderName.contentType =
      match resource.contentType.bind Headers.value? with
      | some v => [v]
      | none => d.headers.getAll HeaderName.contentType := by
  rw [described, getAll_putDefault_of_ne (by decide), getAll_putDefault_of_ne (by decide),
    getAll_setText_of_ne (by decide), getAll_setText_of_ne (by decide), getAll_setText,
    getAll_putLength_of_ne (by decide), getAll_setText_of_ne (by decide)]

lemma getAll_described_contentEncoding :
    (described resource modified length options d).headers.getAll HeaderName.contentEncoding =
      match resource.contentEncoding.bind Headers.value? with
      | some v => [v]
      | none => d.headers.getAll HeaderName.contentEncoding := by
  rw [described, getAll_putDefault_of_ne (by decide), getAll_putDefault_of_ne (by decide),
    getAll_setText_of_ne (by decide), getAll_setText, getAll_setText_of_ne (by decide),
    getAll_putLength_of_ne (by decide), getAll_setText_of_ne (by decide)]

/-- The tag of the resource as the value of a field, or what the field holds without it. -/
def tagValues (resource : Resource) (options : Options) (d : Draft) : List Bytes :=
  match (if options.tags then resource.tag else none).bind Headers.value? with
  | some v => [v]
  | none => d.headers.getAll HeaderName.etag

lemma getAll_described_etag :
    (described resource modified length options d).headers.getAll HeaderName.etag =
      tagValues resource options d := by
  unfold tagValues
  rw [described, getAll_putDefault_of_ne (by decide), getAll_putDefault_of_ne (by decide),
    getAll_setText, getAll_setText_of_ne (by decide), getAll_setText_of_ne (by decide),
    getAll_putLength_of_ne (by decide), getAll_setText_of_ne (by decide)]

end Representation

namespace Delivery

open Docroot.Representation

variable (options : Options) (boundary : Text) (headOnly : Bool) (path : Text) (resource : Resource)

/-- The body that is copied from a file, unless only the head of the reply is asked for. -/
def copied (name : Text) (segments : List Segment) : Body :=
  if headOnly then .empty else .file name segments options.bufferSize

def unsatisfied (modified : Option Text) (d : Draft) : Draft :=
  let d := described resource modified .none options d.clearOverrides
  let d := (d.remove HeaderName.contentEncoding).setStatus 416
  let d := d.put HeaderName.contentType Reply.plainText
  let d := d.put HeaderName.contentLength (Reply.numeral notSatisfiableText.length)
  d.setText HeaderName.contentRange (some (ByteRange.unsatisfiedRange resource.length))

def singlePart (modified : Option Text) (r : ByteRange) (d : Draft) : Draft :=
  (described resource modified (.explicit r.length) options (d.setStatus 206)).setText
    HeaderName.contentRange (some (r.contentRange (resource.length.getD 0)))

def severalParts (modified : Option Text) (d : Draft) : Draft :=
  ((described resource modified .none options (d.setStatus 206)).dropOverride
    HeaderName.contentType).setText HeaderName.contentType (some (multipartType boundary))

/-- The type that several parts take over. -/
def partType (modified : Option Text) (d : Draft) : Option Text :=
  ((described resource modified .none options (d.setStatus 206)).effective
    HeaderName.contentType).bind Bytes.visible?

def draftFor (modified : Option Text) (d : Draft) : ByteRange.Selection → Draft
  | .whole => described resource modified .known options d
  | .unsatisfiable => unsatisfied options resource modified d
  | .parts [r] => singlePart options resource modified r d
  | .parts _ => severalParts options boundary resource modified d

def bodyFor (name : Text) (modified : Option Text) (d : Draft) : ByteRange.Selection → Body
  | .whole => copied options headOnly name [.all]
  | .unsatisfiable => if headOnly then .empty else .full (Text.utf8 notSatisfiableText)
  | .parts [r] => copied options headOnly name [.range r]
  | .parts rs =>
    copied options headOnly name (parts boundary (partType options resource modified d)
      (resource.length.getD 0) true rs)

/-- The reply that delivers what is selected of the file `name`. -/
def replyFor (name : Text) (modified : Option Text) (d : Draft) (selected : ByteRange.Selection) :
    Reply where
  status := (draftFor options boundary resource modified d selected).status
  headers := (draftFor options boundary resource modified d selected).finish
  body := bodyFor options boundary headOnly resource name modified d selected

section

variable (modified : Option Text) (d : Draft)

@[simp] lemma status_unsatisfied : (unsatisfied options resource modified d).status = 416 := by
  simp [unsatisfied, Draft.put, Draft.setStatus]

@[simp] lemma status_singlePart (r : ByteRange) :
    (singlePart options resource modified r d).status = 206 := by
  simp [singlePart, Draft.setStatus]

@[simp] lemma status_severalParts :
    (severalParts options boundary resource modified d).status = 206 := by
  simp [severalParts, Draft.dropOverride, Draft.setStatus]

@[simp] lemma overrides_unsatisfied : (unsatisfied options resource modified d).overrides = [] := by
  simp [unsatisfied, Draft.put, Draft.setStatus, Draft.remove, Draft.clearOverrides]

@[simp] lemma overrides_singlePart (r : ByteRange) :
    (singlePart options resource modified r d).overrides = d.overrides := by
  simp [singlePart, Draft.setStatus]

/-- Several parts have a type of their own, whatever was registered for it. -/
@[simp] lemma overrides_severalParts :
    (severalParts options boundary resource modified d).overrides =
      d.overrides.filter fun o => !(o.name == HeaderName.contentType) := by
  simp [severalParts, Draft.dropOverride, Draft.setStatus]

lemma status_draftFor (selected : ByteRange.Selection) :
    (draftFor options boundary resource modified d selected).status =
      match selected with
      | .whole => d.status
      | .unsatisfiable => 416
      | .parts _ => 206 := by
  match selected with
  | .whole => exact status_described _ _ _ _ _
  | .unsatisfiable => exact status_unsatisfied _ _ _ _
  | .parts [r] => exact status_singlePart _ _ _ _ _
  | .parts [] => exact status_severalParts _ _ _ _ _
  | .parts (_ :: _ :: _) => exact status_severalParts _ _ _ _ _

lemma ne_unsatisfiable_of_status {selected : ByteRange.Selection}
    (h : (draftFor options boundary resource modified d selected).status = 200 ∨
      (draftFor options boundary resource modified d selected).status = 206) :
    selected ≠ .unsatisfiable := by
  rintro rfl
  simp [status_draftFor] at h

lemma eq_whole_of_status {selected : ByteRange.Selection}
    (h : (draftFor options boundary resource modified d selected).status = 200) :
    selected = .whole := by
  rw [status_draftFor] at h
  cases selected with
  | whole => rfl
  | unsatisfiable => simp at h
  | parts rs => simp at h

lemma mem_overrides_of_draftFor {selected : ByteRange.Selection} {o : Override}
    (ho : o ∈ (draftFor options boundary resource modified d selected).overrides) :
    o ∈ d.overrides := by
  have hs :
      o ∈ (severalParts options boundary resource modified d).overrides → o ∈ d.overrides := by
    rw [overrides_severalParts]
    exact fun h => (List.mem_filter.1 h).1
  match selected with
  | .whole => simpa [draftFor] using ho
  | .unsatisfiable => simp [draftFor] at ho
  | .parts [r] => simpa [draftFor] using ho
  | .parts [] => exact hs ho
  | .parts (_ :: _ :: _) => exact hs ho

variable {d}

lemma free_draftFor {m : Text} (hf : d.Free m) (selected : ByteRange.Selection) :
    (draftFor options boundary resource modified d selected).Free m :=
  fun o ho => hf o (mem_overrides_of_draftFor options boundary resource modified d ho)

/-- A field that neither describes the representation nor names a part is kept in every reply. -/
lemma getAll_finish_draftFor {m : Text} (hm : m ∉ fieldNames) (hr : m ≠ HeaderName.contentRange)
    (hf : d.Free m) (selected : ByteRange.Selection) :
    (draftFor options boundary resource modified d selected).finish.getAll m =
      d.headers.getAll m := by
  have h := hm
  simp only [fieldNames, List.mem_cons, List.not_mem_nil, or_false, not_or] at h
  obtain ⟨-, hl, ht, he, -⟩ := h
  rw [Draft.getAll_finish_of_free (free_draftFor options boundary resource modified hf selected)]
  have hs : (severalParts options boundary resource modified d).headers.getAll m =
      d.headers.getAll m := by
    rw [severalParts, Draft.getAll_setText_of_ne (Ne.symm ht)]
    exact getAll_described_of_not_mem _ _ _ _ _ hm
  match selected with
  | .whole => exact getAll_described_of_not_mem _ _ _ _ _ hm
  | .unsatisfiable =>
    rw [draftFor, unsatisfied, Draft.getAll_setText_of_ne (Ne.symm hr)]
    simp only [Draft.put, Draft.setStatus, Draft.remove, Headers.getAll_put, Headers.getAll_remove,
      if_neg (Ne.symm hl), if_neg (Ne.symm ht), if_neg (Ne.symm he)]
    exact getAll_described_of_not_mem _ _ _ _ _ hm
  | .parts [r] =>
    rw [draftFor, singlePart, Draft.getAll_setText_of_ne (Ne.symm hr)]
    exact getAll_described_of_not_mem _ _ _ _ _ hm
  | .parts [] => exact hs
  | .parts (_ :: _ :: _) => exact hs

/-- A reply that selects something holds what describes the representation, seen through the
overrides. -/
lemma getAll_finish_draftFor_of_described {m : Text} (ht : m ≠ HeaderName.contentType)
    (hr : m ≠ HeaderName.contentRange) {values : List Bytes}
    (hv : ∀ length status,
      (described resource modified length options (d.setStatus status)).headers.getAll m = values)
    {selected : ByteRange.Selection} (h : selected ≠ .unsatisfiable) :
    (draftFor options boundary resource modified d selected).finish.getAll m =
      (d.overrides.filter fun o => o.name == m).foldl (fun values o => o.act values) values := by
  have hs : (severalParts options boundary resource modified d).finish.getAll m =
      (d.overrides.filter fun o => o.name == m).foldl (fun values o => o.act values) values := by
    -- the override that is dropped is about another field
    have hf : (d.overrides.filter fun o => !(o.name == HeaderName.contentType)).filter
        (fun o => o.name == m) = d.overrides.filter fun o => o.name == m := by
      rw [List.filter_filter]
      refine List.filter_congr fun o _ => ?_
      by_cases ho : o.name = m
      · simp [ho, ht]
      · simp [ho]
    rw [Draft.getAll_finish, overrides_severalParts, hf, severalParts,
      Draft.getAll_setText_of_ne (Ne.symm ht), Draft.dropOverride, hv]
  match selected, h with
  | .whole, _ => rw [draftFor, Draft.getAll_finish, overrides_described, ← hv .known d.status]; rfl
  | .parts [r], _ =>
    rw [draftFor, Draft.getAll_finish, overrides_singlePart, singlePart,
      Draft.getAll_setText_of_ne (Ne.symm hr), hv]
  | .parts [], _ => exact hs
  | .parts (_ :: _ :: _), _ => exact hs

lemma exists_copied_of_bodyFor (name : Text) (d : Draft) {selected : ByteRange.Selection}
    (h : selected ≠ .unsatisfiable) :
    ∃ segments, bodyFor options boundary headOnly resource name modified d selected =
      copied options headOnly name segments :=
  match selected, h with
  | .whole, _ => ⟨_, rfl⟩
  | .parts [_], _ => ⟨_, rfl⟩
  | .parts [], _ => ⟨_, rfl⟩
  | .parts (_ :: _ :: _), _ => ⟨_, rfl⟩

/-- The body is empty, is copied from the file, or tells that no part was found. -/
lemma bodyFor_cases (name : Text) (d : Draft) (selected : ByteRange.Selection) :
    bodyFor options boundary headOnly resource name modified d selected = .empty ∨
      (∃ segments, bodyFor options boundary headOnly resource name modified d selected =
        .file name segments options.bufferSize) ∨ selected = .unsatisfiable := by
  by_cases hu : selected = .unsatisfiable
  · exact Or.inr (Or.inr hu)
  · obtain ⟨segments, hs⟩ :=
      exists_copied_of_bodyFor options boundary headOnly resource modified name d hu
    rw [hs]
    unfold copied
    split
    · exact Or.inl rfl
    · exact Or.inr (Or.inl ⟨_, rfl⟩)

lemma eq_of_bodyFor {name name' : Text} {d : Draft} {selected : ByteRange.Selection}
    {segments : List Segment} {size : Nat}
    (h : bodyFor options boundary headOnly resource name modified d selected =
      .file name' segments size) : name' = name ∧ selected ≠ .unsatisfiable := by
  have hsome : selected ≠ .unsatisfiable := by
    rintro rfl
    cases headOnly <;> cases h
  obtain ⟨ss, hs⟩ :=
    exists_copied_of_bodyFor options boundary headOnly resource modified name d hsome
  rw [hs] at h
  unfold copied at h
  split at h <;> cases h
  exact ⟨rfl, hsome⟩

end

variable {resource}

lemma result_send {name : Text} (hs : resource.source = .file name) (x : Draft × List Segment) :
    (send options headOnly path resource x).result =
      .ok ⟨x.1.status, x.1.finish, copied options headOnly name x.2⟩ := by
  have hb : bodyOf options headOnly resource x.2 = .ok (copied options headOnly name x.2) := by
    unfold bodyOf copied
    rw [hs]
    split <;> rfl
  rw [send, Logged.result_bind_ok (Logged.result_tell _), hb, Logged.result_bind_ok rfl]
  rfl

lemma result_multipart (rs : List ByteRange) (total : Nat) (d : Draft) :
    (multipart boundary rs total d).result =
      .ok ((d.dropOverride HeaderName.contentType).setText HeaderName.contentType
          (some (multipartType boundary)),
        parts boundary ((d.effective HeaderName.contentType).bind Bytes.visible?) total true
          rs) := by
  rw [multipart, Logged.result_bind_ok (Draft.result_putText _ _ _)]
  rfl

lemma result_partial206 {modified : Option Text} (hm : resource.lastModified = .ok modified)
    (rs : List ByteRange) (d : Draft) :
    (partial206 options boundary resource rs d).result =
      .ok (match rs with
        | [r] => (singlePart options resource modified r d, [.range r])
        | rs => (severalParts options boundary resource modified d,
            parts boundary (partType options resource modified d) (resource.length.getD 0) true
              rs)) := by
  have hd : ∀ length d, (describe resource length options d).result =
      .ok (described resource modified length options d) := by
    intro length d
    rw [result_describe, hm]
    rfl
  rcases rs with _ | ⟨r, _ | ⟨r', rs⟩⟩
  · exact (Logged.result_bind_ok (hd _ _)).trans (result_multipart _ _ _ _)
  · refine (Logged.result_bind_ok (hd _ _)).trans ?_
    exact Logged.result_bind_ok (Draft.result_putText _ _ _)
  · exact (Logged.result_bind_ok (hd _ _)).trans (result_multipart _ _ _ _)

lemma result_partial206_error {e : Abort} (hm : resource.lastModified = .error e)
    (rs : List ByteRange) (d : Draft) :
    (partial206 options boundary resource rs d).result = .error e := by
  have hd : ∀ length d, (describe resource length options d).result = .error e := by
    intro length d
    rw [result_describe, hm]
    rfl
  unfold partial206
  split
  · exact Logged.result_bind_error (hd _ _)
  · exact Logged.result_bind_error (hd _ _)

/-- **Delivery** of a file: a reply for what is selected, or none for want of a date. -/
theorem result_deliver {name : Text} (hs : resource.source = .file name) (rangeLines : List Text)
    (d : Draft) :
    (deliver options boundary headOnly path rangeLines resource d).result =
      resource.lastModified.map fun modified =>
        replyFor options boundary headOnly resource name modified d
          (selection options rangeLines resource) := by
  have hd := fun length d => result_describe resource length options d
  unfold deliver
  cases hm : resource.lastModified with
  | error e =>
    rw [hm] at hd
    cases selection options rangeLines resource with
    | whole => exact Logged.result_bind_error (hd _ _)
    | unsatisfiable => exact Logged.result_bind_error (hd _ _)
    | parts rs => exact Logged.result_bind_error (result_partial206_error options boundary hm rs d)
  | ok modified =>
    rw [hm] at hd
    cases selection options rangeLines resource with
    | whole =>
      refine (Logged.result_bind_ok (hd _ _)).trans ?_
      rw [result_send options headOnly path hs]
      rfl
    | unsatisfiable =>
      refine (Logged.result_bind_ok (hd _ _)).trans ?_
      refine (Logged.result_bind_ok (Draft.result_putText _ _ _)).trans ?_
      have h416 := status_draftFor options boundary resource modified d .unsatisfiable
      simp only [replyFor, h416, Except.map]
      rfl
    | parts rs =>
      refine (Logged.result_bind_ok (result_partial206 options boundary hm rs d)).trans ?_
      rw [result_send options headOnly path hs]
      refine congrArg Except.ok ?_
      rcases rs with _ | ⟨r, _ | ⟨r', rs⟩⟩ <;> rfl

end Delivery

end Docroot

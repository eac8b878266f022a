import Mathlib.Tactic.Common
import Docroot.Proofs.Answer
import Docroot.Proofs.Cutting
import Docroot.Proofs.Partial
import Docroot.Proofs.Streaming

/-!
Reading a body in several parts. A reader that knows the boundary, and nothing of the ranges, takes
the body apart again: one part for each range, in order, and nothing behind the closing delimiter.
The bytes of a part may hold line ends, empty lines and dashes; only the boundary must not occur in
them.
-/

namespace Docroot

open Text

lemma Text.Visible.not_mem {s : Text} (h : s.Visible) : 13 ∉ utf8 s := by
  intro hm
  have hoctet := h.octet_of_mem hm
  revert hoctet
  decide

namespace Multipart

/-! ### The reader -/

def crlf : Bytes := [13, 10]

def dashes : Bytes := [45, 45]

/-- The colon behind the name of a field, and the blank before its value. -/
def colon : Bytes := [58, 32]

def delimiter (boundary : Text) : Bytes := crlf ++ dashes ++ utf8 boundary

structure Part where
  fields : List (Bytes × Bytes)
  content : Bytes
deriving DecidableEq

/-- Reads the field lines, each with a line end before it. -/
def readFields? (head : Bytes) : Option (List (Bytes × Bytes)) :=
  match Bytes.pieces crlf head with
  | [] :: lines => lines.mapM fun line => line.dropInfix? colon
  | _ => none

/-- Reads what stands behind a delimiter: field lines up to the first empty line, then the
content. -/
def readPart? (s : Bytes) : Option Part :=
  (s.dropInfix? (crlf ++ crlf)).bind fun x =>
    (readFields? x.1).map fun fields => ⟨fields, x.2⟩

/-- Reads the pieces between the delimiters up to the closing one, which goes on with dashes; what
stands behind its line is left over. -/
def readPieces? (sep : Bytes) : List Bytes → Option (List Part × Bytes)
  | [] => none
  | p :: ps =>
    match p.dropPrefix? (dashes ++ crlf) with
    | some rest => some ([], rest ++ ps.flatMap (sep ++ ·))
    | none => (readPart? p).bind fun part =>
        (readPieces? sep ps).map fun x => (part :: x.1, x.2)

def read? (boundary : Text) (body : Bytes) : Option (List Part × Bytes) :=
  (body.dropPrefix? (dashes ++ utf8 boundary)).bind fun rest =>
    readPieces? (delimiter boundary) (Bytes.pieces (delimiter boundary) rest)

/-! ### What is written -/

def writeField (f : Bytes × Bytes) : Bytes := f.1 ++ colon ++ f.2

def Part.head (p : Part) : Bytes := p.fields.flatMap fun f => crlf ++ writeField f

def Part.write (p : Part) : Bytes := p.head ++ (crlf ++ crlf) ++ p.content

def Part.ofRange (type : Option Bytes) (total : Nat) (data : Bytes) (r : ByteRange) : Part where
  fields := (type.toList.map fun v => (utf8 "Content-Type".toList, v)) ++
    [(utf8 "Content-Range".toList, utf8 (r.contentRange total))]
  content := r.slice data

/-- A field on one line, whose name ends at the first colon and does not begin with a dash. -/
structure FieldOk (f : Bytes × Bytes) : Prop where
  name : 13 ∉ f.1
  colon : 58 ∉ f.1
  dash : f.1.head? ≠ some 45
  value : 13 ∉ f.2

lemma delimiter_eq (boundary : Text) :
    delimiter boundary = 13 :: (10 :: 45 :: 45 :: utf8 boundary) := rfl

lemma utf8_lineEnd : utf8 Delivery.lineEnd = crlf := by decide

lemma utf8_dashes : utf8 "--".toList = dashes := by decide

namespace FieldOk

variable {f : Bytes × Bytes}

lemma not_mem (h : FieldOk f) : 13 ∉ writeField f := by
  simp [writeField, Multipart.colon, h.name, h.value]

lemma exists_head (h : FieldOk f) : ∃ a r, writeField f = a :: r ∧ a ≠ 13 ∧ a ≠ 45 := by
  have hcr := h.name
  have hdash := h.dash
  unfold writeField
  rw [Multipart.colon]
  cases hf : f.1 with
  | nil => exact ⟨58, _, rfl, by decide, by decide⟩
  | cons a r =>
    rw [hf] at hcr hdash
    refine ⟨a, _, rfl, fun ha => hcr ?_, fun ha => hdash ?_⟩
    · rw [ha]
      exact List.mem_cons_self
    · rw [ha]
      rfl

lemma read (h : FieldOk f) : (writeField f).dropInfix? Multipart.colon = some f := by
  have hclear : Bytes.Clear Multipart.colon f.1 := Bytes.clear_of_not_mem h.colon
  exact Bytes.dropInfix?_of_clear hclear f.2

end FieldOk

namespace Part

variable {p : Part}

lemma readFields?_head (h : ∀ f ∈ p.fields, FieldOk f) : readFields? p.head = some p.fields := by
  have hclear : ∀ q ∈ [] :: p.fields.map writeField, Bytes.Clear crlf q := by
    rw [crlf, List.forall_mem_cons, List.forall_mem_map]
    exact ⟨Bytes.clear_nil (by decide), fun f hf => Bytes.clear_of_not_mem (h f hf).not_mem⟩
  have hpieces : Bytes.pieces crlf p.head = [] :: p.fields.map writeField := by
    have hp := Bytes.pieces_flatMap hclear
    rwa [List.nil_append, List.flatMap_map] at hp
  have hread : (p.fields.map writeField).mapM (fun line => line.dropInfix? colon) =
      some p.fields := by
    generalize p.fields = fs at h ⊢
    induction fs with
    | nil => rfl
    | cons f fs ih =>
      rw [List.forall_mem_cons] at h
      rw [List.map_cons, List.mapM_cons, h.1.read, ih h.2]
      rfl
  rw [readFields?, hpieces]
  exact hread

/-- A separator that begins with a line end, and goes on with another line end or a dash, does not
begin in the field lines. -/
lemma clear_head_append {k : UInt8} (hk : k = 13 ∨ k = 45) {w s : Bytes}
    (h : ∀ f ∈ p.fields, FieldOk f) (hs : Bytes.Clear (13 :: 10 :: k :: w) s) :
    Bytes.Clear (13 :: 10 :: k :: w) (p.head ++ s) := by
  unfold head
  rw [crlf]
  generalize p.fields = fs at h ⊢
  induction fs with
  | nil => exact hs
  | cons f fs ih =>
    rw [List.forall_mem_cons] at h
    obtain ⟨a, r, hline, hcr, hdash⟩ := h.1.exists_head
    have hak : k ≠ a := by
      rcases hk with rfl | rfl
      · exact Ne.symm hcr
      · exact Ne.symm hdash
    have hrest := Bytes.clear_append h.1.not_mem (ih h.2)
    rw [List.flatMap_cons, List.append_assoc, List.append_assoc]
    refine Bytes.clear_cons_iff.2 ⟨?_, Bytes.clear_cons_of_ne (by decide) hrest⟩
    rw [hline]
    simp [hak]

theorem readPart?_write (h : ∀ f ∈ p.fields, FieldOk f) : readPart? p.write = some p := by
  have hclear : Bytes.Clear (crlf ++ crlf) p.head := by
    have hnil : Bytes.Clear [13, 10, 13, 10] [] := Bytes.clear_nil (by decide)
    rw [crlf, ← List.append_nil p.head]
    exact clear_head_append (Or.inl rfl) h hnil
  unfold readPart? write
  rw [Bytes.dropInfix?_of_clear hclear, Option.bind_some, readFields?_head h]
  rfl

lemma exists_write (p : Part) : ∃ r, p.write = 13 :: r := by
  unfold write head
  rw [crlf]
  cases p.fields with
  | nil => exact ⟨_, rfl⟩
  | cons f fs => exact ⟨_, rfl⟩

/-- No delimiter begins in a part: behind a line end stands a field, a line end, or content that the
boundary does not occur in. -/
lemma clear_write {boundary : Text} (hb : boundary.Visible) (h : ∀ f ∈ p.fields, FieldOk f)
    (hc : ¬ utf8 boundary <:+: p.content) : Bytes.Clear (delimiter boundary) p.write := by
  have hcr : (13 : UInt8) ∉ 10 :: 45 :: 45 :: utf8 boundary := by
    have hmem := hb.not_mem
    simpa using hmem
  have hcontent :
      ¬ 13 :: 10 :: 45 :: 45 :: utf8 boundary <:+: [13, 10] ++ [13, 10] ++ p.content := by
    have hprefix : ¬ 45 :: 45 :: utf8 boundary <+: p.content := fun hp =>
      hc ((List.suffix_append [45, 45] _).isInfix.trans hp.isInfix)
    have hinfix : ¬ 13 :: 10 :: 45 :: 45 :: utf8 boundary <:+: p.content := fun hi =>
      hc ((List.suffix_append [13, 10, 45, 45] _).isInfix.trans hi)
    simp [List.infix_cons_iff, hprefix, hinfix]
  rw [delimiter_eq, write, List.append_assoc, crlf]
  exact clear_head_append (Or.inr rfl) h (Bytes.clear_of_not_infix hcr hcontent)

end Part

/-! ### Reading what was written -/

lemma readPieces?_write (sep : Bytes) {ps : List Part} (h : ∀ p ∈ ps, ∀ f ∈ p.fields, FieldOk f) :
    readPieces? sep (ps.map Part.write ++ [dashes ++ crlf]) = some (ps, []) := by
  induction ps with
  | nil =>
    have hmark : (dashes ++ crlf).dropPrefix? (dashes ++ crlf) = some [] := by decide
    simp [readPieces?, hmark]
  | cons p ps ih =>
    rw [List.forall_mem_cons] at h
    obtain ⟨r, hr⟩ := p.exists_write
    have hmark : p.write.dropPrefix? (dashes ++ crlf) = none := by
      rw [hr, dashes]
      rfl
    rw [List.map_cons, List.cons_append, readPieces?, hmark]
    simp only [Part.readPart?_write h.1, Option.bind_some, ih h.2, Option.map_some]

def write (boundary : Text) (p : Part) (ps : List Part) : Bytes :=
  dashes ++ utf8 boundary ++
    (p.write ++ (ps.map Part.write ++ [dashes ++ crlf]).flatMap (delimiter boundary ++ ·))

/-- **Reading undoes writing**, if the boundary occurs in no content. -/
theorem read?_write {boundary : Text} (hb : boundary.Visible) {p : Part} {ps : List Part}
    (h : ∀ q ∈ p :: ps, ∀ f ∈ q.fields, FieldOk f)
    (hc : ∀ q ∈ p :: ps, ¬ utf8 boundary <:+: q.content) :
    read? boundary (write boundary p ps) = some (p :: ps, []) := by
  have hmark : Bytes.Clear (delimiter boundary) (dashes ++ crlf) := by
    rw [delimiter_eq, dashes, crlf]
    refine Bytes.clear_append (l := [45, 45]) (by decide) ?_
    refine Bytes.clear_cons_iff.2 ⟨by simp, Bytes.clear_of_not_mem (by decide)⟩
  have hclear : ∀ q ∈ p.write :: (ps.map Part.write ++ [dashes ++ crlf]),
      Bytes.Clear (delimiter boundary) q := by
    have hwrite : ∀ q ∈ p :: ps, Bytes.Clear (delimiter boundary) q.write := fun q hq =>
      Part.clear_write hb (h q hq) (hc q hq)
    rw [List.forall_mem_cons] at hwrite
    rw [List.forall_mem_cons, List.forall_mem_append, List.forall_mem_map,
      List.forall_mem_singleton]
    exact ⟨hwrite.1, hwrite.2, hmark⟩
  have hdrop : (write boundary p ps).dropPrefix? (dashes ++ utf8 boundary) =
      some (p.write ++ (ps.map Part.write ++ [dashes ++ crlf]).flatMap (delimiter boundary ++ ·)) :=
    List.dropPrefix?_append_of_beq _ (beq_self_eq_true _)
  rw [read?, hdrop, Option.bind_some, Bytes.pieces_flatMap hclear]
  exact readPieces?_write (delimiter boundary) h

/-! ### The body of a reply -/

section

variable (boundary : Text) (type : Option Text) (total : Nat) (data : Bytes)

lemma utf8_partHead (r : ByteRange) :
    utf8 (Delivery.partHead boundary type total true r) ++ r.slice data =
      dashes ++ utf8 boundary ++ (Part.ofRange (type.map utf8) total data r).write := by
  have htype : utf8 "Content-Type: ".toList = utf8 "Content-Type".toList ++ colon := by decide
  have hrange : utf8 "Content-Range: ".toList = utf8 "Content-Range".toList ++ colon := by decide
  unfold Delivery.partHead Part.ofRange Part.write Part.head writeField
  cases type with
  | none =>
    simp only [utf8_append, utf8_lineEnd, utf8_dashes, if_true, hrange, Option.map_none,
      Option.toList_none, List.map_nil, List.nil_append, List.flatMap_cons, List.flatMap_nil,
      List.append_nil, List.append_assoc]
  | some t =>
    simp only [utf8_append, utf8_lineEnd, utf8_dashes, if_true, htype, hrange, Option.map_some,
      Option.toList_some, List.map_cons, List.map_nil, List.nil_append, List.singleton_append,
      List.flatMap_cons, List.flatMap_nil, List.append_nil, List.append_assoc]

lemma flatMap_parts_false (rs : List ByteRange) :
    (Delivery.parts boundary type total false rs).flatMap (Segment.content data) =
      ((rs.map (Part.ofRange (type.map utf8) total data)).map Part.write ++
        [dashes ++ crlf]).flatMap (delimiter boundary ++ ·) := by
  induction rs with
  | nil =>
    simp only [Delivery.parts, List.flatMap_cons, List.flatMap_nil, Segment.content,
      Delivery.closing, utf8_append, utf8_lineEnd, utf8_dashes, delimiter, List.map_nil,
      List.nil_append, List.append_nil, List.append_assoc]
  | cons r rs ih =>
    have hhead : utf8 (Delivery.partHead boundary type total false r) ++ r.slice data =
        delimiter boundary ++ (Part.ofRange (type.map utf8) total data r).write := by
      rw [partHead_false, utf8_append, List.append_assoc, utf8_partHead, delimiter]
      simp only [utf8_lineEnd, List.append_assoc]
    rw [Delivery.parts, List.flatMap_cons, List.flatMap_cons, ih, ← List.append_assoc]
    simp only [Segment.content, hhead, List.map_cons, List.cons_append, List.flatMap_cons]

lemma flatMap_parts (r : ByteRange) (rs : List ByteRange) :
    (Delivery.parts boundary type total true (r :: rs)).flatMap (Segment.content data) =
      write boundary (Part.ofRange (type.map utf8) total data r)
        (rs.map (Part.ofRange (type.map utf8) total data)) := by
  rw [Delivery.parts, List.flatMap_cons, List.flatMap_cons, flatMap_parts_false,
    ← List.append_assoc]
  simp only [Segment.content, utf8_partHead, write, List.append_assoc]

end

lemma fieldOk_of_visible {name value : Text} (hn : name.Visible) (hv : value.Visible)
    (hc : 58 ∉ utf8 name) (hd : (utf8 name).head? ≠ some 45) : FieldOk (utf8 name, utf8 value) :=
  ⟨hn.not_mem, hc, hd, hv.not_mem⟩

lemma fieldOk_ofRange {type : Option Text} (ht : ∀ t ∈ type, t.Visible) (total : Nat)
    (data : Bytes) (r : ByteRange) :
    ∀ f ∈ (Part.ofRange (type.map utf8) total data r).fields, FieldOk f := by
  intro f hf
  rcases List.mem_append.1 hf with hf | hf
  · simp only [Option.toList_map, List.map_map, List.mem_map, Option.mem_toList] at hf
    obtain ⟨t, hmem, rfl⟩ := hf
    exact fieldOk_of_visible (by decide) (ht t hmem) (by decide) (by decide)
  · obtain rfl := List.mem_singleton.1 hf
    exact fieldOk_of_visible (by decide) (r.visible_contentRange total) (by decide) (by decide)

lemma not_infix_slice {w data : Bytes} (h : ¬ w <:+: data) (r : ByteRange) :
    ¬ w <:+: r.slice data := by
  intro hi
  have hslice : r.slice data <:+: data :=
    (List.take_prefix _ _).isInfix.trans (List.drop_suffix _ _).isInfix
  exact h (hi.trans hslice)

theorem read?_parts {boundary : Text} (hb : boundary.Visible) {data : Bytes}
    (hd : ¬ utf8 boundary <:+: data) {type : Option Text} (ht : ∀ t ∈ type, t.Visible)
    (total : Nat) {rs : List ByteRange} (hn : rs ≠ []) :
    read? boundary
        ((Delivery.parts boundary type total true rs).flatMap (Segment.content data)) =
      some (rs.map (Part.ofRange (type.map utf8) total data), []) := by
  cases rs with
  | nil => exact absurd rfl hn
  | cons r rs =>
    have hfields : ∀ q ∈ (r :: rs).map (Part.ofRange (type.map utf8) total data),
        ∀ f ∈ q.fields, FieldOk f := by
      rw [List.forall_mem_map]
      exact fun x _ => fieldOk_ofRange ht total data x
    have hcontent : ∀ q ∈ (r :: rs).map (Part.ofRange (type.map utf8) total data),
        ¬ utf8 boundary <:+: q.content := by
      rw [List.forall_mem_map]
      exact fun x _ => not_infix_slice hd x
    rw [flatMap_parts]
    exact read?_write hb hfields hcontent

/-- The last override of the type is the one that presents a form as its base. -/
lemma find?_basePresentation (base : Resource) (format : Format) (os : List Override) :
    ((os ++ Service.basePresentation base format).reverse.find? fun o =>
        o.name == HeaderName.contentType) =
      some ⟨HeaderName.contentType, base.contentType.bind Headers.value?, false⟩ := by
  have he : (HeaderName.contentEncoding == HeaderName.contentType) = false := by decide
  have ht : (HeaderName.etag == HeaderName.contentType) = false := by decide
  unfold Service.basePresentation
  cases Headers.value? format.encoding <;> simp [he, ht]

lemma effective_of_presented {base resource : Resource} {format : Format} {options : Options}
    {d₀ d : Draft}
    (hd : (Representation.describe resource .none options
      (Representation.presentAsBase base format d₀)).result = .ok d)
    (ht : (resource.contentType.bind Headers.value?).isSome) :
    d.effective HeaderName.contentType = base.contentType.bind Headers.value? := by
  rw [Representation.result_describe] at hd
  cases hm : resource.lastModified with
  | error e =>
    rw [hm] at hd
    cases hd
  | ok modified =>
    obtain ⟨v, hv⟩ := Option.isSome_iff_exists.1 ht
    rw [hm] at hd
    obtain rfl := Except.ok.inj hd
    have hthere : (Representation.described resource modified .none options
        (Representation.presentAsBase base format d₀)).headers.contains HeaderName.contentType =
          true := by
      rw [Headers.contains_eq_not_isEmpty, Representation.getAll_described_contentType, hv]
      rfl
    rw [Draft.effective, Representation.overrides_described, Service.presentAsBase_eq,
      find?_basePresentation]
    rw [Service.presentAsBase_eq] at hthere
    simp only [hthere, Bool.or_true, if_true]

lemma visible_of_bind {type : Option Bytes}
    (h : ∀ v, type = some v → (Bytes.visible? v).isSome) :
    (type.bind Bytes.visible?).map utf8 = type ∧ ∀ t ∈ type.bind Bytes.visible?, t.Visible := by
  cases type with
  | none => exact ⟨rfl, fun t ht => absurd ht (by simp)⟩
  | some v =>
    obtain ⟨t, ht⟩ := Option.isSome_iff_exists.1 (h v rfl)
    obtain ⟨hv, he⟩ := Bytes.eq_utf8_of_visible? ht
    rw [Option.bind_some, ht]
    exact ⟨congrArg some he.symm, fun t' ht' => Option.some.inj ht' ▸ hv⟩

/-- **Reading the parts of a reply**: for a boundary of letters and digits that does not occur in
the data, the body that is put together for some ranges of them is read as one part for each range,
in order, with nothing left over. A part has the type that the reply would have, if any; this is the
type of the base when the draft presents a form as its base. The reply names the boundary, whatever
was registered for its type. -/
theorem read?_assembled {boundary : Text} (hb : ∀ c ∈ boundary, c.isAlphanum = true) {data : Bytes}
    (hd : ¬ utf8 boundary <:+: data) {rs : List ByteRange} (hn : rs ≠ [])
    (hr : ∀ r ∈ rs, ByteRange.Within data.length r) (total : Nat) {d : Draft}
    (hv : ∀ v, d.effective HeaderName.contentType = some v → (Bytes.visible? v).isSome) :
    ∃ d' segments body,
      (Delivery.multipart boundary rs total d).result = .ok (d', segments) ∧
      Delivery.assemble data segments = .ok body ∧
      read? boundary body =
        some (rs.map (Part.ofRange (d.effective HeaderName.contentType) total data), []) ∧
      d'.finish.getAll HeaderName.contentType = [utf8 (Delivery.multipartType boundary)] ∧
      ∀ base resource format options d₀,
        (Representation.describe resource .none options
          (Representation.presentAsBase base format d₀)).result = .ok d →
        (resource.contentType.bind Headers.value?).isSome →
        d.effective HeaderName.contentType = base.contentType.bind Headers.value? := by
  have hvisible := visible_of_isAlphanum hb
  obtain ⟨hmap, htype⟩ := visible_of_bind hv
  have hread := read?_parts hvisible hd htype total hn
  rw [hmap] at hread
  exact ⟨_, _, _, Delivery.result_multipart boundary rs total d,
    Delivery.assemble_of_fits (fits_parts boundary _ data hr true), hread,
    Delivery.contentType_multipart hvisible d, fun _ _ _ _ _ => effective_of_presented⟩

theorem read?_assembled_sample :
    let boundary := "Zq7".toList
    let data := utf8 "\r\n--Zq\r\n\r\n--7\r\n".toList
    let base := Resource.ofBytes "/a.txt".toList []
    let form := Resource.ofBytes "/a.txt.gz".toList data
    let type := utf8 "text/plain; charset=utf-8".toList
    ∃ d d' segments body,
      (Representation.describe form .none {} (Representation.presentAsBase base .gzip {})).result =
        .ok d ∧
      (Delivery.multipart boundary [⟨0, 9⟩, ⟨6, 14⟩] data.length d).result = .ok (d', segments) ∧
      Delivery.assemble data segments = .ok body ∧
      read? boundary body = some
        ([⟨[(utf8 "Content-Type".toList, type),
            (utf8 "Content-Range".toList, utf8 "bytes 0-9/15".toList)],
          utf8 "\r\n--Zq\r\n\r\n".toList⟩,
         ⟨[(utf8 "Content-Type".toList, type),
            (utf8 "Content-Range".toList, utf8 "bytes 6-14/15".toList)],
          utf8 "\r\n\r\n--7\r\n".toList⟩], []) ∧
      d'.finish.getAll HeaderName.contentType =
        [utf8 "multipart/byteranges; boundary=Zq7".toList] := by
  intro boundary data base form type
  obtain ⟨d, hdescribe⟩ : ∃ d, (Representation.describe form .none {}
      (Representation.presentAsBase base .gzip {})).result = .ok d :=
    ⟨_, Representation.result_describe _ _ _ _⟩
  have htype : d.effective HeaderName.contentType = some type :=
    (effective_of_presented hdescribe (by decide +kernel)).trans (by decide +kernel)
  have hb : ∀ c ∈ boundary, c.isAlphanum = true := List.all_eq_true.1 (by decide)
  have hdata : ¬ utf8 boundary <:+: data := by decide +kernel
  have hr : ∀ r ∈ [⟨0, 9⟩, ⟨6, 14⟩], ByteRange.Within data.length r := by
    rw [List.forall_mem_cons, List.forall_mem_singleton]
    exact ⟨⟨by decide, by decide +kernel⟩, ⟨by decide, by decide +kernel⟩⟩
  have hv : ∀ v, d.effective HeaderName.contentType = some v → (Bytes.visible? v).isSome := by
    rw [htype]
    rintro v hv
    obtain rfl := Option.some.inj hv
    decide +kernel
  obtain ⟨d', segments, body, hmultipart, hbody, hread, hname, -⟩ :=
    read?_assembled hb hdata (List.cons_ne_nil _ _) hr data.length hv
  refine ⟨d, d', segments, body, hdescribe, hmultipart, hbody, hread.trans ?_, hname.trans ?_⟩
  · rw [htype]
    decide +kernel
  · decide +kernel

end Multipart

end Docroot

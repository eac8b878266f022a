import Docroot.ByteRange.Header
import Docroot.Representation

/-!
Delivery of a representation: whole, in part, in several parts, or not at all when no part that
is asked for exists. Bytes in memory are cut at once; those of a file are left to be copied.
-/

namespace Docroot.Delivery

def lineEnd : Text := ['\r', '\n']

/-- What stands before a part: a delimiter line and the fields of the part. -/
def partHead (boundary : Text) (type : Option Text) (total : Nat) (first : Bool) (r : ByteRange) :
    Text :=
  (if first then [] else lineEnd) ++ "--".toList ++ boundary ++ lineEnd ++
  (match type with
    | some t => "Content-Type: ".toList ++ t ++ lineEnd
    | none => []) ++
  "Content-Range: ".toList ++ r.contentRange total ++ lineEnd ++ lineEnd

def closing (boundary : Text) : Text :=
  lineEnd ++ "--".toList ++ boundary ++ "--".toList ++ lineEnd

def parts (boundary : Text) (type : Option Text) (total : Nat) :
    Bool → List ByteRange → List Segment
  | _, [] => [.literal (Text.utf8 (closing boundary))]
  | first, r :: rs =>
    .literal (Text.utf8 (partHead boundary type total first r)) :: .range r ::
      parts boundary type total false rs

def multipartType (boundary : Text) : Text := "multipart/byteranges; boundary=".toList ++ boundary

/-- Turns a draft into one for several parts, which take over its type. -/
def multipart (boundary : Text) (ranges : List ByteRange) (total : Nat) (d : Draft) :
    Logged Abort (Draft × List Segment) := do
  let type := (d.effective HeaderName.contentType).bind Bytes.visible?
  let d ← (d.dropOverride HeaderName.contentType).putText HeaderName.contentType
    (multipartType boundary)
  pure (d, parts boundary type total true ranges)

/-- The bytes of a range, if all of them are there. -/
def slice? (data : Bytes) (r : ByteRange) : Option Bytes :=
  if r.first ≤ r.last + 1 ∧ r.last < data.length then some ((data.drop r.first).take r.length)
  else none

def assemble (data : Bytes) : List Segment → Except IoError Bytes
  | [] => .ok []
  | .literal b :: r => (assemble data r).map (b ++ ·)
  | .all :: r => (assemble data r).map (data ++ ·)
  | .range x :: r =>
    match slice? data x with
    | some b => (assemble data r).map (b ++ ·)
    | none => .error .beyondContent

def notSatisfiableText : Text := "Range Not Satisfiable".toList

/-- The reply when no part that is asked for exists: the fields are those of the representation
itself, without what was registered for another presentation. -/
def notSatisfiable (options : Options) (headOnly : Bool) (resource : Resource) (d : Draft) :
    Logged Abort Reply := do
  let d ← Representation.describe resource .none options d.clearOverrides
  let d := (d.remove HeaderName.contentEncoding).setStatus 416
  let d := d.put HeaderName.contentType Reply.plainText
  let d := d.put HeaderName.contentLength (Reply.numeral notSatisfiableText.length)
  let d ← d.putText HeaderName.contentRange (ByteRange.unsatisfiedRange resource.length)
  pure ⟨416, d.finish, if headOnly then .empty else .full (Text.utf8 notSatisfiableText)⟩

/-- The draft and the pieces for the parts that are asked for. -/
def partial206 (options : Options) (boundary : Text) (resource : Resource) (ranges : List ByteRange)
    (d : Draft) : Logged Abort (Draft × List Segment) :=
  let d := d.setStatus 206
  let total := resource.length.getD 0
  match ranges with
  -- one part alone is announced by the reply itself
  | [r] => do
    let d ← Representation.describe resource (.explicit r.length) options d
    let d ← d.putText HeaderName.contentRange (r.contentRange total)
    pure (d, [.range r])
  | rs => do
    let d ← Representation.describe resource .none options d
    multipart boundary rs total d

def bodyOf (options : Options) (headOnly : Bool) (resource : Resource) (segments : List Segment) :
    Except Abort Body :=
  if headOnly then .ok .empty
  else match resource.source with
    | .memory data => ((assemble data segments).map Body.full).mapError fun e => .failed (.io e)
    | .file path => .ok (.file path segments options.bufferSize)

def send (options : Options) (headOnly : Bool) (path : Text) (resource : Resource)
    (x : Draft × List Segment) : Logged Abort Reply := do
  Logged.tell (.served path x.1.status x.2.length)
  let body ← Logged.ofExcept (bodyOf options headOnly resource x.2)
  pure ⟨x.1.status, x.1.finish, body⟩

def selection (options : Options) (rangeLines : List Text) (resource : Resource) :
    ByteRange.Selection :=
  if options.ranges && !rangeLines.isEmpty then ByteRange.select rangeLines resource.length
  else .whole

def deliver (options : Options) (boundary : Text) (headOnly : Bool) (path : Text)
    (rangeLines : List Text) (resource : Resource) (d : Draft) : Logged Abort Reply :=
  match selection options rangeLines resource with
  | .whole => do
    let d ← Representation.describe resource .known options d
    send options headOnly path resource (d, [.all])
  | .unsatisfiable => notSatisfiable options headOnly resource d
  | .parts ranges => do
    let x ← partial206 options boundary resource ranges d
    send options headOnly path resource x

end Docroot.Delivery

import Docroot.Reply
import Docroot.Tree.Walk

/-!
Copying the body of a reply. A body that comes from a file is read when it is copied, from the
tree as it is then, in chunks of bounded size; the copy ends with a failure when a range is not
all there. A buffer that no memory can hold ends the copy before its first chunk, without a word.
-/

namespace Docroot

/-- What a receiver gets: chunks, and the failure that ended the body, if one did. -/
structure Streamed where
  chunks : List Bytes
  failure : Option IoError
deriving DecidableEq

namespace Streamed

def bytes (s : Streamed) : Bytes := s.chunks.flatten

def andThen (s : Streamed) (next : Streamed) : Streamed :=
  match s.failure with
  | some e => ⟨s.chunks, some e⟩
  | none => ⟨s.chunks ++ next.chunks, next.failure⟩

end Streamed

namespace Copy

/-- The bytes in chunks of `size`, the last one with what is left. `fuel` bounds the number of
chunks. -/
def chunksOf (size : Nat) : Nat → Bytes → List Bytes
  | 0, _ => []
  | fuel + 1, data =>
    if data.isEmpty then [] else data.take size :: chunksOf size fuel (data.drop size)

/-- The greatest number of bytes that come of one read. -/
def readBound : Nat := 2097152

/-- The least size of a buffer that is too great for any memory. -/
def bufferBound : Nat := 9223372036854775808

/-- The nonempty chunks of at most `size` bytes that the data is read in. -/
def chunks (size : Nat) (data : Bytes) : List Bytes :=
  chunksOf (min (max size 1) readBound) data.length data

def literal (data : Bytes) : List Bytes := if data.isEmpty then [] else [data]

def segment (size : Nat) (data : Bytes) : Segment → Streamed
  | .literal b => ⟨literal b, none⟩
  | .all => ⟨chunks size data, none⟩
  | .range r =>
    let part := (data.drop r.first).take r.length
    ⟨chunks size part, if part.length < r.length then some .shorterThanRecorded else none⟩

def segments (size : Nat) (data : Bytes) : List Segment → Streamed
  | [] => ⟨[], none⟩
  | s :: r => (segment size data s).andThen (segments size data r)

/-- A directory can be opened but not read: only the literal pieces before the first read come
through. -/
def unreadable : List Segment → Streamed
  | [] => ⟨[], none⟩
  | .literal b :: r => Streamed.andThen ⟨literal b, none⟩ (unreadable r)
  | _ :: _ => ⟨[], some .isADirectory⟩

def file (t : Tree) (path : Text) (segs : List Segment) (size : Nat) : Streamed :=
  match t.stat path with
  | .error e => ⟨[], some e⟩
  | .ok (_, e) =>
    -- the file is opened before the buffer is made
    if bufferBound ≤ size then ⟨[], none⟩
    else match e.node with
      | .file data => segments size data segs
      | _ => unreadable segs

end Copy

namespace Body

/-- What the receiver of a body gets when it is copied from the tree `t`. -/
def stream (t : Tree) : Body → Streamed
  | empty => ⟨[], none⟩
  | full data => ⟨[data], none⟩
  | file path segs size => Copy.file t path segs size

/-- What is told about a copy that is received to its end. -/
def copyEvents (t : Tree) : Body → List Event
  | file path segs size => ((Copy.file t path segs size).failure.map Event.streamFailed).toList
  | _ => []

/-- What is told about a copy whose receiver is gone from the beginning: the first chunk finds
nobody. -/
def abandonEvents (t : Tree) : Body → List Event
  | file path segs size =>
    match Copy.file t path segs size with
    | ⟨_ :: _, _⟩ => [.clientGone]
    | ⟨[], failure⟩ => (failure.map Event.streamFailed).toList
  | _ => []

end Body

end Docroot

import Docroot.MediaType
import Docroot.Time.HttpDate
import Docroot.Logged

/-!
Resources: what is known of one before its bytes are read, and how it is to be answered. A
resource may have compressed forms beside it; a directory is answered by its welcome file or by a
listing.
-/

namespace Docroot

/-- A stored compressed form: the ending of its file name, the coding that it has, and the suffix
of its tag. -/
structure Format where
  extension : Text
  encoding : Text
  suffix : Text
deriving DecidableEq, Repr

namespace Format

def br : Format := ⟨".br".toList, "br".toList, "--br".toList⟩

def gzip : Format := ⟨".gz".toList, "gzip".toList, "--gzip".toList⟩

def defaults : List Format := [br, gzip]

/-- Whether a coding that a client names is that of the format; a star names every coding. -/
def isNamedBy (token : Text) (f : Format) : Bool := token == ['*'] || f.encoding == token

def available (token : Text) (formats : List Format) : Bool := formats.any (isNamedBy token)

end Format

/-- Where the bytes of a resource are. -/
inductive Source
  | file (path : Text)
  | memory (data : Bytes)
deriving DecidableEq

structure Resource where
  contentType : Option Text
  contentEncoding : Option Text
  length : Option Nat
  modified : Option Timestamp
  tag : Option Text
  isDirectory : Bool
  location : Text
  source : Source
deriving DecidableEq

/-- A compressed form of a resource. -/
structure Variant where
  format : Format
  resource : Resource
deriving DecidableEq

/-- How a resource is answered. -/
inductive Kind
  | plain
  | compressible (variants : List Variant)
  | welcome
deriving DecidableEq

/-- What a look-up finds. -/
structure Found where
  resource : Resource
  kind : Kind
deriving DecidableEq

/-- Finds the resource of a path, if there is one that may be served. -/
abbrev Lookup := Text → Logged IoError (Option Found)

namespace Resource

def ofBytes (location : Text) (data : Bytes) : Resource where
  contentType := some (MediaType.ofPath location)
  contentEncoding := none
  length := some data.length
  modified := none
  tag := none
  isDirectory := false
  location := location
  source := .memory data

/-- The written modification date; the work stops if there is a time without one. -/
def lastModified (r : Resource) : Except Abort (Option Text) :=
  match r.modified with
  | none => .ok none
  | some t =>
    match HttpDate.format? t with
    | some d => .ok (some d)
    | none => .error .undatable

end Resource

/-- The first form, in the configured order, that a client's token names. -/
def Variant.select? (token : Text) (variants : List Variant) : Option Variant :=
  variants.find? fun v => v.format.isNamedBy token

end Docroot

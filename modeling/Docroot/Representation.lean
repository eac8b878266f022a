import Docroot.EntityTag.Basic
import Docroot.Reply
import Docroot.Resource

/-!
The header fields that describe a representation, and how a compressed form is presented: with
the type and the tag of its base.
-/

namespace Docroot

/-- The switches of the service. -/
structure Options where
  tags : Bool := true
  listings : Bool := true
  ranges : Bool := true
  redirectWelcome : Bool := false
  cacheControl : Option Bytes := none
  gzipExtensions : List Text := [".svgz".toList]
  bufferSize : Nat := 32768
deriving DecidableEq

namespace Representation

/-- Which length is sent. -/
inductive SentLength
  | known
  | explicit (n : Nat)
  | none
deriving DecidableEq

def SentLength.of (own : Option Nat) : SentLength → Option Nat
  | known => own
  | explicit n => some n
  | .none => .none

/-- Sets a field if there is a text for it. -/
def putText? (name : Text) (value : Option Text) (d : Draft) : Logged Abort Draft :=
  match value with
  | some v => d.putText name v
  | none => pure d

def putLength (length : Option Nat) (d : Draft) : Draft :=
  match length with
  | some n => d.put HeaderName.contentLength (Reply.numeral n)
  | none => d

/-- Sets a field that will not be there otherwise. -/
def putDefault (name : Text) (value : Option Bytes) (d : Draft) : Draft :=
  match value with
  | some v => if d.contains name then d else d.put name v
  | none => d

def describe (resource : Resource) (length : SentLength) (options : Options) (d : Draft) :
    Logged Abort Draft := do
  let modified ← Logged.ofExcept resource.lastModified
  let d ← putText? HeaderName.lastModified modified d
  let d := putLength (length.of resource.length) d
  let d ← putText? HeaderName.contentType resource.contentType d
  let d ← putText? HeaderName.contentEncoding resource.contentEncoding d
  let d ← putText? HeaderName.etag (if options.tags then resource.tag else none) d
  let d := putDefault HeaderName.acceptRanges
    (if options.ranges then some (Text.utf8 "bytes".toList) else none) d
  pure (putDefault HeaderName.cacheControl options.cacheControl d)

/-- Sends a compressed form with the type of its base, with its coding, and with the tag of its
base carrying the suffix of the format. -/
def presentAsBase (base : Resource) (format : Format) (d : Draft) : Draft :=
  let d := d.intercept HeaderName.contentType (base.contentType.bind Headers.value?)
  let d := match Headers.value? format.encoding with
    | some v => d.force HeaderName.contentEncoding v
    | none => d
  d.intercept HeaderName.etag
    ((base.tag.map fun t => EntityTag.withSuffix t format.suffix).bind Headers.value?)

/-- Marks a path as gzip data by its ending. -/
def markGzip (options : Options) (path : Text) (d : Draft) : Draft :=
  if options.gzipExtensions.any fun e => e.isSuffixOf path then
    d.force HeaderName.contentEncoding (Text.utf8 "gzip".toList)
  else d

end Representation

end Docroot

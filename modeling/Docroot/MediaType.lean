import Docroot.Path.Name
import Docroot.Text.Blank

/-!
Media types: the type that goes with a file name extension, and the parts of a written type.
-/

namespace Docroot.MediaType

/-- The types of the known extensions. A type whose content is compressed by itself, such as
`svgz`, is listed with the type of its uncompressed form. -/
def table : List (List Text × Text) :=
  [(["html".toList, "htm".toList], "text/html; charset=utf-8".toList),
    (["css".toList], "text/css; charset=utf-8".toList),
    (["txt".toList, "md".toList], "text/plain; charset=utf-8".toList),
    (["csv".toList], "text/csv; charset=utf-8".toList),
    (["xml".toList], "application/xml".toList),
    (["js".toList, "mjs".toList], "text/javascript; charset=utf-8".toList),
    (["json".toList, "map".toList], "application/json".toList),
    (["wasm".toList], "application/wasm".toList),
    (["png".toList], "image/png".toList),
    (["jpg".toList, "jpeg".toList], "image/jpeg".toList),
    (["gif".toList], "image/gif".toList),
    (["svg".toList, "svgz".toList], "image/svg+xml".toList),
    (["ico".toList], "image/x-icon".toList),
    (["webp".toList], "image/webp".toList),
    (["avif".toList], "image/avif".toList),
    (["mp4".toList], "video/mp4".toList),
    (["webm".toList], "video/webm".toList),
    (["ogv".toList], "video/ogg".toList),
    (["mov".toList], "video/quicktime".toList),
    (["mp3".toList], "audio/mpeg".toList),
    (["ogg".toList, "oga".toList], "audio/ogg".toList),
    (["wav".toList], "audio/wav".toList),
    (["flac".toList], "audio/flac".toList),
    (["m4a".toList], "audio/mp4".toList),
    (["woff".toList], "font/woff".toList),
    (["woff2".toList], "font/woff2".toList),
    (["ttf".toList], "font/ttf".toList),
    (["otf".toList], "font/otf".toList),
    (["pdf".toList], "application/pdf".toList),
    (["zip".toList], "application/zip".toList),
    (["gz".toList, "tgz".toList], "application/gzip".toList),
    (["br".toList], "application/x-brotli".toList),
    (["tar".toList], "application/x-tar".toList)]

def unknown : Text := "application/octet-stream".toList

def ofExtension (extension : Option Text) : Text :=
  match extension with
  | none => unknown
  | some e => ((table.find? fun row => row.1.contains e).map Prod.snd).getD unknown

/-- The type of a file by the extension of its name, in any case. -/
def ofPath (path : Text) : Text := ofExtension ((PathName.extension? path).map Text.lower)

/-- A written type without its parameters. -/
def essence (written : Text) : Text :=
  Text.trim (((Text.cutAt ';' written).map Prod.fst).getD written)

/-- The value of a parameter that is a character set. -/
def charsetParameter? (parameter : Text) : Option Text :=
  (Text.cutAt '=' parameter).bind fun p =>
    if Text.sameLetters (Text.trim p.1) "charset".toList then
      some (Text.strip (· == '"') (Text.trim p.2))
    else none

def charset? (written : Text) : Option Text :=
  ((Text.splitOn ';' written).drop 1).findSome? charsetParameter?

end Docroot.MediaType

import Docroot.Text.Percent
import Docroot.Text.Split

/-!
Paths of requests. A raw path is decoded and walked segment by segment from the top; what comes
out names one place below the top and can be written into a header again.
-/

namespace Docroot.RequestPath

/-- The segments that remain when empty segments and dots are dropped and each `..` takes the
segment before it away; none when a `..` has no segment to take. The first argument holds the
segments so far, the last one in front. -/
def walk : List Text → List Text → Option (List Text)
  | stack, [] => some stack.reverse
  | stack, s :: r =>
    if s = [] ∨ s = ['.'] then walk stack r
    else if s = ['.', '.'] then
      match stack with
      | [] => none
      | _ :: below => walk below r
    else walk (s :: stack) r

def asksForDirectory (decoded : Text) : Bool :=
  ['/'].isSuffixOf decoded || ['/', '.'].isSuffixOf decoded || ['/', '.', '.'].isSuffixOf decoded

/-- The path with these segments, with a slash at its end if it is a directory below the top. -/
def build (segments : List Text) (directory : Bool) : Text :=
  '/' :: (Text.joinWith ['/'] segments ++ if directory && !segments.isEmpty then ['/'] else [])

/-- The path that a raw path names: none if its octets are not a text, if it holds the character
zero, or if it climbs above the top. -/
def normalize? (raw : Text) : Option Text := do
  let decoded ← Text.percentDecode? raw
  if decoded.contains '\x00' then none
  let segments ← walk [] (Text.splitOn '/' decoded)
  pure (build segments (asksForDirectory decoded))

def encode (path : Text) : Text := Text.percentEncode Text.escapedInPath path

/-- A location with the query of the request, if it has one that is not empty. -/
def withQuery (location : Text) : Option Text → Text
  | none => location
  | some [] => location
  | some q => location ++ '?' :: q

end Docroot.RequestPath

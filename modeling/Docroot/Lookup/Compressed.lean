import Docroot.Resource

/-!
Compressed forms of a resource: files beside it whose names have the ending of a format. They are
looked up as the resource itself is, in the order of the formats.
-/

namespace Docroot.CompressedLookup

def variants (inner : Lookup) (path : Text) : List Format → Logged IoError (List Variant)
  | [] => pure []
  | f :: fs => do
    let found ← inner (path ++ f.extension)
    let rest ← variants inner path fs
    pure <| match found with
      | some x => if x.resource.isDirectory then rest else ⟨f, x.resource⟩ :: rest
      | none => rest

/-- A directory has no compressed forms; another resource has those that are found. -/
def attach (inner : Lookup) (formats : List Format) (path : Text) (found : Found) :
    Logged IoError Found :=
  if found.resource.isDirectory then pure found
  else do
    match ← variants inner path formats with
    | [] => pure found
    | vs => pure { found with kind := .compressible vs }

def lookup (inner : Lookup) (formats : List Format) : Lookup := fun path => do
  match ← inner path with
  | none => pure none
  | some found => do
    let found ← attach inner formats path found
    pure (some found)

end Docroot.CompressedLookup

import Docroot.Resource
import Docroot.Tree.Walk

/-!
Directories are answered by a welcome file: the first of some names that is a regular file in the
directory.
-/

namespace Docroot.WelcomeLookup

/-- Marks a directory as one to be answered by its welcome file. -/
def mark (found : Found) : Found :=
  if found.resource.isDirectory then { found with kind := .welcome } else found

def lookup (inner : Lookup) : Lookup := fun path => do
  let found ← inner path
  pure (found.map mark)

/-- The path of the welcome file in the directory at `path`. A name that leads to no object is
passed over, and so is one that leads to something else than a file. -/
def target (t : Tree) (path : Text) (directory : Resource) :
    List Text → Except IoError (Option Text)
  | [] => .ok none
  | name :: names =>
    match t.stat (PathName.join directory.location name) with
    | .ok (_, ⟨.file _, _⟩) => .ok (some (path ++ name))
    | .ok _ => target t path directory names
    | .error .notFound => target t path directory names
    | .error e => .error e

end Docroot.WelcomeLookup

import Docroot.EntityTag.Basic
import Docroot.Resource
import Docroot.Tree.Walk

/-!
Looking up paths below a document root. What a path leads to is served only if the place where it
lies in the end, all links followed, is accepted; by default a place below the root is.
-/

namespace Docroot.FileLookup

def resourceOf (name location : Text) (e : TreeEntry) : Resource :=
  let length := match e.node with
    | .file data => some data.length
    | _ => none
  { contentType := length.map fun _ => MediaType.ofPath name
    contentEncoding := none
    length := length
    modified := some e.modified
    tag := some (EntityTag.generate (some e.modified) length)
    isDirectory := length.isNone
    location := location
    source := .file name }

/-- The resource that a path below `root` leads to; `accepts` is told the path and the place that
it leads to. Slashes at both ends of the path say nothing. -/
def lookup (t : Tree) (root : Text) (accepts : Text → Text → Bool) : Lookup := fun path =>
  let name := PathName.join root (Text.strip (· == '/') path)
  match t.stat name with
  | .error e => if e.isAbsence then pure none else Logged.fail e
  | .ok (_, e) =>
    match t.canonicalize name with
    | .error e => if e.isAbsence then pure none else Logged.fail e
    | .ok location =>
      if accepts path location then pure (some ⟨resourceOf name location e, .plain⟩)
      else do
        Logged.tell (.aliasRejected path location)
        pure none

/-- Places at and below a root are accepted for every path. -/
def contained (root : Text) : Text → Text → Bool := fun _ location => PathName.within root location

/-- The absolute name, free of links, of a document root. -/
def openRoot (t : Tree) (root : Text) : Except IoError Text := t.canonicalize root

end Docroot.FileLookup

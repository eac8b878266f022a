import Docroot.Text.Split
import Docroot.Time.Timestamp

/-!
A tree of files, directories and symbolic links. A place is the list of the names that lead to it
from the top; the top itself is the empty list and always a directory.
-/

namespace Docroot

abbrev Place := List Text

/-- A directory apart from its names: its size, and whether the names may be read and walked
through. -/
structure Folder where
  size : Nat := 4096
  readable : Bool := true
  searchable : Bool := true
deriving DecidableEq

inductive Node
  | file (data : Bytes)
  | directory (folder : Folder := {})
  | link (target : Text)
deriving DecidableEq

/-- An object of a tree. -/
structure TreeEntry where
  node : Node
  modified : Timestamp
deriving DecidableEq

structure Tree where
  entries : List (Place × TreeEntry)
deriving DecidableEq

namespace Place

/-- The absolute name of a place. -/
def name (p : Place) : Text := '/' :: Text.joinWith ['/'] p

end Place

namespace Tree

/-- The object at a place, links not followed. -/
def find? (t : Tree) (p : Place) : Option TreeEntry :=
  if p = [] then some ⟨.directory, ⟨0⟩⟩ else t.entries.lookup p

def folder? (t : Tree) (p : Place) : Option Folder :=
  match t.find? p with
  | some ⟨.directory folder, _⟩ => some folder
  | _ => none

def children (t : Tree) (p : Place) : List (Text × TreeEntry) :=
  (t.entries.map Prod.fst).eraseDups.filterMap fun q =>
    if q.dropLast = p then q.getLast?.bind fun name => (t.find? q).map fun e => (name, e) else none

end Tree

end Docroot

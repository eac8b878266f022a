import Docroot.IoError
import Docroot.Path.Name
import Docroot.Tree.Basic

/-!
Finding what a path name stands for. The walk takes one component after another, follows every
link that it meets, the last component included, and gives up after forty links. The absolute name
of what is found takes a second walk, on which each object is looked up under its own absolute name.
-/

namespace Docroot.Tree

/-- The greatest number of octets in the name of an object. -/
def nameBound : Nat := 255

/-- The least number of octets of a path name that is too long. -/
def pathBound : Nat := 4096

/-- The greatest number of links on one walk. -/
def linkBound : Nat := 40

/-- Where one name leads: to a place, or to where the names of a link go on from a place. -/
inductive Turn
  | to (place : Place)
  | link (place : Place) (names : List Text)

/-- What a walk makes of one name at the place `here`. No object has a name with a zero in it. -/
def turn (t : Tree) (here : Place) (s : Text) : Except IoError Turn :=
  match t.folder? here with
  | none => .error .notADirectory
  | some folder =>
    -- the empty name asks for no right to search
    if s = [] then .ok (.to here)
    else if !folder.searchable then .error .permissionDenied
    else if s = ['.'] then .ok (.to here)
    else if s = ['.', '.'] then .ok (.to here.dropLast)
    else if nameBound < (Text.utf8 s).length then .error .nameTooLong
    else if s.contains '\x00' then .error .notFound
    else match t.find? (here ++ [s]) with
      | none => .error .notFound
      | some ⟨.link [], _⟩ => .error .notFound
      | some ⟨.link target, _⟩ =>
        .ok (.link (if PathName.isAbsolute target then [] else here) (Text.splitOn '/' target))
      | some _ => .ok (.to (here ++ [s]))

/-- The same where each object is looked up under its absolute name, which may be too long. -/
def turnByName (t : Tree) (here : Place) (s : Text) : Except IoError Turn :=
  if s ∉ [[], ['.'], ['.', '.']] ∧ pathBound ≤ (Text.utf8 (Place.name (here ++ [s]))).length then
    .error .nameTooLong
  else t.turn here s

section

variable (turn : Place → Text → Except IoError Turn)

/-- Walks on from the place `here`; where a link is met, `follow` goes on from where the link
leads. -/
def walkFrom (follow : Place → List Text → Except IoError Place) :
    Place → List Text → Except IoError Place
  | here, [] => .ok here
  | here, s :: rest =>
    match turn here s with
    | .error e => .error e
    | .ok (.to place) => walkFrom follow place rest
    | .ok (.link place names) => follow place (names ++ rest)

/-- The walk that meets at most the given number of links. -/
def walkBy : Nat → Place → List Text → Except IoError Place
  | 0 => walkFrom turn fun _ _ => .error .tooManyLinks
  | links + 1 => walkFrom turn (walkBy links)

/-- The place that a path name stands for, all links followed. -/
def resolveBy (path : Text) : Except IoError Place :=
  if path.contains '\x00' then .error .zeroInName
  else if path.isEmpty then .error .notFound
  else if pathBound ≤ (Text.utf8 path).length then .error .nameTooLong
  else walkBy turn linkBound [] (Text.splitOn '/' path)

end

def resolve (t : Tree) (path : Text) : Except IoError Place := resolveBy t.turn path

/-- The absolute name, free of links, of what a path name stands for. -/
def canonicalize (t : Tree) (path : Text) : Except IoError Text :=
  (resolveBy t.turnByName path).map Place.name

/-- The place that a path name stands for and the object there. -/
def stat (t : Tree) (path : Text) : Except IoError (Place × TreeEntry) :=
  match t.resolve path with
  | .error e => .error e
  | .ok p =>
    match t.find? p with
    | some e => .ok (p, e)
    | none => .error .notFound

/-- What is seen of a directory whose names may be read: nothing, if it may not be searched. -/
def seen (t : Tree) (folder : Folder) (p : Place) : List (Text × TreeEntry) :=
  if folder.searchable then t.children p else []

/-- The names in the directory that a path name stands for. -/
def list (t : Tree) (path : Text) : Except IoError (List (Text × TreeEntry)) :=
  match t.stat path with
  | .error e => .error e
  | .ok (p, ⟨.directory folder, _⟩) =>
    if folder.readable then .ok (t.seen folder p) else .error .permissionDenied
  | .ok _ => .error .notADirectory

end Docroot.Tree

import Docroot.Text.Split

/-!
Path names of the file system: their components, how two are joined, and the extension of the
last component.
-/

namespace Docroot.PathName

/-- The components of a path name. Repeated slashes and inner dots say nothing; the slash at the
beginning is a component of its own, and so is a dot at the beginning of a relative name. -/
def components (p : Text) : List Text :=
  match Text.splitOn '/' p with
  | [] => []
  | first :: rest =>
    let inner := rest.filter fun s => !(s.isEmpty || s == ['.'])
    if first.isEmpty then if rest.isEmpty then [] else ['/'] :: inner
    else first :: inner

/-- Whether `p` lies below `top` or is `top`, component by component. -/
def within (top p : Text) : Bool := (components top).isPrefixOf (components p)

def isAbsolute (p : Text) : Bool := p.head? == some '/'

/-- The name `q`, taken from the place `p`. -/
def join (p q : Text) : Text :=
  if isAbsolute q then q
  else if p.isEmpty || p.getLast? == some '/' then p ++ q
  else p ++ '/' :: q

/-- The parts of a name before and after its last dot. -/
def lastDot? : Text → Option (Text × Text)
  | [] => none
  | c :: r =>
    match lastDot? r with
    | some p => some (c :: p.1, p.2)
    | none => if c = '.' then some ([], r) else none

/-- The last component, when it is the name of a file. -/
def fileName? (p : Text) : Option Text :=
  (components p).getLast?.filter fun s => !(s == ['/'] || s == ['.'] || s == ['.', '.'])

/-- What follows the last dot of the file name, unless nothing stands before it. -/
def extension? (p : Text) : Option Text :=
  (((fileName? p).bind lastDot?).filter fun x => !x.1.isEmpty).map Prod.snd

end Docroot.PathName

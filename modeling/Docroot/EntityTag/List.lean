import Docroot.Text.Basic

/-!
Lists of entity tags in header values. Elements are `*` and tags in quotes; a comma may stand
inside the quotes. Between two elements there is at least one comma; blanks, tabs and further
commas are passed over.
-/

namespace Docroot.EntityTag

/-- Where a scan of a list stands. -/
inductive Place
  | gap
  | weak
  | slash
  | inside (reversed : Text)
  | closed

def isGap (c : Char) : Bool := c == ' ' || c == '\t' || c == ','

/-- The elements that the rest of a list gives, if the rest is well formed. -/
def scan : Place → Text → Option (List Text)
  | .gap, [] => some []
  | .gap, c :: r =>
    if isGap c then scan .gap r
    else if c = '*' then (scan .closed r).map (['*'] :: ·)
    else if c = 'W' then scan .weak r
    else if c = '"' then scan (.inside ['"']) r
    else none
  | .weak, c :: r => if c = '/' then scan .slash r else none
  | .slash, c :: r => if c = '"' then scan (.inside ['"', '/', 'W']) r else none
  | .inside t, c :: r =>
    if c = '"' then (scan .closed r).map ((c :: t).reverse :: ·) else scan (.inside (c :: t)) r
  | .closed, [] => some []
  | .closed, c :: r =>
    if c = ',' then scan .gap r
    else if c = ' ' ∨ c = '\t' then scan .closed r
    else none
  | _, [] => none

theorem scan_gap_cons (c : Char) (r : Text) :
    scan .gap (c :: r) =
      if isGap c then scan .gap r
      else if c = '*' then (scan .closed r).map (['*'] :: ·)
      else if c = 'W' then scan .weak r
      else if c = '"' then scan (.inside ['"']) r
      else none := rfl

theorem scan_weak_cons (c : Char) (r : Text) :
    scan .weak (c :: r) = if c = '/' then scan .slash r else none := rfl

theorem scan_slash_cons (c : Char) (r : Text) :
    scan .slash (c :: r) = if c = '"' then scan (.inside ['"', '/', 'W']) r else none := rfl

theorem scan_inside_cons (t : Text) (c : Char) (r : Text) :
    scan (.inside t) (c :: r) =
      if c = '"' then (scan .closed r).map ((c :: t).reverse :: ·)
      else scan (.inside (c :: t)) r := rfl

theorem scan_closed_cons (c : Char) (r : Text) :
    scan .closed (c :: r) =
      if c = ',' then scan .gap r
      else if c = ' ' ∨ c = '\t' then scan .closed r
      else none := rfl

/-- The elements of a list; a list without any is malformed. -/
def list? (value : Text) : Option (List Text) :=
  (scan .gap value).filter fun tags => !tags.isEmpty

end Docroot.EntityTag

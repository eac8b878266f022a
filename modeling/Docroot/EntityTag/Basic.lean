import Docroot.Text.Blank
import Docroot.Text.Numeral
import Docroot.Time.Timestamp

/-!
Entity tags. A tag is a label in quotes, behind `W/` when it is weak. The label of a compressed
form is the label of its base with a suffix that begins with two dashes; comparison looks at the
part before the last two dashes only, so a resource and its compressed forms match each other.
-/

namespace Docroot.EntityTag

/-- The weak tag of a resource: its modification time in milliseconds and its length, in
hexadecimal. -/
def generate (modified : Option Timestamp) (length : Option Nat) : Text :=
  "W/\"".toList ++ Text.hexadecimal ((modified.map Timestamp.epochMillis).getD 0) ++
    '-' :: (Text.hexadecimal (length.getD 0) ++ ['"'])

/-- What stands between the quotes; a text that is not in quotes stands for itself. -/
def unquote (s : Text) : Text := ((Text.after? ['"'] s).bind (Text.before? ['"'])).getD s

structure Parts where
  weak : Bool
  label : Text
deriving DecidableEq

/-- The parts of a tag. A text that is not a tag is a label of its own. -/
def parts (tag : Text) : Parts :=
  let s := Text.trim tag
  match Text.after? ['W', '/'] s with
  | some r => ⟨true, unquote r⟩
  | none => ⟨false, unquote s⟩

/-- The part of a text before its last two dashes. -/
def beforeDashes? : Text → Option Text
  | [] => none
  | c :: r =>
    -- later dashes take precedence
    match beforeDashes? r with
    | some p => some (c :: p)
    | none => if ['-', '-'].isPrefixOf (c :: r) then some [] else none

def base (label : Text) : Text := (beforeDashes? label).getD label

def Parts.write (p : Parts) : Text :=
  (if p.weak then ['W', '/'] else []) ++ '"' :: (p.label ++ ['"'])

/-- The tag with `suffix` in place of the suffix that it has. -/
def withSuffix (tag suffix : Text) : Text :=
  Parts.write { parts tag with label := base (parts tag).label ++ suffix }

/-- Whether a tag of a request stands for the content that has the tag `own`. -/
def covers (own requested : Text) : Bool :=
  requested == ['*'] || base (parts own).label == base (parts requested).label

end Docroot.EntityTag

import Docroot.Settings.Value
import Docroot.Text.Numeral
import Docroot.Text.Split

/-!
Written keys, such as `resources.precompressed[0].encoding`: a name, then further names behind
points and places in brackets. A text that is no such key is a name as a whole. The case of letters
makes no difference.
-/

namespace Docroot.Settings.Key

def isNameChar (c : Char) : Bool := c.isAlphanum || c == '_' || c == '-' || c == ' '

def isBlank (c : Char) : Bool := c == ' ' || c == '\t'

/-- The greatest place that can be written. -/
def maxIndex : Nat := 9223372036854775807

/-- A whole number, blanks around it allowed. -/
def index? (s : Text) : Option Int :=
  match Text.strip isBlank s with
  | '-' :: r => ((Text.digits? r).filter fun n => decide (n ≤ maxIndex + 1)).map fun n => -(n : Int)
  | r => ((Text.digits? r).filter fun n => decide (n ≤ maxIndex)).map fun n => (n : Int)

/-- The steps behind a name; `fuel` bounds their number. -/
def stepsFrom : (fuel : Nat) → Text → Option (List Step)
  | _, [] => some []
  | 0, _ => none
  | fuel + 1, '.' :: r =>
    let name := r.takeWhile isNameChar
    if name.isEmpty then none
    else (stepsFrom fuel (r.dropWhile isNameChar)).map (.member name :: ·)
  | fuel + 1, '[' :: r => do
    let (inside, rest) ← Text.cutAt ']' r
    let index ← index? inside
    let steps ← stepsFrom fuel rest
    pure (.element index :: steps)
  | _, _ => none

def parse? (s : Text) : Option (List Step) :=
  let name := s.takeWhile isNameChar
  if name.isEmpty then none
  else (stepsFrom s.length (s.dropWhile isNameChar)).map (.member name :: ·)

def steps (s : Text) : List Step := ((parse? s).getD [.member s]).map Step.fold

end Docroot.Settings.Key

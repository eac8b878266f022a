import Docroot.Double.Basic

/-!
Values of settings before it is known what they are the settings of, and the setting of one of
them within another. A table that is set is merged into the table that is there, and the case of
the letters in the names of its members makes no difference.
-/

namespace Docroot.Settings

inductive Value
  | missing
  | bool (b : Bool)
  | integer (i : Int)
  | float (x : Double)
  | text (t : Text)
  | array (elements : List Value)
  | table (members : List (Text × Value))
deriving Inhabited

/-- A name with its letters in lower case. Of the letters beyond ASCII only the Kelvin sign is
among them, the one whose lower case is an ASCII letter: no setting has a name with another. -/
def foldName (name : Text) : Text := name.map fun c => if c = '\u212A' then 'k' else c.toLower

/-- A step down into a value. An element before the first is counted from the end. -/
inductive Step
  | member (name : Text)
  | element (index : Int)
deriving DecidableEq, Repr

def Step.fold : Step → Step
  | member name => member (foldName name)
  | element index => element index

def putMember {α : Type} (name : Text) (v : α) : List (Text × α) → List (Text × α)
  | [] => [(name, v)]
  | m :: ms => if m.1 = name then (name, v) :: ms else m :: putMember name v ms

namespace Value

def members : Value → List (Text × Value)
  | table ms => ms
  | _ => []

/-- The elements of an array; another value has none. -/
def elements : Value → List Value
  | array vs => vs
  | _ => []

def withMember (v : Value) (name : Text) (x : Value) : Value := table (putMember name x v.members)

/-- The number of elements that is too great for an array. -/
def lengthBound : Nat := 4294967296

/-- The place of an element among `n`, if there is one or can be one. -/
def position? (n : Nat) (index : Int) : Option Nat :=
  if 0 ≤ index then (if index.toNat < lengthBound then some index.toNat else none)
  else if (n : Int) + index < 0 then none
  else some (n + index).toNat

/-- Puts an element into an array, which grows if it has to; another value is replaced by an
array. There may be no such place. -/
def withElement? (v : Value) (index : Int) (x : Value) : Option Value :=
  (position? v.elements.length index).map fun i =>
    array ((v.elements ++ List.replicate (i + 1 - v.elements.length) missing).set i x)

def at? (v : Value) : Step → Option Value
  | .member name => v.members.lookup name
  | .element index => (position? v.elements.length index).bind fun i => v.elements[i]?

mutual

/-- Sets a member; a table is merged into the table that is there. -/
def setMember (v : Value) (name : Text) : Value → Value
  | table ms => withMember v name (setMembers ((v.at? (.member name)).getD (table [])) ms)
  | x => withMember v name x

def setMembers (v : Value) : List (Text × Value) → Value
  | [] => v
  | (name, x) :: ms => setMembers (setMember v (foldName name) x) ms

end

/-- Sets what the steps lead to. What is on the way becomes a table or an array if it has to. A
step to an element that there cannot be leads nowhere. -/
def setAt? (x : Value) : List Step → Value → Option Value
  | [], v => some v
  | [.member name], v => some (setMember v name x)
  | .member name :: steps, v =>
    (setAt? x steps ((v.at? (.member name)).getD missing)).map (withMember v name)
  | [.element index], v => withElement? v index x
  | .element index :: steps, v =>
    (setAt? x steps ((v.at? (.element index)).getD missing)).bind (withElement? v index)

end Value

end Docroot.Settings

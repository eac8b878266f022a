import Docroot.Header.Map
import Docroot.Logged

/-!
The status and the header fields of a reply while it is put together. An override says what a
field is to hold when the reply is finished: an intercepting one acts only if the field is there,
a forced one in any case. Overrides act in the order in which they were made.
-/

namespace Docroot

structure Override where
  name : Text
  value : Option Bytes
  forced : Bool
deriving DecidableEq

structure Draft where
  status : Nat := 200
  headers : Headers := []
  overrides : List Override := []
deriving DecidableEq

namespace Draft

def setStatus (status : Nat) (d : Draft) : Draft := { d with status }

def put (name : Text) (value : Bytes) (d : Draft) : Draft :=
  { d with headers := d.headers.put name value }

/-- Sets a field to a text; a text that cannot stand in a header is left out. -/
def putText {ε : Type} (name value : Text) (d : Draft) : Logged ε Draft :=
  match Headers.value? value with
  | some v => ⟨.ok (d.put name v), []⟩
  | none => ⟨.ok d, [.droppedHeader name value]⟩

def append (name : Text) (value : Bytes) (d : Draft) : Draft :=
  { d with headers := d.headers.append name value }

def remove (name : Text) (d : Draft) : Draft := { d with headers := d.headers.remove name }

def intercept (name : Text) (value : Option Bytes) (d : Draft) : Draft :=
  { d with overrides := d.overrides ++ [⟨name, value, false⟩] }

def force (name : Text) (value : Bytes) (d : Draft) : Draft :=
  { d with overrides := d.overrides ++ [⟨name, some value, true⟩] }

def dropOverride (name : Text) (d : Draft) : Draft :=
  { d with overrides := d.overrides.filter fun o => !(o.name == name) }

def clearOverrides (d : Draft) : Draft := { d with overrides := [] }

/-- What the field will hold first in the finished reply. -/
def effective (name : Text) (d : Draft) : Option Bytes :=
  match d.overrides.reverse.find? fun o => o.name == name with
  | some o => if o.forced || d.headers.contains name then o.value else d.headers.get? name
  | none => d.headers.get? name

def contains (name : Text) (d : Draft) : Bool := (d.effective name).isSome

/-- Lets one override act. -/
def applyOverride (h : Headers) (o : Override) : Headers :=
  if o.forced || h.contains o.name then
    match o.value with
    | some v => h.put o.name v
    | none => h.remove o.name
  else h

/-- The fields of the finished reply. -/
def finish (d : Draft) : Headers := d.overrides.foldl applyOverride d.headers

end Draft

end Docroot

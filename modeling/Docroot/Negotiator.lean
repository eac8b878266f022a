import Docroot.Header.Quality
import Docroot.Ordered

/-!
Which codings a client prefers. The codings of an `Accept-Encoding` value are put in order by
their quality, equal ones by the server's own preference, and what is equal there too by their
place in the value. Orders that were found are kept under the value; a full memory is emptied.
-/

namespace Docroot

structure Negotiator where
  preferred : List Text
  capacity : Nat
  known : List (Text × List Text)
deriving DecidableEq

namespace Negotiator

def new (preferred : List Text) (capacity : Nat) : Negotiator :=
  ⟨preferred.map Text.lower, capacity, []⟩

/-- The number of values that are kept unless the settings say otherwise. -/
def defaultCapacity : Nat := 100

/-- The place of a coding in the server's preference; a coding not listed comes after all. -/
def rank (preferred : List Text) (token : Text) : Nat :=
  (preferred.findIdx? (· == token)).getD preferred.length

/-- Whether an element comes before another one whatever their places are. -/
def comesBefore (preferred : List Text) (a b : Quality.Item) : Bool :=
  b.quality < a.quality ||
    (a.quality == b.quality && rank preferred a.token < rank preferred b.token)

def orderOf (preferred : List Text) (value : Text) : List Text :=
  (Ordered.sort (comesBefore preferred)
    ((Quality.parse value).filter fun i => 0 < i.quality)).map Quality.Item.token

/-- Several header lines stand for one value. -/
def key (lines : List Text) : Text := Text.joinWith [','] lines

def isKnown (n : Negotiator) (value : Text) : Bool := n.known.any fun e => e.1 == value

/-- Keeps the order of a value. A memory that is full is emptied before. -/
def remember (n : Negotiator) (value : Text) (order : List Text) : Negotiator :=
  if n.capacity = 0 then n
  else { n with known := (if n.capacity ≤ n.known.length then [] else n.known) ++ [(value, order)] }

/-- The codings that the header lines accept, most preferred first. -/
def order (n : Negotiator) (lines : List Text) : List Text × Negotiator :=
  let value := key lines
  -- an empty value is not kept
  if (Text.trim value).isEmpty then ([], n)
  else match n.known.lookup value with
    | some found => (found, n)
    | none => (orderOf n.preferred value, n.remember value (orderOf n.preferred value))

/-- Changes the bound of the memory, which is emptied if it holds more. -/
def setCapacity (n : Negotiator) (capacity : Nat) : Negotiator :=
  { n with capacity, known := if capacity < n.known.length then [] else n.known }

end Negotiator

end Docroot

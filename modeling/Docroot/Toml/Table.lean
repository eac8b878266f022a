import Docroot.Settings.Value

/-!
Tables of a TOML document while it is read. A table comes to be by its own heading, by the heading
of a table in it, or by a key with points; which of them it was decides what may still be added to
it. Nothing is set twice.
-/

namespace Docroot.Toml

open Settings (Value)

/-- How a table came to be. -/
inductive Origin
  | heading
  | implied
  | dotted
deriving DecidableEq, Repr

inductive Item
  | value (v : Value)
  | table (origin : Origin) (members : List (Text × Item))
  | rows (tables : List (List (Text × Item)))

abbrev Members := List (Text × Item)

namespace Members

def put (name : Text) (i : Item) : Members → Members
  | [] => [(name, i)]
  | m :: ms => if m.1 = name then (name, i) :: ms else m :: put name i ms

def changeLast (f : Members → Option Members) : List Members → Option (List Members)
  | [] => none
  | [m] => (f m).map fun x => [x]
  | m :: r => (changeLast f r).map (m :: ·)

/-- Changes the table that names lead to, given how it came to be. Tables that are missing are
made. By a key with points only tables can be reached that have no heading of their own. -/
def change (byKey : Bool) (f : Origin → Members → Option Members) :
    Origin → List Text → Members → Option Members
  | origin, [], ms => f origin ms
  | _, name :: names, ms =>
    match ms.lookup name with
    | none => do
      let origin := if byKey then Origin.dotted else .implied
      let inner ← change byKey f origin names []
      pure (put name (.table origin inner) ms)
    | some (.table origin inner) =>
      if byKey ∧ origin = .heading then none
      else (change byKey f origin names inner).map fun x => put name (.table origin x) ms
    | some (.rows tables) =>
      (changeLast (change byKey f .heading names) tables).map fun x => put name (.rows x) ms
    | some (.value _) => none

def define (names : List Text) (v : Value) (origin : Origin) (ms : Members) : Option Members :=
  match names.getLast? with
  | none => none
  | some last =>
    let path := names.dropLast
    change true (fun reached inner =>
      if (reached = .dotted ↔ path = []) ∨ (inner.lookup last).isSome then none
      else some (inner ++ [(last, .value v)])) origin path ms

/-- Begins the table of a heading. One that was implied by another heading moves behind the tables
that are there. -/
def beginTable (names : List Text) (ms : Members) : Option Members :=
  match names.getLast? with
  | none => none
  | some last =>
    change false (fun _ inner =>
      match inner.lookup last with
      | none => some (inner ++ [(last, .table .heading [])])
      | some (.table .implied x) =>
        some (inner.filter (fun m => m.1 != last) ++ [(last, .table .heading x)])
      | _ => none) .heading names.dropLast ms

/-- Begins the next of the tables of a heading. -/
def beginRow (names : List Text) (ms : Members) : Option Members :=
  match names.getLast? with
  | none => none
  | some last =>
    change false (fun _ inner =>
      match inner.lookup last with
      | none => some (inner ++ [(last, .rows [[]])])
      | some (.rows tables) => some (put last (.rows (tables ++ [[]])) inner)
      | _ => none) .heading names.dropLast ms

def defineUnder (heading names : List Text) (v : Value) (ms : Members) : Option Members :=
  change false (define names v) .heading heading ms

end Members

mutual

def Item.toValue : Item → Value
  | .value v => v
  | .table _ ms => .table (Members.toValues ms)
  | .rows tables => .array (Members.rowsToValues tables)

def Members.toValues : List (Text × Item) → List (Text × Value)
  | [] => []
  | (name, i) :: r => (name, i.toValue) :: Members.toValues r

def Members.rowsToValues : List (List (Text × Item)) → List Value
  | [] => []
  | ms :: r => .table (Members.toValues ms) :: Members.rowsToValues r

end

end Docroot.Toml

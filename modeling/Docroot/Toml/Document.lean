import Docroot.Text.Split
import Docroot.Toml.Moment
import Docroot.Toml.Number
import Docroot.Toml.Quoted
import Docroot.Toml.Table

/-!
TOML documents: the form in which the settings file is written. Reading gives the members of the
table that the document as a whole is, or nothing if it breaks a rule of the format.
-/

namespace Docroot.Toml

open Settings (Value)

/-- The greatest number of names of a key, and of arrays and tables within each other. -/
def depthBound : Nat := 79

def isBareKeyChar (c : Char) : Bool := c.isAlphanum || c == '_' || c == '-'

def name? : Text → Option (Text × Text)
  | '"' :: r => quoted? r
  | '\'' :: r => literal? r
  | s =>
    let name := s.takeWhile isBareKeyChar
    if name.isEmpty then none else some (name, s.dropWhile isBareKeyChar)

def key? : (bound : Nat) → Text → Option (List Text × Text)
  | 0, _ => none
  | bound + 1, s => do
    let (name, r) ← name? (skipBlanks s)
    match skipBlanks r with
    | '.' :: r => do
      let (names, r) ← key? bound r
      pure (name :: names, r)
    | r => pure ([name], r)

def pair? (value : Text → Option (Value × Text)) (s : Text) :
    Option ((List Text × Value) × Text) := do
  let (names, r) ← key? depthBound s
  let r ← Text.after? ['='] r
  let (v, r) ← value (skipBlanks r)
  pure ((names, v), r)

/-- Reads the elements of an array to its end; `fuel` bounds their number. -/
def array? (value : Text → Option (Value × Text)) : (fuel : Nat) → Text → Option (List Value × Text)
  | 0, _ => none
  | fuel + 1, s =>
    match skipGaps false s with
    | ']' :: r => some ([], r)
    | s => do
      let (v, r) ← value s
      match skipGaps false r with
      | ',' :: r => do
        let (vs, r) ← array? value fuel r
        pure (v :: vs, r)
      | ']' :: r => pure ([v], r)
      | _ => none

/-- Reads the pairs of a table between braces to its end; `fuel` bounds their number. -/
def pairs? (value : Text → Option (Value × Text)) :
    (fuel : Nat) → Members → Text → Option (Members × Text)
  | 0, _, _ => none
  | fuel + 1, ms, s => do
    let ((names, v), r) ← pair? value s
    let ms ← ms.define names v .heading
    match skipBlanks r with
    | ',' :: r => pairs? value fuel ms r
    | '\x7d' :: r => pure (ms, r)
    | _ => none

def inlineTable? (value : Text → Option (Value × Text)) (s : Text) : Option (Value × Text) :=
  match skipBlanks s with
  | '\x7d' :: r => some (.table [], r)
  | _ => (pairs? value s.length [] s).map fun x => (.table (Members.toValues x.1), x.2)

def scalarValue? : Text → Option (Value × Text)
  | 't' :: 'r' :: 'u' :: 'e' :: r => some (.bool true, r)
  | 'f' :: 'a' :: 'l' :: 's' :: 'e' :: r => some (.bool false, r)
  | '"' :: r => (string? ('"' :: r)).map fun x => (.text x.1, x.2)
  | '\'' :: r => (string? ('\'' :: r)).map fun x => (.text x.1, x.2)
  | s =>
    if startsDate s then (dateTime? s).map fun x => (momentTable x.1, x.2)
    else if startsTime s then (time? s).map fun x => (momentTable x.1, x.2)
    else number? s

/-- Reads a value with at most `depth` arrays and tables within each other. -/
def value? : (depth : Nat) → Text → Option (Value × Text)
  | depth + 1, '[' :: r => (array? (value? depth) (r.length + 1) r).map fun x => (.array x.1, x.2)
  | depth + 1, '\x7b' :: r => inlineTable? (value? depth) r
  | _, s => scalarValue? s

/-- A document as far as it is read: the members of the whole and the heading that is in force. -/
structure Reading where
  members : Members := []
  heading : List Text := []

/-- Reads a heading, its closing bracket or brackets, and the end of its line. -/
def heading? (closing s : Text) : Option (List Text × Text) := do
  let (names, r) ← key? depthBound s
  let r ← Text.after? closing r
  let r ← endLine? r
  pure (names, r)

/-- Reads one line, or the lines that one pair takes. -/
def statement? (d : Reading) : Text → Option (Reading × Text)
  | '[' :: '[' :: r => do
    let (names, r) ← heading? [']', ']'] r
    let ms ← d.members.beginRow names
    pure (⟨ms, names⟩, r)
  | '[' :: r => do
    let (names, r) ← heading? [']'] r
    let ms ← d.members.beginTable names
    pure (⟨ms, names⟩, r)
  | s => do
    let ((names, v), r) ← pair? (value? depthBound) s
    let r ← endLine? r
    let ms ← d.members.defineUnder d.heading names v
    pure ({ d with members := ms }, r)

/-- Reads lines to the end of the text; `fuel` bounds their number. -/
def statements? : (fuel : Nat) → Reading → Text → Option Reading
  | 0, _, _ => none
  | fuel + 1, d, s =>
    match endLine? s, skipBlanks s with
    | _, [] => some d
    | some r, _ => statements? fuel d r
    | none, s => do
      let (d, r) ← statement? d s
      statements? fuel d r

/-- The members of a document, which as a whole must be a table and no date-time. One mark of the
order of octets at its beginning says nothing. -/
def parse? (s : Text) : Option (List (Text × Value)) := do
  let text := joinLineEnds ((Text.after? ['\ufeff'] s).getD s)
  let d ← statements? (text.length + 1) {} text
  match ← resolve? (.table (Members.toValues d.members)) with
  | .table ms => some ms
  | _ => none

end Docroot.Toml

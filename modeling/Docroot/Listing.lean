import Docroot.Ordered
import Docroot.Path.Request
import Docroot.Resource
import Docroot.Text.Markup
import Docroot.Time.Format
import Docroot.Tree.Walk

/-!
Directory listings: a page with one row for each name in a directory, with links to sort it by
name, by modification time or by size.
-/

namespace Docroot.Listing

structure Item where
  name : Text
  isDirectory : Bool
  size : Nat
  modified : Option Timestamp
deriving DecidableEq

inductive Column
  | name
  | modified
  | size
deriving DecidableEq

/-- How the rows are sorted. -/
structure Arrangement where
  column : Column
  descending : Bool
deriving DecidableEq

def applyParameter (a : Arrangement) (parameter : Text) : Arrangement :=
  if parameter = "C=M".toList then { a with column := .modified }
  else if parameter = "C=S".toList then { a with column := .size }
  else if parameter = "C=N".toList then { a with column := .name }
  else if parameter = "O=D".toList then { a with descending := true }
  else if parameter = "O=A".toList then { a with descending := false }
  else a

/-- The arrangement that a query asks for; of several parameters of one kind the last counts. -/
def arrangement (query : Option Text) : Arrangement :=
  (Text.splitOn '&' (query.getD [])).foldl applyParameter ⟨.name, false⟩

/-- The order of names, by code points. -/
def nameBefore (a b : Item) : Bool := decide (a.name < b.name)

/-- An item without a time comes before those with one. -/
def timeBefore : Option Timestamp → Option Timestamp → Bool
  | none, some _ => true
  | some s, some t => decide (s.nanos < t.nanos)
  | _, none => false

/-- Whether `a` comes strictly before `b` in ascending order; items that are equal in the column
are in the order of their names. -/
def ascending (column : Column) (a b : Item) : Bool :=
  match column with
  | .name => nameBefore a b
  | .modified => timeBefore a.modified b.modified || (a.modified == b.modified && nameBefore a b)
  | .size => a.size < b.size || (a.size == b.size && nameBefore a b)

def before (arr : Arrangement) (a b : Item) : Bool :=
  if arr.descending then ascending arr.column b a else ascending arr.column a b

def arrange (arr : Arrangement) (items : List Item) : List Item := Ordered.sort (before arr) items

/-- What stands before the title, between its two places, and behind it. -/
def headOpening : Text :=
  ("<!DOCTYPE html>\n<html xmlns=\"http://www.w3.org/1999/xhtml\" lang=\"en\">\n<head>\n" ++
    "<meta charset=\"utf-8\"/>\n<title>Directory: ").toList

def headMiddle : Text := "</title>\n</head>\n<body>\n<h1>Directory: ".toList

def headClosing : Text := "</h1>\n<table>\n<thead>\n<tr>".toList

/-- The heading of a column: a link that sorts by it, backwards if it is sorted by it already. -/
def heading (arr : Arrangement) (label : Text) (column : Column) (key : Char) : Text :=
  let order := if column = arr.column ∧ arr.descending = false then 'D' else 'A'
  "<th><a href=\"?C=".toList ++ key :: ("&amp;O=".toList ++ order :: ("\">".toList ++ label ++
    "</a></th>".toList))

def headings (arr : Arrangement) : Text :=
  heading arr "Name".toList .name 'N' ++ heading arr "Last Modified".toList .modified 'M' ++
    heading arr "Size".toList .size 'S'

def bodyOpening : Text := "</tr>\n</thead>\n<tbody>\n".toList

def parentRow : Text :=
  ("<tr><td><a href=\"../\">Parent Directory</a></td><td>-</td><td>-</td></tr>\n").toList

def slash (i : Item) : Text := if i.isDirectory then ['/'] else []

def link (base : Text) (i : Item) : Text :=
  base ++ Text.percentEncode Text.escapedInSegment i.name ++ slash i

def sizeText (i : Item) : Text := if i.isDirectory then ['-'] else Text.decimal i.size

/-- When an item was modified; none if there is no date for that. -/
def timeText? (i : Item) : Option Text :=
  match i.modified with
  | some t => t.minuteForm?
  | none => some ['-']

/-- The row of an item; none if its time cannot be written. -/
def row? (base : Text) (i : Item) : Option Text :=
  (timeText? i).map fun time =>
    "<tr><td><a href=\"".toList ++ Text.markup (link base i) ++ "\">".toList ++
      Text.markup i.name ++ slash i ++ "</a></td><td>".toList ++ time ++ "</td><td>".toList ++
      sizeText i ++ "</td></tr>\n".toList

def pageClosing : Text := "</tbody>\n</table>\n</body>\n</html>\n".toList

def page (base : Text) (parent : Bool) (arr : Arrangement) (rows : Text) : Text :=
  headOpening ++ Text.markup base ++ headMiddle ++ Text.markup base ++ headClosing ++
    headings arr ++ bodyOpening ++ (if parent then parentRow else []) ++ rows ++ pageClosing

/-- The page of items that are in order already; none if there is one whose time cannot be
written. -/
def page? (base : Text) (parent : Bool) (arr : Arrangement) (items : List Item) : Option Text :=
  (items.mapM (row? base)).map fun rows => page base parent arr rows.flatten

/-- The page of a directory whose written path is `base`. -/
def render? (base : Text) (parent : Bool) (query : Option Text) (items : List Item) : Option Text :=
  page? base parent (arrangement query) (arrange (arrangement query) items)

/-- A row is about the object itself: of a link it shows the length of its target. -/
def item (name : Text) (e : TreeEntry) : Item where
  name := name
  isDirectory := e.node matches .directory _
  size := match e.node with
    | .file data => data.length
    | .link target => (Text.utf8 target).length
    | .directory folder => folder.size
  modified := some e.modified

/-- The page of a directory of a tree; nothing else can be listed, and no directory whose names may
not be read. The work stops at a time that cannot be written. -/
def ofTree (t : Tree) (directory : Resource) (base : Text) (parent : Bool) (query : Option Text) :
    Except Abort (Option Text) :=
  if !directory.isDirectory then .ok none
  else match t.list directory.location with
    | .error .permissionDenied => .ok none
    | .error e => .error (.failed (.io e))
    | .ok names =>
      match render? base parent query (names.map fun x => item x.1 x.2) with
      | some page => .ok (some page)
      | none => .error .undatable

end Docroot.Listing

import Docroot.Text.Numeral
import Docroot.Toml.Space

/-!
Strings of a TOML document: between quotes, where a backslash begins an escape, or between
apostrophes, where it does not; and each of the two kinds over several lines, between three quotes
or apostrophes.
-/

namespace Docroot.Toml

/-- The character with a code, if there is one. -/
def scalar? (digits : Text) : Option Char := do
  let ds ← digits.mapM Text.hexDigit?
  let n := ds.foldl (fun n d => 16 * n + d) 0
  if h : n.isValidChar then pure (Char.ofNatAux n h) else none

def escaped? (c : Char) : Option Char :=
  match c with
  | 'b' => some '\x08'
  | 't' => some '\t'
  | 'n' => some '\n'
  | 'f' => some '\x0c'
  | 'r' => some '\r'
  | '"' => some '"'
  | '\\' => some '\\'
  | _ => none

def quoted? : Text → Option (Text × Text)
  | [] => none
  | '"' :: r => some ([], r)
  | '\\' :: 'u' :: a :: b :: c :: d :: r => do
    let x ← scalar? [a, b, c, d]
    let y ← quoted? r
    pure (x :: y.1, y.2)
  | '\\' :: 'U' :: a :: b :: c :: d :: e :: f :: g :: h :: r => do
    let x ← scalar? [a, b, c, d, e, f, g, h]
    let y ← quoted? r
    pure (x :: y.1, y.2)
  | '\\' :: c :: r => do
    let x ← escaped? c
    let y ← quoted? r
    pure (x :: y.1, y.2)
  | c :: r => if isPlain c then (quoted? r).map fun y => (c :: y.1, y.2) else none

/-- What three closing marks stand for when there may be up to two more of them before: these are
part of the string. -/
def closeThree (mark : Char) (rest : Text) : Text × Text :=
  match rest with
  | a :: b :: r =>
    if a = mark ∧ b = mark then ([mark, mark], r)
    else if a = mark then ([mark], b :: r)
    else ([], a :: b :: r)
  | [a] => if a = mark then ([mark], []) else ([], [a])
  | [] => ([], [])

/-- Whether only blanks stand before the next line end. -/
def atLineEnd (s : Text) : Bool := (skipBlanks s).head? == some '\n'

/-- Reads on to the three closing quotes. A backslash at the end of a line takes away all blanks
and line ends that follow, which is what `trimming` says. -/
def quotedLines? : (trimming : Bool) → Text → Option (Text × Text)
  | _, [] => none
  | _, '"' :: '"' :: '"' :: r => some (closeThree '"' r)
  | _, '\\' :: 'u' :: a :: b :: c :: d :: r => do
    let x ← scalar? [a, b, c, d]
    let y ← quotedLines? false r
    pure (x :: y.1, y.2)
  | _, '\\' :: 'U' :: a :: b :: c :: d :: e :: f :: g :: h :: r => do
    let x ← scalar? [a, b, c, d, e, f, g, h]
    let y ← quotedLines? false r
    pure (x :: y.1, y.2)
  | _, '\\' :: c :: r =>
    if atLineEnd (c :: r) then quotedLines? true r
    else do
      let x ← escaped? c
      let y ← quotedLines? false r
      pure (x :: y.1, y.2)
  | trimming, c :: r =>
    if trimming ∧ (isBlank c ∨ c = '\n') then quotedLines? true r
    else if isPlain c ∨ c = '\n' then (quotedLines? false r).map fun y => (c :: y.1, y.2)
    else none

def literal? : Text → Option (Text × Text)
  | [] => none
  | c :: r =>
    if c = '\'' then some ([], r)
    else if isPlain c then (literal? r).map fun y => (c :: y.1, y.2)
    else none

def literalLines? : Text → Option (Text × Text)
  | [] => none
  | '\'' :: '\'' :: '\'' :: r => some (closeThree '\'' r)
  | c :: r =>
    if isPlain c ∨ c = '\n' then (literalLines? r).map fun y => (c :: y.1, y.2) else none

/-- A line end right behind the three opening marks is no part of the string. -/
def skipFirstLineEnd : Text → Text
  | '\n' :: r => r
  | r => r

def string? : Text → Option (Text × Text)
  | '"' :: '"' :: '"' :: r => quotedLines? false (skipFirstLineEnd r)
  | '"' :: r => quoted? r
  | '\'' :: '\'' :: '\'' :: r => literalLines? (skipFirstLineEnd r)
  | '\'' :: r => literal? r
  | _ => none

end Docroot.Toml

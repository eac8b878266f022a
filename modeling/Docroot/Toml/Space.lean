import Docroot.Text.Basic

/-!
What separates the parts of a TOML document: blanks, comments and line ends. A line ends with a
line feed; a carriage return stands only before one, and is taken away before the text is read.
-/

namespace Docroot.Toml

/-- A blank within a line. -/
def isBlank (c : Char) : Bool := c == ' ' || c == '\t'

/-- A character that may stand in a comment or between quotes. -/
def isPlain (c : Char) : Bool := c == '\t' || (' ' ≤ c && c != '\x7f')

def skipBlanks (s : Text) : Text := s.dropWhile isBlank

/-- The text with a line feed for every carriage return and line feed. -/
def joinLineEnds : Text → Text
  | '\r' :: '\n' :: r => '\n' :: joinLineEnds r
  | c :: r => c :: joinLineEnds r
  | [] => []

/-- The rest after blanks, a comment if there is one, and the end of the line. -/
def endLine? (s : Text) : Option Text :=
  let rest := match skipBlanks s with
    | '#' :: r => r.dropWhile isPlain
    | r => r
  match rest with
  | [] => some []
  | '\n' :: r => some r
  | _ => none

/-- The rest after blanks, line ends and comments. -/
def skipGaps : (inComment : Bool) → Text → Text
  | _, [] => []
  | true, c :: r =>
    if c = '\n' then skipGaps false r else if isPlain c then skipGaps true r else c :: r
  | false, c :: r =>
    if isBlank c ∨ c = '\n' then skipGaps false r
    else if c = '#' then skipGaps true r
    else c :: r

end Docroot.Toml

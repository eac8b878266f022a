import Docroot.Text.Numeral

/-!
The JSON that a log line holds: one flat object of strings, numbers and nulls, written without
blanks.
-/

namespace Docroot.Text

inductive JsonScalar
  | null
  | number (n : Nat)
  | string (s : Text)
deriving DecidableEq

/-- The escape of a control character: the short form where JSON has one, else four digits. -/
def jsonControl (c : Char) : Text :=
  if c = '\x08' then ['\\', 'b']
  else if c = '\t' then ['\\', 't']
  else if c = '\n' then ['\\', 'n']
  else if c = '\x0C' then ['\\', 'f']
  else if c = '\r' then ['\\', 'r']
  else ['\\', 'u'] ++ List.leftpad 4 '0' (hexadecimal c.toNat)

def jsonChar (c : Char) : Text :=
  if c = '"' then ['\\', '"']
  else if c = '\\' then ['\\', '\\']
  else if c.toNat < 0x20 then jsonControl c
  else [c]

def jsonString (s : Text) : Text := '"' :: (s.flatMap jsonChar ++ ['"'])

def JsonScalar.write : JsonScalar → Text
  | .null => "null".toList
  | .number n => decimal n
  | .string s => jsonString s

/-- The members of an object after the first, each behind a comma. -/
def jsonMembers : List (Text × JsonScalar) → Text
  | [] => []
  | (key, value) :: r => ',' :: (jsonString key ++ ':' :: value.write ++ jsonMembers r)

/-- An object with its members in the given order. -/
def jsonObject (members : List (Text × JsonScalar)) : Text :=
  '\x7b' :: ((jsonMembers members).drop 1 ++ ['\x7d'])

end Docroot.Text

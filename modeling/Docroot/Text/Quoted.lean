import Docroot.Text.Hidden
import Docroot.Text.Numeral

/-!
Quoted text in diagnostics: a text between double quotes in which every character that would not
show is written by an escape.
-/

namespace Docroot.Text

def quotedChar (c : Char) : Text :=
  if c = '"' then ['\\', '"']
  else if c = '\\' then ['\\', '\\']
  else if c = '\t' then ['\\', 't']
  else if c = '\n' then ['\\', 'n']
  else if c = '\r' then ['\\', 'r']
  else if c = '\x00' then ['\\', '0']
  else if isHidden c then ['\\', 'u', '\x7b'] ++ hexadecimal c.toNat ++ ['\x7d']
  else [c]

def quoted (s : Text) : Text := '"' :: (s.flatMap quotedChar ++ ['"'])

end Docroot.Text

import Docroot.Text.Numeral

/-!
Percent-coding. A character class says which octets are written as `%` and two hexadecimal
digits; reading takes every well-formed escape back and leaves a malformed one as it stands.
-/

namespace Docroot.Text

/-- The octets escaped in a path: controls, what is not ASCII, blank, and ``"#%<>?`{}``. -/
def escapedInPath (b : UInt8) : Bool :=
  b < 0x20 || 0x7E < b || [0x20, 0x22, 0x23, 0x25, 0x3C, 0x3E, 0x3F, 0x60, 0x7B, 0x7D].contains b

/-- In a single segment the slash is escaped too. -/
def escapedInSegment (b : UInt8) : Bool := escapedInPath b || b == 0x2F

def upperHexDigit (n : Nat) : Char := if n < 10 then Char.ofNat (48 + n) else Char.ofNat (55 + n)

/-- `%` and the two digits of an octet. -/
def percentEscape (b : UInt8) : Text :=
  ['%', upperHexDigit (b.toNat / 16), upperHexDigit (b.toNat % 16)]

def percentEncode (escaped : UInt8 → Bool) (s : Text) : Text :=
  (utf8 s).flatMap fun b => if escaped b then percentEscape b else [Char.ofNat b.toNat]

def escapedOctet? (hi lo : UInt8) : Option UInt8 := do
  let h ← hexDigit? (Char.ofNat hi.toNat)
  let l ← hexDigit? (Char.ofNat lo.toNat)
  pure (UInt8.ofNat (16 * h + l))

def percentDecodeBytes : Bytes → Bytes
  | 0x25 :: hi :: lo :: r =>
    match escapedOctet? hi lo with
    | some b => b :: percentDecodeBytes r
    | none => 0x25 :: percentDecodeBytes (hi :: lo :: r)
  | b :: r => b :: percentDecodeBytes r
  | [] => []

/-- The text that a percent-coded text stands for, if its octets are UTF-8. -/
def percentDecode? (s : Text) : Option Text := ofUtf8? (percentDecodeBytes (utf8 s))

end Docroot.Text

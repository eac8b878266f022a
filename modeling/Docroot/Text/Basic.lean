/-!
Texts and octets. A text is a list of characters and an octet string a list of bytes, so that a
scanner over either is a recursion on the data. UTF-8 leads from one to the other: `ofUtf8?`
accepts exactly what `utf8` writes.
-/

namespace Docroot

abbrev Text := List Char

abbrev Bytes := List UInt8

namespace Text

def utf8 (s : Text) : Bytes := s.flatMap String.utf8EncodeChar

def ofUtf8? (b : Bytes) : Option Text := b.toByteArray.utf8Decode?.map Array.toList

@[simp] theorem utf8_nil : utf8 [] = [] := rfl

@[simp] theorem utf8_append (s t : Text) : utf8 (s ++ t) = utf8 s ++ utf8 t := by
  simp [utf8]

theorem ofUtf8?_utf8 (s : Text) : ofUtf8? (utf8 s) = some s := by
  have h : (utf8 s).toByteArray = s.utf8Encode := rfl
  simp [ofUtf8?, h, List.utf8Decode?_utf8Encode]

/-- Different texts have different octets. -/
theorem utf8_injective {s t : Text} (h : utf8 s = utf8 t) : s = t := by
  have hs : ofUtf8? (utf8 s) = ofUtf8? (utf8 t) := by rw [h]
  rw [ofUtf8?_utf8, ofUtf8?_utf8] at hs
  exact Option.some.inj hs

/-- Letters A to Z in lower case, all else as it is. -/
def lower (s : Text) : Text := s.map Char.toLower

/-- Equality up to the case of the letters A to Z. -/
def sameLetters (s t : Text) : Bool := lower s == lower t

/-- What is left after the last characters that satisfy `p` are taken off. -/
def dropEndWhile (p : Char → Bool) (s : Text) : Text := (s.reverse.dropWhile p).reverse

def strip (p : Char → Bool) (s : Text) : Text := dropEndWhile p (s.dropWhile p)

/-- The rest of `s` after a leading `p`. -/
def after? (p s : Text) : Option Text := if p.isPrefixOf s then some (s.drop p.length) else none

/-- The part of `s` before a final `q`. -/
def before? (q s : Text) : Option Text :=
  if q.isSuffixOf s then some (s.take (s.length - q.length)) else none

/-- Writes `new` for every occurrence of `old`, from left to right, the occurrences not
overlapping. `skip` counts the characters of an occurrence that are still to be passed over. -/
def replaceFrom (old new : Text) : Nat → Text → Text
  | _, [] => []
  | skip + 1, _ :: r => replaceFrom old new skip r
  | 0, c :: r =>
    if old.isPrefixOf (c :: r) then new ++ replaceFrom old new (old.length - 1) r
    else c :: replaceFrom old new 0 r

def replace (old new s : Text) : Text := replaceFrom old new 0 s

end Text

namespace Bytes

/-- The text of a header value all of whose octets are visible ASCII, blank or tab. -/
def visible? (b : Bytes) : Option Text :=
  if b.all fun x => x == 9 || (32 ≤ x && x ≤ 126) then some (b.map fun x => Char.ofNat x.toNat)
  else none

end Bytes

end Docroot

import Mathlib.Tactic.Common
import Docroot.Proofs.Dates
import Docroot.Text.Json
import Docroot.Toml.Number
import Docroot.Toml.Quoted

/-!
JSON, read. The reader takes any document and gives its numbers exactly, each as a whole number
times a power of ten. An object of strings, numbers and nulls is read as it was written, member by
member, whatever characters its strings hold.
-/

namespace Docroot.Json

open Text

inductive Value
  | null
  | bool (b : Bool)
  | number (mantissa power : Int)
  | string (s : Text)
  | array (items : List Value)
  | object (members : List (Text × Value))

def isBlank (c : Char) : Bool := c == ' ' || c == '\t' || c == '\n' || c == '\r'

def skipBlanks (s : Text) : Text := s.dropWhile isBlank

/-! ### Strings -/

def escaped? (c : Char) : Option Char :=
  if c = '/' then some '/' else Toml.escaped? c

/-- The number of four hexadecimal digits. -/
def unit? (digits : Text) : Option Nat :=
  (digits.mapM hexDigit?).map fun ds => ds.foldl (fun n d => 16 * n + d) 0

/-- Reads on to the closing quote. An escape of four digits gives a unit of UTF-16, all else a whole
character. -/
def units? : Text → Option (List Nat × Text)
  | [] => none
  | '"' :: r => some ([], r)
  | '\\' :: 'u' :: a :: b :: c :: d :: r =>
    (unit? [a, b, c, d]).bind fun n => (units? r).map fun x => (n :: x.1, x.2)
  | '\\' :: c :: r =>
    (escaped? c).bind fun d => (units? r).map fun x => (d.toNat :: x.1, x.2)
  | c :: r =>
    if c.toNat < 0x20 then none else (units? r).map fun x => (c.toNat :: x.1, x.2)

/-- The characters of some units: two surrogates stand for one, and none stands alone. -/
def characters? : List Nat → Option Text
  | [] => some []
  | [n] => if n.isValidChar then some [Char.ofNat n] else none
  | n :: m :: r =>
    if 0xD800 ≤ n ∧ n < 0xDC00 ∧ 0xDC00 ≤ m ∧ m < 0xE000 then
      (characters? r).map (Char.ofNat (0x10000 + 0x400 * (n - 0xD800) + (m - 0xDC00)) :: ·)
    else if n.isValidChar then (characters? (m :: r)).map (Char.ofNat n :: ·)
    else none

def string? (s : Text) : Option (Text × Text) :=
  (units? s).bind fun x => (characters? x.1).map fun t => (t, x.2)

/-! ### Numbers -/

def digits? (s : Text) : Option (Text × Text) :=
  if s.takeWhile Char.isDigit = [] then none
  else some (s.takeWhile Char.isDigit, s.dropWhile Char.isDigit)

def whole? : Text → Option (Text × Text)
  | '0' :: r => some (['0'], r)
  | s => digits? s

def part? : Text → Option (Text × Text)
  | '.' :: r => digits? r
  | s => some ([], s)

def signed (negative : Bool) (ds : Text) : Int :=
  if negative then -(digitsValue ds : Int) else digitsValue ds

def power? : Text → Option (Int × Text)
  | [] => some (0, [])
  | c :: r =>
    if c = 'e' ∨ c = 'E' then
      (digits? (Toml.sign r).2).map fun x => (signed (Toml.sign r).1 x.1, x.2)
    else some (0, c :: r)

def number? (s : Text) : Option (Value × Text) := do
  let negative := s.head? == some '-'
  let (whole, r) ← whole? (if negative then s.drop 1 else s)
  let (part, r) ← part? r
  let (power, r) ← power? r
  pure (.number (signed negative (whole ++ part)) (power - part.length), r)

/-! ### Values -/

def plain? (s : Text) : Option (Value × Text) :=
  match after? "null".toList s, after? "true".toList s, after? "false".toList s with
  | some r, _, _ => some (.null, r)
  | _, some r, _ => some (.bool true, r)
  | _, _, some r => some (.bool false, r)
  | none, none, none => number? s

section

variable {α : Type}

/-- Reads items with a comma between two of them, up to a closing mark. -/
def items? (item? : Text → Option (α × Text)) (close : Char) : Nat → Text → Option (List α × Text)
  | 0, _ => none
  | bound + 1, s =>
    (item? s).bind fun x =>
      match skipBlanks x.2 with
      | [] => none
      | c :: r =>
        if c = ',' then (items? item? close bound r).map fun y => (x.1 :: y.1, y.2)
        else if c = close then some ([x.1], r)
        else none

def list? (item? : Text → Option (α × Text)) (close : Char) (s : Text) : Option (List α × Text) :=
  match after? [close] (skipBlanks s) with
  | some r => some ([], r)
  | none => items? item? close s.length s

end

def member? (value? : Text → Option (Value × Text)) (s : Text) :
    Option ((Text × Value) × Text) := do
  let r ← after? ['"'] (skipBlanks s)
  let (key, r) ← string? r
  let r ← after? [':'] (skipBlanks r)
  let (value, r) ← value? r
  pure ((key, value), r)

/-- Reads a value that is at most so deep. -/
def value? : Nat → Text → Option (Value × Text)
  | 0, _ => none
  | depth + 1, s =>
    match skipBlanks s with
    | [] => none
    | c :: r =>
      if c = '"' then (string? r).map fun x => (.string x.1, x.2)
      else if c = '[' then (list? (value? depth) ']' r).map fun x => (.array x.1, x.2)
      else if c = '\x7b' then
        (list? (member? (value? depth)) '\x7d' r).map fun x => (.object x.1, x.2)
      else plain? (c :: r)

def read (s : Text) : Option Value :=
  (value? (s.length + 1) s).bind fun x => if skipBlanks x.2 = [] then some x.1 else none

/-! ### Strings, as they are written -/

lemma units?_jsonChar (c : Char) (r : Text) :
    units? (jsonChar c ++ r) = (units? r).map fun x => (c.toNat :: x.1, x.2) := by
  unfold jsonChar
  split_ifs with hquote hslash hcontrol
  · subst hquote
    rfl
  · subst hslash
    rfl
  · unfold jsonControl
    split_ifs with h h h h h
    all_goals try (subst h; rfl)
    have hall : ∀ n < 0x20, List.leftpad 4 '0' (hexadecimal n) =
        ['0', '0', Nat.digitChar (n / 16), Nat.digitChar (n % 16)] ∧
          unit? ['0', '0', Nat.digitChar (n / 16), Nat.digitChar (n % 16)] = some n := by decide
    obtain ⟨hdigits, hunit⟩ := hall c.toNat hcontrol
    rw [hdigits]
    show (unit? _).bind _ = _
    rw [hunit]
    rfl
  · have hcons : units? (c :: r) = if c.toNat < 0x20 then none
        else (units? r).map fun x => (c.toNat :: x.1, x.2) := by
      rw [units?.eq_def]
      split <;> simp_all
    rw [List.singleton_append, hcons, if_neg hcontrol]

lemma units?_flatMap (s r : Text) :
    units? (s.flatMap jsonChar ++ '"' :: r) = some (s.map Char.toNat, r) := by
  induction s with
  | nil => rfl
  | cons c s ih =>
    rw [List.flatMap_cons, List.append_assoc, units?_jsonChar, ih]
    rfl

/-- No character is a surrogate. -/
lemma characters?_map (s : Text) : characters? (s.map Char.toNat) = some s := by
  have hchar : ∀ c : Char, c.toNat.isValidChar ∧ Char.ofNat c.toNat = c :=
    fun c => ⟨c.valid, Char.ofNat_toNat c⟩
  induction s with
  | nil => rfl
  | cons c s ih =>
    obtain ⟨hvalid, hc⟩ := hchar c
    cases s with
    | nil => simp [characters?, hvalid, hc]
    | cons d s =>
      have hno : ¬ (0xD800 ≤ c.toNat ∧ c.toNat < 0xDC00 ∧ 0xDC00 ≤ d.toNat ∧ d.toNat < 0xE000) := by
        rcases hvalid with h | h <;> omega
      rw [List.map_cons, List.map_cons] at *
      rw [characters?, if_neg hno, if_pos hvalid, ih, hc]
      rfl

/-- **Strings** are read as they were written, whatever their characters. -/
theorem string?_jsonString (s r : Text) :
    string? (s.flatMap jsonChar ++ '"' :: r) = some (s, r) := by
  rw [string?, units?_flatMap]
  show (characters? (s.map Char.toNat)).map _ = _
  rw [characters?_map]
  rfl

/-! ### Numbers, as they are written -/

/-- The text does not go on with a number. -/
def Ends (s : Text) : Prop := ∀ c ∈ s.head?, c.isDigit = false ∧ c ∉ ['.', 'e', 'E']

lemma ends_cons {c : Char} (h : c.isDigit = false ∧ c ∉ ['.', 'e', 'E']) (r : Text) :
    Ends (c :: r) := by
  intro d hd
  cases hd
  exact h

lemma digits?_append {ds r : Text} (hne : ds ≠ []) (hds : ∀ c ∈ ds, c.isDigit = true)
    (hr : Ends r) : digits? (ds ++ r) = some (ds, r) := by
  have htake : r.takeWhile Char.isDigit = [] := by
    cases r with
    | nil => rfl
    | cons c r => simp [(hr c rfl).1]
  have hdrop : r.dropWhile Char.isDigit = r := by
    cases r with
    | nil => rfl
    | cons c r => simp [(hr c rfl).1]
  rw [digits?, List.takeWhile_append_of_pos hds, List.dropWhile_append_of_pos hds, htake, hdrop,
    List.append_nil, if_neg hne]

lemma head?_append_decimal (n : Nat) (r : Text) :
    (decimal n ++ r).head? = (decimal n).head? := by
  rw [List.head?_append, Option.or_of_isSome (List.isSome_head?.2 (decimal_ne_nil n))]

lemma head?_decimal {n : Nat} (h : n ≠ 0) : (decimal n).head? ≠ some '0' := by
  induction n using Nat.strongRecOn with
  | ind n ih =>
    have hdigit : ∀ d < 10, d ≠ 0 → Nat.digitChar d ≠ '0' := by decide
    have heq : decimal n = if n < 10 then [Nat.digitChar n]
        else decimal (n / 10) ++ [Nat.digitChar (n % 10)] := Nat.toDigits_eq_if (by decide)
    rw [heq]
    split
    · next hn => exact fun hz => hdigit n hn h (Option.some.inj hz)
    · rw [head?_append_decimal]
      exact ih (n / 10) (by omega) (by omega)

lemma whole?_of_ne {c : Char} (h : c ≠ '0') (r : Text) : whole? (c :: r) = digits? (c :: r) := by
  rw [whole?.eq_def]
  split
  · next heq => exact absurd (List.cons.inj heq).1 h
  · rfl

lemma whole?_decimal (n : Nat) {r : Text} (hr : Ends r) :
    whole? (decimal n ++ r) = some (decimal n, r) := by
  by_cases hn : n = 0
  · subst hn
    rfl
  · have hread := digits?_append (decimal_ne_nil n) (fun _ hc => isDigit_of_mem_decimal hc) hr
    have hhead := head?_decimal hn
    obtain ⟨c, ds, hd⟩ := List.exists_cons_of_ne_nil (decimal_ne_nil n)
    rw [hd] at hread hhead ⊢
    exact (whole?_of_ne (fun he => hhead (congrArg some he)) (ds ++ r)).trans hread

lemma part?_of_ends {r : Text} (hr : Ends r) : part? r = some ([], r) := by
  cases r with
  | nil => rfl
  | cons c r =>
    have hc : c ≠ '.' := fun he => (hr c rfl).2 (by simp [he])
    rw [part?.eq_def]
    split
    · next heq => exact absurd (List.cons.inj heq).1 hc
    · rfl

lemma power?_of_ends {r : Text} (hr : Ends r) : power? r = some (0, r) := by
  cases r with
  | nil => rfl
  | cons c r =>
    refine if_neg fun he => (hr c rfl).2 ?_
    rcases he with rfl | rfl <;> simp

/-- **Numbers** are read as they were written, however great they are. -/
theorem number?_decimal (n : Nat) {r : Text} (hr : Ends r) :
    number? (decimal n ++ r) = some (.number n 0, r) := by
  have hsign : ((decimal n ++ r).head? == some '-') = false := by
    refine beq_false_of_ne fun hs => ?_
    rw [head?_append_decimal] at hs
    exact absurd (isDigit_of_mem_decimal (List.mem_of_head? hs)) (by decide)
  have hvalue : signed false (decimal n ++ []) = n := by
    rw [List.append_nil]
    exact congrArg Nat.cast (digitsValue_decimal n)
  unfold number?
  simp only [hsign, Bool.false_eq_true, if_false, whole?_decimal n hr, part?_of_ends hr,
    power?_of_ends hr, Option.bind_eq_bind, Option.bind_some, hvalue]
  rfl

/-! ### Flat objects -/

def Value.ofScalar : JsonScalar → Value
  | .null => .null
  | .number n => .number n 0
  | .string s => .string s

lemma skipBlanks_cons {c : Char} (h : isBlank c = false) (r : Text) :
    skipBlanks (c :: r) = c :: r := by
  simp [skipBlanks, h]

lemma value?_of_isDigit {c : Char} (hc : c.isDigit = true) (depth : Nat) (r : Text) :
    value? (depth + 1) (c :: r) = number? (c :: r) := by
  have hne : ∀ d, d.isDigit = false → c ≠ d := by
    rintro d hd rfl
    rw [hc] at hd
    exact absurd hd (by decide)
  have hblank : isBlank c = false := by
    simp [isBlank, hne ' ' (by decide), hne '\t' (by decide), hne '\n' (by decide),
      hne '\r' (by decide)]
  have hword : ∀ d w, d.isDigit = false → after? (d :: w) (c :: r) = none :=
    fun d w hd => if_neg (by simp [Ne.symm (hne d hd)])
  have hplain : plain? (c :: r) = number? (c :: r) := by
    have hnull : after? "null".toList (c :: r) = none := hword 'n' _ (by decide)
    have htrue : after? "true".toList (c :: r) = none := hword 't' _ (by decide)
    have hfalse : after? "false".toList (c :: r) = none := hword 'f' _ (by decide)
    rw [plain?, hnull, htrue, hfalse]
  rw [value?, skipBlanks_cons hblank]
  simp only [if_neg (hne '"' (by decide)), if_neg (hne '[' (by decide)),
    if_neg (hne '\x7b' (by decide)), hplain]

lemma value?_write (v : JsonScalar) (depth : Nat) {r : Text} (hr : Ends r) :
    value? (depth + 1) (v.write ++ r) = some (.ofScalar v, r) := by
  cases v with
  | null => rfl
  | string s =>
    have hwrite : JsonScalar.write (.string s) ++ r = '"' :: (s.flatMap jsonChar ++ '"' :: r) := by
      simp [JsonScalar.write, jsonString]
    rw [hwrite, value?, skipBlanks_cons rfl]
    show (string? _).map _ = _
    rw [string?_jsonString]
    rfl
  | number n =>
    have hread := number?_decimal n hr
    obtain ⟨c, ds, hd⟩ := List.exists_cons_of_ne_nil (decimal_ne_nil n)
    have hc : c.isDigit = true := isDigit_of_mem_decimal (hd ▸ List.mem_cons_self)
    rw [hd, List.cons_append] at hread
    rw [JsonScalar.write, hd, List.cons_append, value?_of_isDigit hc, hread]
    rfl

lemma member?_write (key : Text) (v : JsonScalar) (depth : Nat) {r : Text} (hr : Ends r) :
    member? (value? (depth + 1)) (jsonString key ++ ':' :: v.write ++ r) =
      some ((key, .ofScalar v), r) := by
  have hwrite : jsonString key ++ ':' :: v.write ++ r =
      '"' :: (key.flatMap jsonChar ++ '"' :: ':' :: (v.write ++ r)) := by
    simp [jsonString]
  have hquote : after? ['"'] ('"' :: (key.flatMap jsonChar ++ '"' :: ':' :: (v.write ++ r))) =
      some (key.flatMap jsonChar ++ '"' :: ':' :: (v.write ++ r)) := after?_append ['"'] _
  have hcolon : after? [':'] (':' :: (v.write ++ r)) = some (v.write ++ r) := after?_append [':'] _
  unfold member?
  rw [hwrite, skipBlanks_cons rfl]
  simp only [hquote, string?_jsonString, skipBlanks_cons (c := ':') rfl, hcolon,
    value?_write v depth hr, Option.bind_eq_bind, Option.bind_some]
  rfl

/-- **Members**: each is read as it was written, up to the brace behind the last one. -/
lemma items?_jsonMembers (m : Text × JsonScalar) (ms : List (Text × JsonScalar)) (depth : Nat)
    {bound : Nat} (hb : ms.length < bound) (r : Text) :
    items? (member? (value? (depth + 1))) '\x7d' bound
        ((jsonMembers (m :: ms)).drop 1 ++ '\x7d' :: r) =
      some ((m :: ms).map (Prod.map id Value.ofScalar), r) := by
  -- the reader takes one member and a comma at a time
  induction ms generalizing m bound with
  | nil =>
    obtain ⟨bound, rfl⟩ := Nat.exists_eq_succ_of_ne_zero (Nat.ne_of_gt hb)
    have hm := member?_write m.1 m.2 depth (ends_cons (c := '\x7d') (by decide) r)
    have htext : (jsonMembers [m]).drop 1 ++ '\x7d' :: r =
        jsonString m.1 ++ ':' :: m.2.write ++ '\x7d' :: r := by
      simp [jsonMembers]
    rw [htext, items?, hm]
    rfl
  | cons n ms ih =>
    obtain ⟨bound, rfl⟩ := Nat.exists_eq_succ_of_ne_zero (Nat.ne_zero_of_lt hb)
    have hnext : jsonMembers (n :: ms) ++ '\x7d' :: r =
        ',' :: ((jsonMembers (n :: ms)).drop 1 ++ '\x7d' :: r) := rfl
    have hm := member?_write m.1 m.2 depth
      (ends_cons (c := ',') (by decide) ((jsonMembers (n :: ms)).drop 1 ++ '\x7d' :: r))
    have htext : (jsonMembers (m :: n :: ms)).drop 1 ++ '\x7d' :: r =
        jsonString m.1 ++ ':' :: m.2.write ++ (jsonMembers (n :: ms) ++ '\x7d' :: r) := by
      rw [← List.append_assoc]
      rfl
    have hlater := ih n (Nat.lt_of_succ_lt_succ hb)
    rw [htext, hnext, items?, hm]
    show (items? _ _ bound _).map _ = _
    rw [hlater]
    rfl

lemma length_le_jsonMembers (ms : List (Text × JsonScalar)) :
    ms.length ≤ (jsonMembers ms).length := by
  induction ms with
  | nil => exact Nat.le_refl 0
  | cons m ms ih =>
    have hlen : (jsonMembers (m :: ms)).length =
        (jsonString m.1 ++ ':' :: m.2.write ++ jsonMembers ms).length + 1 := rfl
    rw [hlen, List.length_append, List.length_cons]
    omega

lemma value?_brace (depth : Nat) (s : Text) : value? (depth + 1) ('\x7b' :: s) =
    (list? (member? (value? depth)) '\x7d' s).map fun x => (.object x.1, x.2) := rfl

lemma list?_quote {α : Type} (item? : Text → Option (α × Text)) (s : Text) :
    list? item? '\x7d' ('"' :: s) = items? item? '\x7d' (s.length + 1) ('"' :: s) := rfl

/-- **Objects** of strings, numbers and nulls are read as they were written. -/
theorem read_jsonObject (ms : List (Text × JsonScalar)) :
    read (jsonObject ms) = some (.object (ms.map (Prod.map id Value.ofScalar))) := by
  cases ms with
  | nil => rfl
  | cons m ms =>
    have hlength := length_le_jsonMembers ms
    obtain ⟨s, hs, hlen⟩ : ∃ s, (jsonMembers (m :: ms)).drop 1 ++ ['\x7d'] = '"' :: s ∧
        ms.length ≤ s.length := by
      refine ⟨_, rfl, ?_⟩
      simp only [List.length_append, List.length_cons, List.append_eq]
      omega
    have hitems := items?_jsonMembers m ms (s.length + 1) (Nat.lt_succ_of_le hlen) []
    have hvalue : value? (('\x7b' :: '"' :: s).length + 1) ('\x7b' :: '"' :: s) =
        some (.object ((m :: ms).map (Prod.map id Value.ofScalar)), []) := by
      rw [hs] at hitems
      rw [value?_brace, list?_quote]
      show (items? (member? (value? (s.length + 1 + 1))) _ _ _).map _ = _
      rw [hitems]
      rfl
    rw [jsonObject, hs, read, hvalue]
    rfl

end Docroot.Json

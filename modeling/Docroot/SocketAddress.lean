import Docroot.Text.Numeral
import Docroot.Text.Split

/-!
Addresses of sockets: an address of the fourth or the sixth version of the Internet Protocol and a
port number, as they are read and in the one form in which they are written.
-/

namespace Docroot

inductive IpAddress
  | v4 (octets : List Nat)
  | v6 (groups : List Nat) (scope : Nat)
deriving DecidableEq, Repr

structure SocketAddress where
  ip : IpAddress
  portNumber : Nat
deriving DecidableEq, Repr

namespace IpAddress

/-- A number from 0 to 255 without leading zeros. -/
def octet? (s : Text) : Option Nat :=
  (Text.digits? s).filter fun n =>
    decide (n ≤ 255 ∧ s.length ≤ 3) && (s.length == 1 || s.head? != some '0')

def octets? (s : Text) : Option (List Nat) :=
  match Text.splitOn '.' s with
  | [a, b, c, d] => [a, b, c, d].mapM octet?
  | _ => none

/-- One to four hexadecimal digits. -/
def group? (s : Text) : Option Nat :=
  if s.isEmpty || 4 < s.length then none
  else (s.mapM Text.hexDigit?).map fun ds => ds.foldl (fun n d => 16 * n + d) 0

/-- Groups between colons; the last two may be written as four octets. -/
def groups? : List Text → Option (List Nat)
  | [] => some []
  | [s] =>
    match octets? s with
    | some [a, b, c, d] => some [256 * a + b, 256 * c + d]
    | _ => (group? s).map fun g => [g]
  | s :: r => do
    let g ← group? s
    let gs ← groups? r
    pure (g :: gs)

/-- Groups between colons, or none at all. -/
def side? (s : Text) : Option (List Nat) :=
  if s.isEmpty then some [] else groups? (Text.splitOn ':' s)

/-- The parts before and after the first two colons in a row. -/
def cutAtGap : Text → Option (Text × Text)
  | ':' :: ':' :: r => some ([], r)
  | c :: r => (cutAtGap r).map fun p => (c :: p.1, p.2)
  | [] => none

/-- Eight groups; two colons in a row stand for the zero groups that are missing. -/
def eightGroups? (s : Text) : Option (List Nat) :=
  match cutAtGap s with
  | none => (groups? (Text.splitOn ':' s)).filter fun gs => gs.length == 8
  | some (left, right) => do
    if left.contains '.' then none
    let l ← side? left
    let r ← side? right
    if l.length + r.length ≤ 7 then
      pure (l ++ List.replicate (8 - l.length - r.length) 0 ++ r)
    else none

def leadingZeros (gs : List Nat) : Nat := (gs.takeWhile (· == 0)).length

/-- The place and the length of the first longest run of zeros. -/
def longestRun : Nat → List Nat → Nat × Nat
  | _, [] => (0, 0)
  | at_, g :: r =>
    let here := leadingZeros (g :: r)
    let later := longestRun (at_ + 1) r
    if 0 < here ∧ later.2 ≤ here then (at_, here) else later

def writeGroups (gs : List Nat) : Text := Text.joinWith [':'] (gs.map Text.hexadecimal)

def writeOctets (os : List Nat) : Text := Text.joinWith ['.'] (os.map Text.decimal)

/-- The written form of eight groups: the first longest run of two or more zeros is left out, and
an address of the fourth version that is mapped into the sixth keeps its octets. -/
def writeSix (gs : List Nat) : Text :=
  match gs with
  | [0, 0, 0, 0, 0, 0xFFFF, x, y] =>
    "::ffff:".toList ++ writeOctets [x / 256, x % 256, y / 256, y % 256]
  | _ =>
    let run := longestRun 0 gs
    if run.2 ≤ 1 then writeGroups gs
    else writeGroups (gs.take run.1) ++ "::".toList ++ writeGroups (gs.drop (run.1 + run.2))

def write : IpAddress → Text
  | v4 octets => writeOctets octets
  | v6 groups _ => writeSix groups

end IpAddress

namespace SocketAddress

def portNumber? (s : Text) : Option Nat := (Text.digits? s).filter fun n => decide (n ≤ 65535)

/-- What stands between brackets, with a scope behind a percent sign if it has one. -/
def bracketed? (s : Text) : Option IpAddress :=
  match Text.cutAt '%' s with
  | none => (IpAddress.eightGroups? s).map fun gs => .v6 gs 0
  | some (address, scope) => do
    let gs ← IpAddress.eightGroups? address
    let n ← (Text.digits? scope).filter fun n => decide (n ≤ 4294967295)
    pure (.v6 gs n)

/-- `127.0.0.1:80` or `[::1]:80` -/
def parse? : Text → Option SocketAddress
  | '[' :: s => do
    let (inside, rest) ← Text.cutAt ']' s
    let ip ← bracketed? inside
    let portNumber ← (Text.after? [':'] rest).bind portNumber?
    pure ⟨ip, portNumber⟩
  | s => do
    let (address, rest) ← Text.cutAt ':' s
    let octets ← IpAddress.octets? address
    let portNumber ← portNumber? rest
    pure ⟨.v4 octets, portNumber⟩

def write (a : SocketAddress) : Text :=
  match a.ip with
  | .v4 octets => IpAddress.writeOctets octets ++ ':' :: Text.decimal a.portNumber
  | .v6 groups scope =>
    '[' :: (IpAddress.writeSix groups ++ (if scope = 0 then [] else '%' :: Text.decimal scope) ++
      "]:".toList ++ Text.decimal a.portNumber)

end SocketAddress

end Docroot

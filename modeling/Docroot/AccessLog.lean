import Docroot.Decimal
import Docroot.Text.Json
import Docroot.Time.Format

/-!
The access log: one line for each request, in one of three fixed forms or after a pattern in
which variables stand for the parts of the entry.
-/

namespace Docroot

structure AccessEntry where
  remote : Text
  time : Clock
  method : Text
  path : Text
  query : Option Text := none
  version : Text := "1.1".toList
  status : Nat := 200
  bodyBytes : Nat := 0
  encoding : Option Text := none
  referer : Option Text := none
  userAgent : Option Text := none
  micros : Nat := 0
deriving DecidableEq

namespace AccessEntry

/-- The path with the query. -/
def uri (e : AccessEntry) : Text :=
  match e.query with
  | some q => e.path ++ '?' :: q
  | none => e.path

/-- `GET /index.html HTTP/1.1` -/
def requestLine (e : AccessEntry) : Text :=
  e.method ++ ' ' :: (e.uri ++ " HTTP/".toList ++ e.version)

def orDash (t : Option Text) : Text := t.getD ['-']

/-- The seconds that the request took, to three places. -/
def seconds (e : AccessEntry) : Text := Decimal.fixed 3 (Decimal.millionths e.micros)

def common (e : AccessEntry) : Text :=
  e.remote ++ " - - [".toList ++ e.time.logForm ++ "] \"".toList ++ e.requestLine ++ "\" ".toList ++
    Text.decimal e.status ++ ' ' :: Text.decimal e.bodyBytes

def combined (e : AccessEntry) : Text :=
  e.common ++ " \"".toList ++ orDash e.referer ++ "\" \"".toList ++ orDash e.userAgent ++ ['"']

def scalar (t : Option Text) : Text.JsonScalar :=
  match t with
  | some s => .string s
  | none => .null

/-- The members of the object that stands for an entry, in the order of their names. -/
def members (e : AccessEntry) : List (Text × Text.JsonScalar) :=
  [("body_bytes".toList, .number e.bodyBytes),
    ("content_encoding".toList, scalar e.encoding),
    ("http_version".toList, .string e.version),
    ("method".toList, .string e.method),
    ("path".toList, .string e.path),
    ("query".toList, scalar e.query),
    ("referer".toList, scalar e.referer),
    ("remote_addr".toList, .string e.remote),
    ("request_time_us".toList, .number e.micros),
    ("status".toList, .number e.status),
    ("time".toList, .string e.time.isoForm),
    ("user_agent".toList, scalar e.userAgent)]

def json (e : AccessEntry) : Text := Text.jsonObject e.members

/-- The variables of a pattern, in the order in which they are replaced. A variable comes before
every other one whose name its own begins with. -/
def substitutions (e : AccessEntry) : List (Text × Text) :=
  [("$remote_addr".toList, e.remote),
    ("$time_local".toList, e.time.logForm),
    ("$time_iso8601".toList, e.time.isoForm),
    ("$request_time".toList, e.seconds),
    ("$request_method".toList, e.method),
    ("$request_uri".toList, e.uri),
    ("$request".toList, e.requestLine),
    ("$status".toList, Text.decimal e.status),
    ("$body_bytes_sent".toList, Text.decimal e.bodyBytes),
    ("$content_encoding".toList, orDash e.encoding),
    ("$http_referer".toList, orDash e.referer),
    ("$http_user_agent".toList, orDash e.userAgent)]

/-- Replaces the variables of a pattern one after another. -/
def expand (pattern : Text) (e : AccessEntry) : Text :=
  e.substitutions.foldl (fun line v => Text.replace v.1 v.2 line) pattern

/-- The line of an entry: one of the fixed forms, or the form after a pattern. -/
def format (form : Text) (e : AccessEntry) : Text :=
  if form = "combined".toList then e.combined
  else if form = "common".toList then e.common
  else if form = "json".toList then e.json
  else e.expand form

end AccessEntry

end Docroot

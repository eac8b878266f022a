import Docroot.Double.Shortest
import Docroot.Settings.Basic
import Docroot.Settings.Key
import Docroot.SocketAddress

/-!
Loading the settings from their sources. What the environment says goes before what the file says,
and what the two say together before the default values. A value is read as what its setting needs
where that makes sense: a numeral as a number, a number as a text.
-/

namespace Docroot.Settings

/-! ### Reading values -/

namespace Value

def bool? : Value → Option Bool
  | bool b => some b
  | integer i => some (i != 0)
  | float x => some !x.isZero
  | text t =>
    let word := Text.lower t
    if ["1".toList, "true".toList, "on".toList, "yes".toList].contains word then some true
    else if ["0".toList, "false".toList, "off".toList, "no".toList].contains word then some false
    else none
  | _ => none

def word? : Value → Option Nat
  | bool b => some b.toNat
  | integer i => if 0 ≤ i ∧ i.toNat ≤ Text.maxWord then some i.toNat else none
  | float x => some x.toWord
  | text t =>
    let word := Text.lower t
    if ["true".toList, "on".toList, "yes".toList].contains word then some 1
    else if ["false".toList, "off".toList, "no".toList].contains word then some 0
    else Text.word? t
  | _ => none

def portNumber? (v : Value) : Option Nat := v.word?.filter fun n => decide (n ≤ 65535)

def text? : Value → Option Text
  | bool b => some (if b then "true".toList else "false".toList)
  | integer i => some (Text.integer i)
  | float x => some x.write
  | text t => some t
  | _ => none

/-- Nothing, or what `read` makes of the value. -/
def optional? {α : Type} (read : Value → Option α) : Value → Option (Option α)
  | missing => some none
  | v => (read v).map some

def list? {α : Type} (read : Value → Option α) : Value → Option (List α)
  | array vs => vs.mapM read
  | _ => none

/-- Reads a structure, which is written as a table, or as an array with its fields in order. -/
def structure? {α : Type} (read : Value → Option α) : Value → Option α
  | array vs => read (array vs)
  | table ms => read (table ms)
  | _ => none

/-- The field of a structure with a name and a place. -/
def field? (v : Value) (place : Nat) (name : Text) : Option Value :=
  match v with
  | array vs => vs[place]?
  | _ => v.members.lookup name

def required? {α : Type} (v : Value) (place : Nat) (name : Text) (read : Value → Option α) :
    Option α :=
  (v.field? place name).bind read

def orDefault? {α : Type} (v : Value) (place : Nat) (name : Text) (read : Value → Option α)
    (default : α) : Option α :=
  match v.field? place name with
  | none => some default
  | some x => read x

end Value

/-! ### Reading the settings -/

def server? (v : Value) : Option ServerSettings := do
  let host ← v.required? 0 "host".toList Value.text?
  let portNumber ← v.required? 1 "port".toList Value.portNumber?
  let workers ← v.orDefault? 2 "workers".toList (Value.optional? Value.word?) none
  pure { host, portNumber, workers }

def logging? (v : Value) : Option LogSettings := do
  let level ← v.required? 0 "level".toList Value.text?
  let access ← v.required? 1 "access_log".toList Value.bool?
  let accessForm ← v.orDefault? 2 "access_log_format".toList Value.text? "combined".toList
  let accessFile ← v.orDefault? 3 "access_log_file".toList (Value.optional? Value.text?) none
  let errorFile ← v.orDefault? 4 "error_log_file".toList (Value.optional? Value.text?) none
  pure { level, access, accessForm, accessFile, errorFile }

def performance? (v : Value) : Option PerformanceSettings := do
  let keepAliveTimeout ← v.required? 0 "keep_alive_timeout".toList Value.word?
  let readTimeout ← v.required? 1 "read_timeout".toList Value.word?
  let writeTimeout ← v.required? 2 "write_timeout".toList Value.word?
  let maxConnections ← v.orDefault? 3 "max_connections".toList (Value.optional? Value.word?) none
  let bufferSize ← v.orDefault? 4 "output_buffer_size".toList Value.word? 32768
  pure { keepAliveTimeout, readTimeout, writeTimeout, maxConnections, bufferSize }

def format? (v : Value) : Option Format := do
  let extension ← v.required? 0 "extension".toList Value.text?
  let encoding ← v.required? 1 "encoding".toList Value.text?
  let suffix ← v.required? 2 "etag_suffix".toList Value.text?
  pure { extension, encoding, suffix }

def resources? (v : Value) : Option ResourceSettings := do
  let d : ResourceSettings := {}
  let root ← v.orDefault? 0 "root".toList Value.text? d.root
  let tags ← v.orDefault? 1 "etags".toList Value.bool? d.tags
  let listings ← v.orDefault? 2 "dir_allowed".toList Value.bool? d.listings
  let ranges ← v.orDefault? 3 "accept_ranges".toList Value.bool? d.ranges
  let cacheControl ← v.orDefault? 4 "cache_control".toList (Value.optional? Value.text?)
    d.cacheControl
  let gzipExtensions ← v.orDefault? 5 "gzip_equivalent_extensions".toList
    (Value.list? Value.text?) d.gzipExtensions
  let welcomeFiles ← v.orDefault? 6 "welcome_files".toList (Value.list? Value.text?)
    d.welcomeFiles
  let redirectWelcome ← v.orDefault? 7 "redirect_welcome".toList Value.bool? d.redirectWelcome
  let formats ← v.orDefault? 8 "precompressed".toList (Value.list? (Value.structure? format?))
    d.formats
  let negotiationCapacity ← v.orDefault? 9 "encoding_cache_size".toList Value.word?
    d.negotiationCapacity
  let preferredEncodings ← v.orDefault? 10 "preferred_encoding_order".toList
    (Value.list? Value.text?) d.preferredEncodings
  pure { root, tags, listings, ranges, cacheControl, gzipExtensions, welcomeFiles, redirectWelcome,
         formats, negotiationCapacity, preferredEncodings }

/-- The settings that a table of all four parts stands for. -/
def ofValue? (v : Value) : Option Settings := do
  let server ← v.required? 0 "server".toList (Value.structure? server?)
  let logging ← v.required? 1 "logging".toList (Value.structure? logging?)
  let performance ← v.required? 2 "performance".toList (Value.structure? performance?)
  let resources ← v.orDefault? 3 "resources".toList (Value.structure? resources?) {}
  pure { server, logging, performance, resources }

/-! ### The sources -/

def defaults : List (Text × Value) :=
  let d : Settings := {}
  [("server.host".toList, .text d.server.host),
    ("server.port".toList, .integer d.server.portNumber),
    ("logging.level".toList, .text d.logging.level),
    ("logging.access_log".toList, .bool d.logging.access),
    ("performance.keep_alive_timeout".toList, .integer d.performance.keepAliveTimeout),
    ("performance.read_timeout".toList, .integer d.performance.readTimeout),
    ("performance.write_timeout".toList, .integer d.performance.writeTimeout),
    ("performance.output_buffer_size".toList, .integer d.performance.bufferSize),
    ("resources.root".toList, .text d.resources.root)]

/-- Whether an environment can hold a variable, given with its value. -/
def isBinding (x : Text × Text) : Bool :=
  !x.1.isEmpty && !x.1.contains '=' && !x.1.contains '\x00' && !x.2.contains '\x00'

/-- The variables of an environment in which values were set one after the other, if it can hold
them all. A variable keeps its place when it is set again. -/
def environment? (assignments : List (Text × Text)) : Option (List (Text × Text)) :=
  if assignments.all isBinding then
    some (assignments.foldl (fun bindings x => putMember x.1 x.2 bindings) [])
  else none

/-- What the name of a variable of the environment begins with, in either case of its letters. -/
def variableStart : Text := "server_".toList

/-- What the environment says: `SERVER_RESOURCES__ROOT` stands for `resources.root`. -/
def ofEnvironment (bindings : List (Text × Text)) : List (Text × Value) :=
  bindings.filterMap fun x =>
    (Text.after? variableStart (foldName x.1)).map fun name =>
      (Text.replace "__".toList ['.'] name, .text x.2)

def setAll? (v : Value) (source : List (Text × Value)) : Option Value :=
  source.foldlM (fun v x => Value.setAt? x.2 (Key.steps x.1) v) v

/-- What the file and the environment say together. -/
def sources? (file : List (Text × Value)) (bindings : List (Text × Text)) : Option Value :=
  (setAll? (.table []) file).bind fun v => setAll? v (ofEnvironment bindings)

def merged? (file : List (Text × Value)) (bindings : List (Text × Text)) : Option Value := do
  let given ← sources? file bindings
  let v ← setAll? (.table []) defaults
  setAll? v given.members

inductive LoadError
  /-- A key leads to an element that there cannot be. -/
  | noElement
  /-- A setting is missing, or its value makes no sense. -/
  | unreadable
deriving DecidableEq

/-- The settings, given the members of the settings file and the variables of the environment. -/
def load (file : List (Text × Value)) (bindings : List (Text × Text)) :
    Except LoadError Settings :=
  match merged? file bindings with
  | none => .error .noElement
  | some v =>
    match ofValue? v with
    | none => .error .unreadable
    | some s => .ok s

def address? (s : Settings) : Option SocketAddress :=
  SocketAddress.parse? (s.server.host ++ ':' :: Text.decimal s.server.portNumber)

def noAddress : Text := "Invalid address: invalid socket address syntax".toList

end Docroot.Settings

import Docroot.Negotiator
import Docroot.Representation

/-!
The settings of the server and their default values.
-/

namespace Docroot

structure ServerSettings where
  host : Text := "127.0.0.1".toList
  portNumber : Nat := 8080
  workers : Option Nat := none
deriving DecidableEq

structure LogSettings where
  level : Text := "info".toList
  access : Bool := true
  accessForm : Text := "combined".toList
  accessFile : Option Text := none
  errorFile : Option Text := none
deriving DecidableEq

structure PerformanceSettings where
  keepAliveTimeout : Nat := 75
  readTimeout : Nat := 30
  writeTimeout : Nat := 30
  maxConnections : Option Nat := none
  bufferSize : Nat := 32768
deriving DecidableEq

structure ResourceSettings where
  root : Text := "./static".toList
  tags : Bool := true
  listings : Bool := true
  ranges : Bool := true
  cacheControl : Option Text := none
  gzipExtensions : List Text := [".svgz".toList]
  welcomeFiles : List Text := ["index.html".toList]
  redirectWelcome : Bool := false
  formats : List Format := Format.defaults
  negotiationCapacity : Nat := Negotiator.defaultCapacity
  preferredEncodings : List Text := []
deriving DecidableEq

structure Settings where
  server : ServerSettings := {}
  logging : LogSettings := {}
  performance : PerformanceSettings := {}
  resources : ResourceSettings := {}
deriving DecidableEq

namespace Settings

/-- The `Cache-Control` value; a text that cannot stand in a header is told of and left out. -/
def cacheControl {ε : Type} (s : Settings) : Logged ε (Option Bytes) :=
  match s.resources.cacheControl with
  | none => pure none
  | some text =>
    match Headers.value? text with
    | some v => pure (some v)
    | none => ⟨.ok none, [.ignoredCacheControl text]⟩

def options {ε : Type} (s : Settings) : Logged ε Options := do
  let cacheControl ← s.cacheControl
  pure
    { tags := s.resources.tags
      listings := s.resources.listings
      ranges := s.resources.ranges
      redirectWelcome := s.resources.redirectWelcome
      cacheControl
      gzipExtensions := s.resources.gzipExtensions
      bufferSize := s.performance.bufferSize }

/-- The server's preference among codings: that of the settings, else the order of the formats. -/
def preference (s : Settings) : List Text :=
  if s.resources.preferredEncodings.isEmpty then s.resources.formats.map Format.encoding
  else s.resources.preferredEncodings

end Settings

end Docroot

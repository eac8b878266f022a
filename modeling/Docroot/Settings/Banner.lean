import Docroot.Settings.Basic
import Docroot.SocketAddress

/-!
The lines that tell of the start of the server and of its connections.
-/

namespace Docroot.Banner

def rule : Text := List.replicate 38 '='

def bare (text : Text) : LogLine := ⟨.bare, text⟩

def setting (label : Text) (value : Option Text) : List LogLine :=
  (value.map fun v => bare (label ++ ": ".toList ++ v)).toList

/-- What the server writes when it has started. -/
def lines (address : SocketAddress) (s : Settings) : List LogLine :=
  [bare rule, bare "File server started successfully".toList,
    bare ("Listening on: http://".toList ++ address.write)] ++
  setting "Document root".toList (some s.resources.root) ++
  setting "Log level".toList (some s.logging.level) ++
  setting "Worker threads".toList (s.server.workers.map Text.decimal) ++
  setting "Precompressed formats".toList
    (if s.resources.formats.isEmpty then none
      else some (Text.joinWith ", ".toList (s.resources.formats.map Format.encoding))) ++
  setting "Access log".toList s.logging.accessFile ++
  setting "Error log".toList s.logging.errorFile ++
  [bare (rule ++ ['\n'])]

def accepted (peer : SocketAddress) : LogLine :=
  ⟨.debug, "[Connection] Accepted from: ".toList ++ peer.write⟩

def connectionFailed (reason : Text) : LogLine :=
  ⟨.error, "Failed to serve connection: ".toList ++ Text.quoted reason⟩

end Docroot.Banner

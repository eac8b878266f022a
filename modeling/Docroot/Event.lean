import Docroot.IoError
import Docroot.Status
import Docroot.Text.Quoted

/-!
What happens while requests are answered, and the log lines that tell of it. Messages and access
lines go to one stream, warnings and errors to another; debug messages are written on demand.
-/

namespace Docroot

inductive Level
  | debug
  | info
  | warning
  | error
  | bare
deriving DecidableEq

/-- A log line; a bare one has no label. -/
structure LogLine where
  level : Level
  text : Text
deriving DecidableEq

namespace Level

def label : Level → Text
  | debug => "[DEBUG] ".toList
  | info => "[INFO] ".toList
  | warning => "[WARN] ".toList
  | error => "[ERROR] ".toList
  | bare => []

/-- Whether lines of the level go to the error stream. -/
def isTrouble : Level → Bool
  | warning => true
  | error => true
  | _ => false

/-- Whether the name of a log level asks for debug messages. -/
def asksForDebug (name : Text) : Bool :=
  Text.lower name == "debug".toList || Text.lower name == "trace".toList

end Level

namespace LogLine

def write (l : LogLine) : Text := l.level.label ++ (l.text ++ ['\n'])

def messages (debug : Bool) (lines : List LogLine) : Text :=
  (lines.filter fun l => !l.level.isTrouble && (debug || l.level != .debug)).flatMap write

def troubles (lines : List LogLine) : Text :=
  (lines.filter fun l => l.level.isTrouble).flatMap write

end LogLine

/-- What is done with the welcome file of a directory. -/
inductive WelcomeAction
  | redirect (location : Text)
  | serve (path : Text)
deriving DecidableEq

def WelcomeAction.describe : WelcomeAction → Text
  | .redirect location => "Redirect(".toList ++ Text.quoted location ++ [')']
  | .serve path => "Serve(".toList ++ Text.quoted path ++ [')']

inductive Event
  | rejectedPath (raw : Text)
  | aliasRejected (path location : Text)
  | serveFailed (path : Text) (failure : Failure)
  | redirectedDirectory (path location : Text)
  | notModified (path : Text)
  | preconditionFailed (path : Text)
  | servedVariant (encoding path : Text)
  | welcome (path : Text) (action : WelcomeAction)
  | served (path : Text) (status segments : Nat)
  | notFound (raw : Text)
  | methodNotAllowed (method : Text)
  | droppedHeader (name value : Text)
  | unbuildableReply (status : Nat)
  | ignoredCacheControl (value : Text)
  | clientGone
  | streamFailed (cause : IoError)
  | access (line : Text)
deriving DecidableEq

def Event.line : Event → LogLine
  | .rejectedPath raw => ⟨.warning, "Rejected request path: ".toList ++ raw⟩
  | .aliasRejected path location =>
    ⟨.warning, "Alias rejected: ".toList ++ path ++ " -> ".toList ++ location⟩
  | .serveFailed path failure =>
    ⟨.error, "Failed to serve resource ".toList ++ path ++ ": ".toList ++ failure.message⟩
  | .redirectedDirectory path location =>
    ⟨.debug, "Redirecting directory ".toList ++ path ++ " to ".toList ++ location⟩
  | .notModified path => ⟨.debug, "Not modified: ".toList ++ path⟩
  | .preconditionFailed path => ⟨.debug, "Precondition failed: ".toList ++ path⟩
  | .servedVariant encoding path =>
    ⟨.debug, "Serving ".toList ++ encoding ++ " variant of ".toList ++ path⟩
  | .welcome path action =>
    ⟨.debug, "Welcome for ".toList ++ path ++ ": ".toList ++ action.describe⟩
  | .served path status segments =>
    ⟨.debug, "Serving ".toList ++ path ++ " as ".toList ++ Status.line status ++ " (".toList ++
      Text.decimal segments ++ " segment(s))".toList⟩
  | .notFound raw => ⟨.debug, "Not found: ".toList ++ raw⟩
  | .methodNotAllowed method => ⟨.warning, "Method not allowed: ".toList ++ method⟩
  | .droppedHeader name value =>
    ⟨.warning, "Dropping invalid ".toList ++ name ++ " header value: ".toList ++ Text.quoted value⟩
  | .unbuildableReply status =>
    ⟨.error, "Failed to build ".toList ++ Text.decimal status ++
      " response: failed to parse header value".toList⟩
  | .ignoredCacheControl value =>
    ⟨.warning, "Ignoring invalid cache_control: ".toList ++ Text.quoted value⟩
  | .clientGone => ⟨.debug, "Client went away, abandoning body copy".toList⟩
  | .streamFailed cause => ⟨.error, "Failed to stream resource body: ".toList ++ cause.message⟩
  | .access line => ⟨.bare, line⟩

end Docroot

import Docroot.AccessLog
import Docroot.Listing
import Docroot.Lookup.Compressed
import Docroot.Lookup.File
import Docroot.Lookup.Welcome
import Docroot.Service
import Docroot.Settings.Basic

/-!
A site: a document root in a tree, served as the settings say. Requests with other methods than
`GET`, `HEAD` and `OPTIONS` are refused, and a request for what is not there is answered by 404.
-/

namespace Docroot

structure Site where
  /-- The absolute name, free of links, of the document root. -/
  root : Text
  settings : Settings
  options : Options
deriving DecidableEq

/-- What of a request the answer itself does not depend on. -/
structure Arrival where
  remote : Text
  version : Text := "1.1".toList
  time : Clock := { seconds := 0 }
  /-- How many microseconds the answer took. -/
  micros : Nat := 0
deriving DecidableEq

namespace Site

def openIn (t : Tree) (settings : Settings) : Logged IoError Site := do
  let root ← Logged.ofExcept (FileLookup.openRoot t settings.resources.root)
  let options ← settings.options
  pure { root, settings, options }

def negotiator (site : Site) : Negotiator :=
  Negotiator.new site.settings.preference site.settings.resources.negotiationCapacity

def files (site : Site) (t : Tree) : Lookup :=
  FileLookup.lookup t site.root (FileLookup.contained site.root)

/-- Files below the root with their compressed forms, and directories with their welcome files. -/
def lookup (site : Site) (t : Tree) : Lookup :=
  WelcomeLookup.lookup (CompressedLookup.lookup (site.files t) site.settings.resources.formats)

def service (site : Site) (t : Tree) : Service where
  lookup := site.lookup t
  welcome := fun path directory =>
    WelcomeLookup.target t path directory site.settings.resources.welcomeFiles
  listing := Listing.ofTree t
  options := site.options

/-- The reply to a method that is not answered by a resource. -/
def methodReply (method : Text) : Option (Logged Abandoned Reply) :=
  if method = Service.get ∨ method = Service.head then none
  else if method = "OPTIONS".toList then some (pure Reply.options)
  else some ⟨.ok Reply.methodNotAllowed, [.methodNotAllowed method]⟩

def orNotFound (raw : Text) (x : Logged Abandoned (Option Reply)) : Logged Abandoned Reply := do
  match ← x with
  | some reply => pure reply
  | none => do
    Logged.tell (.notFound raw)
    pure (Reply.ofStatus 404)

def respond (site : Site) (t : Tree) (boundary : Text) (r : Request) (n : Negotiator) :
    Logged Abandoned Reply × Negotiator :=
  match methodReply r.method with
  | some reply => (reply, n)
  | none =>
    let x := (site.service t).serve boundary r n
    (orNotFound r.path x.1, x.2)

def accessEntry (arrival : Arrival) (r : Request) (reply : Reply) : AccessEntry where
  remote := arrival.remote
  time := arrival.time
  method := r.method
  path := r.path
  query := r.query
  version := arrival.version
  status := reply.status
  bodyBytes := ((reply.headers.text? HeaderName.contentLength).bind Text.word?).getD 0
  encoding := reply.headers.text? HeaderName.contentEncoding
  referer := r.headers.text? HeaderName.referer
  userAgent := r.headers.text? HeaderName.userAgent
  micros := arrival.micros

def logAccess (site : Site) (arrival : Arrival) (r : Request) (reply : Reply) :
    Logged Abandoned Reply :=
  if site.settings.logging.access then do
    Logged.tell (.access ((accessEntry arrival r reply).format site.settings.logging.accessForm))
    pure reply
  else pure reply

/-- Answers a request and keeps the access log. -/
def handle (site : Site) (t : Tree) (boundary : Text) (arrival : Arrival) (r : Request)
    (n : Negotiator) : Logged Abandoned Reply × Negotiator :=
  let x := site.respond t boundary r n
  (x.1 >>= site.logAccess arrival r, x.2)

end Site

end Docroot

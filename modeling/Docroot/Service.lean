import Docroot.Delivery
import Docroot.Path.Request
import Docroot.Precondition
import Docroot.Serving

/-!
Answering requests for resources. The path is made regular and looked up; a directory asked for
without a slash at its end, and a file asked for with one, are redirected; preconditions are
looked at; then the resource is sent, in a compressed form if the client prefers one. A directory
is answered by its welcome file or, if it has none, by a listing.
-/

namespace Docroot

structure Request where
  method : Text
  path : Text
  query : Option Text
  headers : Headers
deriving DecidableEq

/-- Where resources come from, and the switches. -/
structure Service where
  lookup : Lookup
  /-- The path of the welcome file of a directory, given the path of the directory. -/
  welcome : Text → Resource → Except IoError (Option Text)
  /-- The page that lists a directory, given its written path, whether it has a parent, and the
  query; none for a directory that cannot be listed. -/
  listing : Resource → Text → Bool → Option Text → Except Abort (Option Text)
  options : Options

/-- A request whose path is regular. -/
structure Inquiry where
  path : Text
  query : Option Text
  headers : Headers
  headOnly : Bool
  /-- The delimiter of the parts, should several be sent. -/
  boundary : Text
deriving DecidableEq

/-- The work on a request was given up: a modification time has no written form. -/
structure Abandoned where
deriving DecidableEq

namespace Service

variable (s : Service)

/-- The reply that preconditions call for in place of the resource, if they do. -/
def intercepted (q : Inquiry) (resource : Resource) : Serving (Option Reply) := do
  let verdict := Precondition.evaluate q.headers resource s.options.tags
  match ← Serving.lift (Logged.ofExcept verdict) with
  | .proceed => pure none
  | .notModified tag => do
    Serving.tell (.notModified q.path)
    let reply ← Serving.lift (Reply.notModified tag)
    pure (some reply)
  | .failed => do
    Serving.tell (.preconditionFailed q.path)
    pure (some (Reply.ofStatus 412))

def deliver (q : Inquiry) (resource : Resource) (d : Draft) : Serving Reply :=
  Serving.lift <| Delivery.deliver s.options q.boundary q.headOnly q.path
    (q.headers.lines HeaderName.range) resource d

/-- The form that the first accepted coding names which names one. -/
def chosen (order : List Text) (variants : List Variant) : Option Variant :=
  order.findSome? fun token => Variant.select? token variants

/-- Sends a resource that is not a directory, in the form that the client prefers. -/
def send (q : Inquiry) (found : Found) (d : Draft) : Serving Reply :=
  match found.kind with
  | .compressible variants => do
    let d := d.append HeaderName.vary (Text.utf8 "Accept-Encoding".toList)
    let order ← Serving.preferred (q.headers.lines HeaderName.acceptEncoding)
    match chosen order variants with
    | some v => do
      Serving.tell (.servedVariant v.format.encoding q.path)
      deliver s q v.resource (Representation.presentAsBase found.resource v.format d)
    | none => deliver s q found.resource d
  | _ => deliver s q found.resource d

/-- Looks at the preconditions and sends the resource; `path` decides whether it is gzip data. -/
def answerFile (q : Inquiry) (path : Text) (found : Found) : Serving Reply := do
  match ← intercepted s q found.resource with
  | some reply => pure reply
  | none => send s q found (Representation.markGzip s.options path {})

def answerListing (q : Inquiry) (directory : Resource) : Serving Reply := do
  if !s.options.listings then pure (Reply.ofStatus 403)
  else
    match ← Serving.lift (Logged.ofExcept
        (s.listing directory (RequestPath.encode q.path) (1 < q.path.length) q.query)) with
    | none => pure (Reply.ofStatus 403)
    | some page =>
      let data := Text.utf8 page
      pure ⟨200,
        [(HeaderName.contentType, Text.utf8 "text/html; charset=utf-8".toList),
          (HeaderName.contentLength, Reply.numeral data.length)],
        if q.headOnly then .empty else .full data⟩

/-- Sends the welcome file at `target` for the directory of the request. -/
def answerTarget (q : Inquiry) (target : Text) : Serving Reply := do
  match ← Serving.reading (s.lookup target) with
  | none => pure (Reply.ofStatus 404)
  | some found =>
    if found.resource.isDirectory then pure (Reply.ofStatus 403) else answerFile s q target found

def welcomeAction (q : Inquiry) (target : Text) : WelcomeAction :=
  if s.options.redirectWelcome then
    .redirect (RequestPath.withQuery (RequestPath.encode target) q.query)
  else .serve target

def answerDirectory (q : Inquiry) (directory : Resource) : Serving Reply := do
  match ← Serving.reading (Logged.ofExcept (s.welcome q.path directory)) with
  | none => do
    -- a directory has preconditions of its own only where it is listed
    match ← intercepted s q directory with
    | some reply => pure reply
    | none => answerListing s q directory
  | some target => do
    let action := welcomeAction s q target
    Serving.tell (.welcome q.path action)
    match action with
    | .redirect location => Serving.lift (Reply.redirect location)
    | .serve target => answerTarget s q target

/-- Answers a directory that is not marked for a welcome file as any other resource. -/
def answerMarked (q : Inquiry) (found : Found) (d : Draft) : Serving Reply :=
  match found.kind with
  | .welcome => answerDirectory s q found.resource
  | _ => send s q found d

def answer (q : Inquiry) (found : Found) : Serving Reply := do
  let directoryForm := ['/'].isSuffixOf q.path
  if found.resource.isDirectory then
    if !directoryForm then do
      let location := RequestPath.withQuery (RequestPath.encode q.path ++ ['/']) q.query
      Serving.tell (.redirectedDirectory q.path location)
      Serving.lift (Reply.redirect location)
    else answerMarked s q found {}
  else if directoryForm && decide (1 < q.path.length) then
    let location := RequestPath.withQuery (RequestPath.encode q.path.dropLast) q.query
    Serving.lift (Reply.redirect location)
  else
    match ← intercepted s q found.resource with
    | some reply => pure reply
    | none => answerMarked s q found (Representation.markGzip s.options q.path {})

/-- Answers an inquiry; none if there is no such resource. -/
def inquire (q : Inquiry) : Serving (Option Reply) := do
  match ← Serving.reading (s.lookup q.path) with
  | none => pure none
  | some found => do
    let reply ← answer s q found
    pure (some reply)

/-- Turns a failure into the reply that tells of it. -/
def settle (path : Text) (x : Logged Abort (Option Reply)) : Logged Abandoned (Option Reply) :=
  match x.result with
  | .ok reply => ⟨.ok reply, x.events⟩
  | .error (.failed f) => ⟨.ok (some (Reply.ofFailure f)), x.events ++ [.serveFailed path f]⟩
  | .error .undatable => ⟨.error ⟨⟩, x.events⟩

def get : Text := "GET".toList

def head : Text := "HEAD".toList

/-- The inquiry of a request with the method `GET` or `HEAD`, if its path is regular. -/
def inquiry? (boundary : Text) (r : Request) : Option Inquiry :=
  (RequestPath.normalize? r.path).map fun path =>
    { path, query := r.query, headers := r.headers, headOnly := r.method == head, boundary }

/-- Serves a request: none if the method is another one or if there is no such resource. -/
def serve (boundary : Text) (r : Request) (n : Negotiator) :
    Logged Abandoned (Option Reply) × Negotiator :=
  if r.method = get ∨ r.method = head then
    match inquiry? boundary r with
    | none => (⟨.ok none, [.rejectedPath r.path]⟩, n)
    | some q => (settle q.path (inquire s q n).work, (inquire s q n).negotiator)
  else (pure none, n)

end Service

end Docroot

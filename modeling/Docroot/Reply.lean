import Docroot.ByteRange.Basic
import Docroot.Header.Draft

/-!
Replies. The body of a reply is held in memory or is still to be copied from a file, piece by
piece. The replies that do not depend on a resource stand here.
-/

namespace Docroot

/-- A piece of a body. -/
inductive Segment
  | literal (data : Bytes)
  | range (r : ByteRange)
  | all
deriving DecidableEq

inductive Body
  | empty
  | full (data : Bytes)
  | file (path : Text) (segments : List Segment) (bufferSize : Nat)
deriving DecidableEq

structure Reply where
  status : Nat
  headers : Headers
  body : Body
deriving DecidableEq

namespace Reply

def plainText : Bytes := Text.utf8 "text/plain".toList

def allowedMethods : Bytes := Text.utf8 "GET, HEAD, OPTIONS".toList

def numeral (n : Nat) : Bytes := Text.utf8 (Text.decimal n)

/-- A short message to the reader of the reply. -/
def message (status : Nat) (text : Text) : Reply where
  status := status
  headers := [(HeaderName.contentType, plainText),
    (HeaderName.contentLength, numeral (Text.utf8 text).length)]
  body := .full (Text.utf8 text)

def ofStatus (status : Nat) : Reply := message status (Status.line status)

def badRequest (reason : Text) : Reply := message 400 (Status.line 400 ++ ": ".toList ++ reason)

def methodNotAllowed : Reply where
  status := 405
  headers := [(HeaderName.contentType, plainText), (HeaderName.allow, allowedMethods)]
  body := .full (Text.utf8 (Status.line 405))

def options : Reply where
  status := 204
  headers := [(HeaderName.allow, allowedMethods)]
  body := .empty

/-- A reply without body and with one more field, which is left out when its text cannot stand in
a header. -/
def withField {ε : Type} (status : Nat) (name value : Text) (headers : Headers) : Logged ε Reply :=
  match Headers.value? value with
  | some v => ⟨.ok ⟨status, (name, v) :: headers, .empty⟩, []⟩
  | none => ⟨.ok ⟨status, headers, .empty⟩, [.unbuildableReply status]⟩

/-- The content has not changed; the tag of the request that stands for it is sent back. -/
def notModified {ε : Type} : Option Text → Logged ε Reply
  | none => pure ⟨304, [], .empty⟩
  | some tag => withField 304 HeaderName.etag tag []

def redirect {ε : Type} (location : Text) : Logged ε Reply :=
  withField 302 HeaderName.location location [(HeaderName.contentLength, numeral 0)]

theorem result_withField {ε : Type} (status : Nat) (name value : Text) (headers : Headers) :
    (withField status name value headers : Logged ε Reply).result =
      .ok ⟨status, ((Headers.value? value).map fun v => (name, v)).toList ++ headers, .empty⟩ := by
  unfold withField
  cases Headers.value? value <;> rfl

def ofFailure : Failure → Reply
  | .malformedPrecondition _ => badRequest "malformed precondition header".toList
  | .io _ => ofStatus 500

end Reply

end Docroot

import Docroot.IoError

/-!
The stream of a body between the side that writes it and the side that sends it on. A streamed
body holds at most four items that are not yet received; an empty chunk is no item.
-/

namespace Docroot.Channel

/-- An item on its way: a chunk or the failure that ends the body. -/
inductive Item
  | chunk (data : Bytes)
  | failure (cause : IoError)
deriving DecidableEq

/-- A body as its receiver holds it. -/
inductive Stream
  | empty
  | full (data : Option Bytes)
  | queue (items : List Item)
deriving DecidableEq

/-- Both sides: the body, none once it is dropped, and whether there is still a sender. -/
structure State where
  stream : Option Stream
  sender : Bool
deriving DecidableEq

inductive Step
  | send (data : Bytes)
  | fail (cause : IoError)
  | close
  | drop
  | receive
deriving DecidableEq

inductive Answer
  | done
  | pending
  | noSender
  | noBody
  | finished
  | item (i : Item)
  | error (cause : IoError)
deriving DecidableEq

/-- The greatest number of items that are not yet received. -/
def bound : Nat := 4

def ofStream (stream : Stream) : State := ⟨some stream, stream matches .queue _⟩

/-- Hands an item to the receiver. An item for which there is no room is given up. -/
def offer (i : Item) (s : State) : Answer × State :=
  match s.stream with
  | some (.queue items) =>
    if items.length < bound then (.done, { s with stream := some (.queue (items ++ [i])) })
    else (.pending, s)
  | _ => (.error .receiverGone, s)

def send (data : Bytes) (s : State) : Answer × State :=
  if !s.sender then (.noSender, s)
  else if data.isEmpty then (.done, s)
  else offer (.chunk data) s

/-- Reports a failure; nobody hears of it when the receiver is gone. -/
def fail (cause : IoError) (s : State) : Answer × State :=
  if !s.sender then (.noSender, s)
  else match offer (.failure cause) s with
    | (.error _, s) => (.done, s)
    | r => r

def receive (s : State) : Answer × State :=
  match s.stream with
  | none => (.noBody, s)
  | some .empty => (.finished, s)
  | some (.full none) => (.finished, s)
  | some (.full (some data)) => (.item (.chunk data), { s with stream := some (.full none) })
  | some (.queue (i :: r)) => (.item i, { s with stream := some (.queue r) })
  -- an empty queue is over only when no sender is left
  | some (.queue []) => (if s.sender then .pending else .finished, s)

def step (s : State) : Step → Answer × State
  | .send data => send data s
  | .fail cause => fail cause s
  | .close => (.done, { s with sender := false })
  | .drop => (.done, { s with stream := none })
  | .receive => receive s

def run (s : State) : List Step → List Answer
  | [] => []
  | x :: r => (step s x).1 :: run (step s x).2 r

namespace Stream

/-- Whether the body says of itself that nothing is left. -/
def atEnd : Stream → Bool
  | empty => true
  | full data => data.isNone
  | queue _ => false

/-- The least and, if there is one, the greatest number of bytes that are left. -/
def sizeHint : Stream → Nat × Option Nat
  | empty => (0, some 0)
  | full none => (0, some 0)
  | full (some data) => (data.length, some data.length)
  | queue _ => (0, none)

end Stream

end Docroot.Channel

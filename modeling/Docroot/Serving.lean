import Docroot.Logged
import Docroot.Negotiator

/-!
Work on a request that may also use the memory of the negotiator. What the memory learns is kept
when the work stops.
-/

namespace Docroot

structure Outcome (α : Type) where
  work : Logged Abort α
  negotiator : Negotiator

def Serving (α : Type) : Type := Negotiator → Outcome α

namespace Serving

variable {α β : Type}

protected def pure (a : α) : Serving α := fun n => ⟨pure a, n⟩

protected def bind (x : Serving α) (f : α → Serving β) : Serving β := fun n =>
  match (x n).work.result with
  | .ok a =>
    let y := f a (x n).negotiator
    ⟨⟨y.work.result, (x n).work.events ++ y.work.events⟩, y.negotiator⟩
  | .error e => ⟨⟨.error e, (x n).work.events⟩, (x n).negotiator⟩

instance : Monad Serving where
  pure := Serving.pure
  bind := Serving.bind

/-- Work that does not use the memory. -/
def lift (x : Logged Abort α) : Serving α := fun n => ⟨x, n⟩

/-- Reading that may fail. -/
def reading (x : Logged IoError α) : Serving α := lift (x.mapError fun e => .failed (.io e))

def tell (e : Event) : Serving Unit := lift (Logged.tell e)

/-- Asks the negotiator for the codings that some header lines accept. -/
def preferred (lines : List Text) : Serving (List Text) := fun n =>
  ⟨pure (n.order lines).1, (n.order lines).2⟩

end Serving

end Docroot

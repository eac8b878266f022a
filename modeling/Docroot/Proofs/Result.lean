import Mathlib.Tactic.Common
import Docroot.Serving

/-!
What is left of work when nobody looks at its events: a result, or the reason for which there is
none, and what the memory of the negotiator has learnt.
-/

namespace Docroot

section Results

variable {ε ε' α β : Type}

lemma exists_of_map_eq_ok {x : Except ε α} {f : α → β} {b : β} (h : x.map f = .ok b) :
    ∃ a, x = .ok a ∧ f a = b := by
  cases x with
  | error e => cases h
  | ok a => exact ⟨a, rfl, Except.ok.inj h⟩

lemma ok_of_mapError_eq_ok {x : Except ε α} {f : ε → ε'} {a : α} (h : x.mapError f = .ok a) :
    x = .ok a := by
  cases x with
  | error e => cases h
  | ok b => exact congrArg _ (Except.ok.inj h)

/-- If there is no result, it is for a reason of this kind. -/
def StopsFor (Q : ε → Prop) (x : Except ε α) : Prop := ∀ e, x = .error e → Q e

namespace StopsFor

variable {Q : ε → Prop} {x : Except ε α}

lemma ok (a : α) : StopsFor Q (.ok a) := by
  intro e h
  cases h

lemma error {e : ε} (h : Q e) : StopsFor Q (.error e : Except ε α) := by
  intro e' h'
  cases h'
  exact h

lemma bind {f : α → Except ε β} (hx : StopsFor Q x) (hf : ∀ a, x = .ok a → StopsFor Q (f a)) :
    StopsFor Q (x >>= f) := by
  cases x with
  | error e => exact error (hx e rfl)
  | ok a => exact hf a rfl

lemma map (hx : StopsFor Q x) (f : α → β) : StopsFor Q (x.map f) := by
  cases x with
  | error e => exact error (hx e rfl)
  | ok a => exact ok (f a)

lemma mapError (hx : StopsFor Q x) {f : ε → ε'} {R : ε' → Prop} (h : ∀ e, Q e → R (f e)) :
    StopsFor R (x.mapError f) := by
  cases x with
  | error e => exact error (h e (hx e rfl))
  | ok a => exact ok a

end StopsFor

end Results

namespace Serving

variable {α β : Type}

def run (x : Serving α) (n : Negotiator) : Except Abort α × Negotiator :=
  ((x n).work.result, (x n).negotiator)

@[simp] lemma run_pure (a : α) (n : Negotiator) : run (pure a) n = (.ok a, n) := rfl

@[simp] lemma run_lift (x : Logged Abort α) (n : Negotiator) : run (lift x) n = (x.result, n) := rfl

@[simp] lemma run_tell (e : Event) (n : Negotiator) : run (tell e) n = (.ok (), n) := rfl

@[simp] lemma run_reading (x : Logged IoError α) (n : Negotiator) :
    run (reading x) n = (x.result.mapError fun e => .failed (.io e), n) := rfl

@[simp] lemma run_preferred (lines : List Text) (n : Negotiator) :
    run (preferred lines) n = (.ok (n.order lines).1, (n.order lines).2) := rfl

lemma run_bind (x : Serving α) (f : α → Serving β) (n : Negotiator) :
    run (x >>= f) n = match run x n with
      | (.ok a, m) => run (f a) m
      | (.error e, m) => (.error e, m) := by
  show run (Serving.bind x f) n = _
  unfold run Serving.bind
  cases (x n).work.result <;> rfl

lemma run_bind_ok {x : Serving α} {f : α → Serving β} {n m : Negotiator} {a : α}
    (h : run x n = (.ok a, m)) : run (x >>= f) n = run (f a) m := by
  rw [run_bind, h]

end Serving

end Docroot

import Docroot.Event

/-!
Work that may stop early and that tells what happens on its way. The events of a step that stops
are kept.
-/

namespace Docroot

structure Logged (ε α : Type) where
  result : Except ε α
  events : List Event

namespace Logged

variable {ε ε' α β : Type}

protected def pure (a : α) : Logged ε α := ⟨.ok a, []⟩

protected def bind (x : Logged ε α) (f : α → Logged ε β) : Logged ε β :=
  match x.result with
  | .ok a => ⟨(f a).result, x.events ++ (f a).events⟩
  | .error e => ⟨.error e, x.events⟩

instance : Monad (Logged ε) where
  pure := Logged.pure
  bind := Logged.bind

def fail (e : ε) : Logged ε α := ⟨.error e, []⟩

def tell (e : Event) : Logged ε Unit := ⟨.ok (), [e]⟩

def ofExcept (r : Except ε α) : Logged ε α := ⟨r, []⟩

/-- The same work with its reason to stop put in other terms. -/
def mapError (f : ε → ε') (x : Logged ε α) : Logged ε' α := ⟨x.result.mapError f, x.events⟩

@[simp] theorem result_pure (a : α) : (pure a : Logged ε α).result = .ok a := rfl

@[simp] theorem result_tell (e : Event) : (tell e : Logged ε Unit).result = .ok () := rfl

@[simp] theorem result_ofExcept (r : Except ε α) : (ofExcept r).result = r := rfl

theorem result_bind (x : Logged ε α) (f : α → Logged ε β) :
    (x >>= f).result = x.result >>= fun a => (f a).result := by
  show (Logged.bind x f).result = Except.bind x.result _
  rw [Logged.bind]
  cases x.result <;> rfl

theorem result_bind_ok {x : Logged ε α} {f : α → Logged ε β} {a : α} (h : x.result = .ok a) :
    (x >>= f).result = (f a).result := by
  rw [result_bind, h]
  rfl

theorem result_bind_error {x : Logged ε α} {f : α → Logged ε β} {e : ε}
    (h : x.result = .error e) : (x >>= f).result = .error e := by
  rw [result_bind, h]
  rfl

/-- Work has a result only if each of its steps has one. -/
theorem exists_of_result_bind {x : Logged ε α} {f : α → Logged ε β} {b : β}
    (h : (x >>= f).result = .ok b) : ∃ a, x.result = .ok a ∧ (f a).result = .ok b := by
  rw [result_bind] at h
  cases hx : x.result with
  | ok a => rw [hx] at h; exact ⟨a, rfl, h⟩
  | error e => rw [hx] at h; exact absurd h (by intro h; cases h)

end Logged

end Docroot

import TenderPricing.Journal.Notice
/-!
Computations that write to the journal and may fail.

What was written before a failure stays written.  `result_bind` says that the notices have no
influence on the result, so a statement about results can be read off a computation as if it
wrote nothing.
-/
namespace TenderPricing

structure Logged (α ε β : Type) where
  notices : List (Notice α)
  result : Except ε β

namespace Logged

variable {α ε β γ : Type}

/-- A computation that writes nothing. -/
def lift (result : Except ε β) : Logged α ε β := ⟨[], result⟩

def tell (notice : Notice α) : Logged α ε Unit := ⟨[notice], .ok ()⟩

/-- Writes a notice where a condition holds. -/
def tellIf (condition : Bool) (notice : Notice α) : Logged α ε Unit :=
  if condition then tell notice else lift (.ok ())

def bind (first : Logged α ε β) (next : β → Logged α ε γ) : Logged α ε γ :=
  match first.result with
  | .ok value => ⟨first.notices ++ (next value).notices, (next value).result⟩
  | .error e => ⟨first.notices, .error e⟩

instance : Monad (Logged α ε) where
  pure value := lift (.ok value)
  bind := bind

def fail (e : ε) : Logged α ε β := lift (.error e)

/-- Restates the errors of a computation in a wider type. -/
def mapError {ε' : Type} (f : ε → ε') (c : Logged α ε β) : Logged α ε' β :=
  ⟨c.notices, c.result.mapError f⟩

@[simp] theorem result_lift (r : Except ε β) : (lift r : Logged α ε β).result = r := rfl

@[simp] theorem result_pure (value : β) : (pure value : Logged α ε β).result = .ok value := rfl

@[simp] theorem result_tell (notice : Notice α) :
    (tell notice : Logged α ε Unit).result = .ok () := rfl

@[simp] theorem result_tellIf (condition : Bool) (notice : Notice α) :
    (tellIf condition notice : Logged α ε Unit).result = .ok () := by
  cases condition <;> rfl

theorem result_bind (first : Logged α ε β) (next : β → Logged α ε γ) :
    (first >>= next).result = first.result >>= fun value => (next value).result := by
  show (bind first next).result = _
  unfold bind
  cases first.result <;> rfl

end Logged

end TenderPricing

/-!
# Single-assignment futures

A future is pending until it is completed once: with a result, with an
exception, or by cancellation. Completing a completed future is an error, and
cancelling one does nothing.
-/

/-- The state of a future with results in `α` and exceptions in `ε`. -/
inductive Future (α ε : Type)
  | pending
  | result (a : α)
  | exception (e : ε)
  | cancelled
deriving DecidableEq, Repr

namespace Future

variable {α ε : Type}

/-- Whether the future has been completed. -/
def done : Future α ε → Bool
  | .pending => false
  | _ => true

/-- Request cancellation: a completed future keeps its value. -/
def cancel : Future α ε → Future α ε
  | .pending => .cancelled
  | f => f

/-- Whether the future has a result. -/
def isResult : Future α ε → Bool
  | .result _ => true
  | _ => false

@[simp] theorem done_pending : (pending : Future α ε).done = false := rfl
@[simp] theorem done_result (a : α) : (result a : Future α ε).done = true := rfl
@[simp] theorem done_exception (e : ε) : (exception e : Future α ε).done = true := rfl
@[simp] theorem done_cancelled : (cancelled : Future α ε).done = true := rfl

@[simp] theorem done_cancel (f : Future α ε) : f.cancel.done = true := by cases f <;> rfl

theorem done_eq_false {f : Future α ε} : f.done = false ↔ f = .pending := by
  cases f <;> simp [done]

theorem cancel_of_done {f : Future α ε} (h : f.done = true) : f.cancel = f := by
  cases f with
  | pending => exact nomatch h
  | result | exception | cancelled => rfl

@[simp] theorem cancel_eq_result {f : Future α ε} {a : α} : f.cancel = .result a ↔ f = .result a := by
  cases f <;> simp [cancel]

end Future

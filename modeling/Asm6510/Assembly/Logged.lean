import Asm6510.Fault
import Asm6510.Report.Log

/-! Computations that leave messages behind, whether they succeed or fail. -/

namespace Asm6510.Assembly

open Report (Message)
open Source (Position)

/-- Changing the error of a result touches no value. -/
theorem mapError_eq_ok {ε ε' α : Type} {f : ε → ε'} {result : Except ε α} {a : α}
    : result.mapError f = .ok a ↔ result = .ok a := by
  cases result with
  | ok b =>
    change Except.ok b = Except.ok a ↔ _
    simp only [Except.ok.injEq]
  | error e =>
    change Except.error (f e) = Except.ok a ↔ _
    simp only [reduceCtorEq]

/-- A result or a fault, and the messages written on the way to it. -/
structure Logged (α : Type) where
  messages : List Message
  result : Except Fault α

namespace Logged

variable {α β : Type}

instance : Monad Logged where
  pure a := ⟨[], .ok a⟩
  bind x f :=
    match x.result with
    | .ok a => ⟨x.messages ++ (f a).messages, (f a).result⟩
    | .error fault => ⟨x.messages, .error fault⟩

/-- Writes a message. -/
def note (message : Message) : Logged Unit :=
  ⟨[message], .ok ()⟩

/-- Stops with a fault that has its place. -/
def fail (fault : Fault) : Logged α :=
  ⟨[], .error fault⟩

/-- Stops with a cause that has no place yet. -/
def stop (cause : Cause) : Logged α :=
  fail ⟨cause, []⟩

/-- A result that leaves no message. -/
def ofExcept (result : Except Cause α) : Logged α :=
  ⟨[], result.mapError fun cause => ⟨cause, []⟩⟩

/-- The computation with a place for its faults that have none. -/
def located (x : Logged α) (pos : Position) : Logged α :=
  { x with result := x.result.mapError fun fault => fault.located pos }

/-- Running one computation after the other, as far as their results go. -/
@[simp]
theorem result_bind (x : Logged α) (f : α → Logged β)
    : (x >>= f).result = x.result >>= fun a => (f a).result := by
  cases h : x.result <;> simp [bind, h, Except.bind]

@[simp]
theorem result_pure (a : α)
    : (pure a : Logged α).result = .ok a :=
  rfl

@[simp]
theorem messages_pure (a : α)
    : (pure a : Logged α).messages = [] :=
  rfl

/-- The second computation writes its messages only if the first has a result. -/
theorem messages_bind (x : Logged α) (f : α → Logged β)
    : (x >>= f).messages
      = x.messages ++ (match x.result with | .ok a => (f a).messages | .error _ => []) := by
  cases h : x.result <;> simp [bind, h]

/-- Placing the faults of a computation touches no result. -/
@[simp]
theorem result_located_eq_ok {x : Logged α} {pos : Position} {a : α}
    : (x.located pos).result = .ok a ↔ x.result = .ok a := by
  rw [located, mapError_eq_ok]

@[simp]
theorem messages_located (x : Logged α) (pos : Position)
    : (x.located pos).messages = x.messages :=
  rfl

@[simp]
theorem result_ofExcept_eq_ok {result : Except Cause α} {a : α}
    : (ofExcept result).result = .ok a ↔ result = .ok a := by
  rw [ofExcept, mapError_eq_ok]

@[simp]
theorem messages_ofExcept (result : Except Cause α)
    : (ofExcept result).messages = [] :=
  rfl

end Logged

end Asm6510.Assembly

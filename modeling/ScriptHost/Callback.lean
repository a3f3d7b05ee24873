/-
The boundary at which host code is called. A panic never crosses it: it is reported and turned
into the failure value of what the code would have returned.
-/
import ScriptHost.Error
import ScriptHost.Navigation
import ScriptHost.Log

namespace ScriptHost

/-- How a piece of host code ends. -/
inductive Outcome (α : Type) where
  | returned (value : α)
  | panicked (panic : Panic)
  deriving DecidableEq, Repr

/-- A panic that was recovered, as an error of its own. -/
structure CallbackPanic where
  message : String
  deriving DecidableEq, Repr

/-! ## Failure values -/

/-- Types with a value that says a callback failed. -/
class Failable (α : Type) where
  failure : CallbackPanic → α

/-- Error types a recovered panic can be turned into. -/
class OfPanic (ε : Type) where
  ofPanic : CallbackPanic → ε

instance : OfPanic CallbackPanic := ⟨id⟩
instance : OfPanic Error := ⟨fun p => .callback p.message⟩
instance : OfPanic NavigateError := ⟨fun p => .other p.message⟩

instance : Failable Unit := ⟨fun _ => ()⟩
instance : Failable Bool := ⟨fun _ => false⟩
/-- The failure value of a size is zero. -/
instance : Failable UInt64 := ⟨fun _ => 0⟩
/-- The failure value of a pointer is null. -/
instance {α : Type} : Failable (Option α) := ⟨fun _ => none⟩
instance {ε α : Type} [OfPanic ε] : Failable (Except ε α) := ⟨fun p => .error (OfPanic.ofPanic p)⟩

/-! ## Recovery -/

/-- The value of an outcome, with the report of the panic that was recovered for it. -/
def Outcome.recover {α : Type} [Failable α] : Outcome α → α × List LogEvent
  | .returned a => (a, [])
  | .panicked p => (Failable.failure ⟨p.message⟩, [.recoveredPanic p.message])

@[simp] theorem Outcome.recover_returned {α : Type} [Failable α] (a : α) :
    (Outcome.returned a).recover = (a, []) := rfl

/-! ## Callbacks over a record -/

/-- A callback as the engine sees it: it fills in a record it is lent. A panic leaves the record
as far as it was filled. Some have no function, and what they hold nobody releases. -/
structure ForeignCallback (ρ : Type) where
  function : Option (ρ → ρ × Outcome Unit)
  /-- How many references the callback holds to what it was made from. -/
  held : Nat

namespace ForeignCallback

variable {ρ : Type}

/-- The callback of a function. It holds what the function needs. -/
def new (function : ρ → ρ × Outcome Unit) : ForeignCallback ρ :=
  ⟨some function, 1⟩

def withoutFunction (c : ForeignCallback ρ) : ForeignCallback ρ :=
  { c with function := none }

/-- Lends a record to the callback and takes it back. Nothing happens without a function. -/
def fill (c : ForeignCallback ρ) (record : ρ) : ρ × List LogEvent :=
  match c.function with
  | none => (record, [])
  | some function =>
    let (filled, outcome) := function record
    (filled, outcome.recover.2)

/-- How many references are still held when the callback is gone. -/
def heldAfterDrop (c : ForeignCallback ρ) : Nat :=
  if c.function.isSome then 0 else c.held

end ForeignCallback

end ScriptHost

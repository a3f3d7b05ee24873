/-
What the library reports while it runs.
-/
import ScriptHost.Text.Utf8

namespace ScriptHost

inductive LogLevel where
  | trace
  | debug
  | warn
  | error
  deriving DecidableEq, Repr

inductive LogValue where
  | text (value : String)
  | number (value : Nat)
  deriving DecidableEq, Repr

/-- Something that happened. -/
inductive LogEvent where
  | closingHandle (kind : String)
  | disarmingHandle (kind : String)
  /-- A handle went away that nobody had closed. -/
  | finalizingHandle (kind : String)
  /-- A value list was freed with object references still in it. -/
  | leakedReferences (count : Nat)
  /-- A callback panicked, and the panic went no further. -/
  | recoveredPanic (message : String)
  /-- A step of module resolution, with what it looked at. -/
  | resolving (action : String) (details : List (String × Text))
  deriving DecidableEq, Repr

namespace LogEvent

def level : LogEvent → LogLevel
  | closingHandle _ | disarmingHandle _ => .trace
  | finalizingHandle _ | leakedReferences _ => .warn
  | recoveredPanic _ => .error
  | resolving .. => .debug

/-- The fields of an event. A recovered panic has its own message beside the one of the event. -/
def fields : LogEvent → List (String × LogValue)
  | closingHandle kind => [("kind", .text kind), ("message", .text "closing handle")]
  | disarmingHandle kind => [("kind", .text kind), ("message", .text "disarming handle")]
  | finalizingHandle kind =>
    [("kind", .text kind),
      ("message", .text "handle dropped without close, releasing in finalizer")]
  | leakedReferences count =>
    [("leaked", .number count),
      ("message", .text "value list freed with unreleased object references")]
  | recoveredPanic message =>
    [("message", .text message), ("message", .text "recovered panic in host callback")]
  | resolving action details =>
    ("message", .text action) ::
      details.map fun (name, value) => (name, .text (String.ofList value))

end LogEvent
end ScriptHost

/-
A handle owns a pointer into the engine together with the right to release it once. While anyone
reads through the handle it can be neither closed nor disarmed. What is left armed when the handle
goes away is released by its finalizer. A release runs the destructor first and forgets the pointer
afterwards, so what a destructor that unwinds leaves behind is an armed handle.
-/
import ScriptHost.Error
import ScriptHost.Log
import ScriptHost.Text.Quoted

namespace ScriptHost

/-- What is known about a kind of pointer: its name, and whether there is a destructor for it. -/
structure HandleKind where
  name : String
  /-- Pointers without a destructor are released elsewhere. -/
  owned : Bool := true
  deriving DecidableEq, Repr

/-- A pointer with a one-shot release. -/
structure Handle (α : Type) where
  kind : HandleKind
  /-- The pointer while the handle is armed; a closed or disarmed handle has none. -/
  pointer : Option α
  /-- How many read guards are alive. -/
  readers : Nat
  deriving DecidableEq, Repr

namespace Handle

variable {α : Type}

/-- A handle for a pointer that nobody else releases. -/
def arm (pointer : α) (kind : HandleKind) : Handle α :=
  ⟨kind, some pointer, 0⟩

/-- A handle for a pointer that may be null; there is none for null. -/
def new (pointer : Option α) (kind : HandleKind) : Option (Handle α) :=
  pointer.map (arm · kind)

def isClosed (h : Handle α) : Bool :=
  h.pointer.isNone

/-! ## Reading -/

def current (h : Handle α) : Except Error α :=
  match h.pointer with
  | none => .error .closedObject
  | some p => .ok p

/-- Takes a read guard. It keeps the pointer alive until it is given back. -/
def acquire (h : Handle α) : Except Error (α × Handle α) :=
  match h.pointer with
  | none => .error .closedObject
  | some p => .ok (p, { h with readers := h.readers + 1 })

def giveBack (h : Handle α) : Handle α :=
  { h with readers := h.readers - 1 }

/-! ## Releasing -/

/-- How a run of a destructor ends: it returns, or it unwinds through whoever runs it. -/
inductive DestructorEnd where
  | returns
  | unwinds
  deriving DecidableEq, Repr

/-- What the release of a pointer comes to. -/
structure Release (α : Type) where
  handle : Handle α
  /-- The pointer that the destructor was run on. -/
  destroyed : Option α
  /-- How the release ends: as the run of the destructor does. -/
  ends : DestructorEnd := .returns

def disarmed (h : Handle α) : Handle α :=
  { h with pointer := none }

/-- The pointer that the destructor has to be run on, if there is a destructor. -/
def toDestroy (h : Handle α) : Option α :=
  if h.kind.owned then h.pointer else none

/-- Runs the destructor, if there is one, and forgets the pointer afterwards. A destructor that unwinds
leaves the handle armed. -/
def release (h : Handle α) (run : DestructorEnd) : Release α :=
  match h.toDestroy, run with
  | none, _ => ⟨h.disarmed, none, .returns⟩
  | some p, .returns => ⟨h.disarmed, some p, .returns⟩
  | some p, .unwinds => ⟨h, some p, .unwinds⟩

@[simp] theorem release_returns (h : Handle α) :
    h.release .returns = ⟨h.disarmed, h.toDestroy, .returns⟩ := by
  unfold release
  cases h.toDestroy <;> rfl

/-- Releases the pointer, by a run of the destructor that ends as is said. Closing what is closed does
nothing. -/
def close (h : Handle α) (run : DestructorEnd) : Except Error (Release α) :=
  if h.readers ≠ 0 then .error (.recursiveLock "close")
  else .ok (h.release run)

/-- Hands the pointer out to a new owner. The destructor is not run. -/
def disarm (h : Handle α) : Except Error (α × Handle α) :=
  if h.readers ≠ 0 then .error (.recursiveLock "disarm")
  else match h.pointer with
    | none => .error .disarmClosed
    | some p => .ok (p, h.disarmed)

/-- What becomes of a handle that goes away. -/
def finalize (h : Handle α) (run : DestructorEnd) : Release α :=
  h.release run

@[simp] theorem finalize_returns (h : Handle α) :
    h.finalize .returns = ⟨h.disarmed, h.toDestroy, .returns⟩ :=
  h.release_returns

/-! ## Reports -/

/-- What closing reports: the run of a destructor, however it ends. -/
def closeLog (h : Handle α) (run : DestructorEnd) : List LogEvent :=
  match h.close run with
  | .ok ⟨_, some _, _⟩ => [.closingHandle h.kind.name]
  | _ => []

def disarmLog (h : Handle α) : List LogEvent :=
  match h.disarm with
  | .ok _ => [.disarmingHandle h.kind.name]
  | .error _ => []

/-- What the finalizer reports: a handle that was never closed. -/
def finalizeLog (h : Handle α) : List LogEvent :=
  if h.isClosed then [] else [.finalizingHandle h.kind.name]

def shown (h : Handle α) : String :=
  let name := String.ofList (Text.quoted h.kind.name.toList)
  let closed := if h.isClosed then "true" else "false"
  "Handle \x7b kind: " ++ name ++ ", closed: " ++ closed ++ " \x7d"

end Handle
end ScriptHost

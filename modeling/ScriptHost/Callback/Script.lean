/-
Host functions and interrupts that are described instead of programmed. A function whose run succeeds
closes its arguments, unless it passes them on or says otherwise; what a failed run leaves open is
for the finalizer.
-/
import ScriptHost.Host.Call

namespace ScriptHost

inductive FunctionScript where
  | echo
  | dup
  | pop
  /-- Says how many there are, and whether there are none. -/
  | count
  /-- Says which call this is. -/
  | calls
  /-- Adds them up as integers that wrap. -/
  | sum
  | types
  | at (accessor : Accessor) (index : UInt64)
  | fail (message : String)
  /-- Panics, if it is given what with. -/
  | panic (thrown : Option Panic)
  | table
  | closeVm
  | closeArgs
  | kept
  /-- Calls the first with the others, and returns what that returns. -/
  | apply
  deriving Repr

inductive InterruptScript where
  | continue
  | yield
  | fail (message : String)
  /-- Panics, if it is given what with. -/
  | panic (thrown : Option Panic)
  | closeVm
  /-- Fails from some poll on. -/
  | after (polls : Nat)
  deriving Repr

namespace HostState

def countCall (s : HostState) (c : CallbackId) : HostState :=
  { s with callbacks := s.callbacks.modify c fun k => { k with calls := k.calls + 1 } }

def callsOf (s : HostState) (c : CallbackId) : Nat :=
  (s.callbacks[c]?).elim 0 (·.calls)

def keptBy (s : HostState) (c : CallbackId) : List Value :=
  (s.callbacks[c]?).elim [] (·.kept)

/-- Runs a described piece of code. It panics also where its work does. -/
def runScript {α : Type} (s : HostState) (panic? : Option Panic) (work : Host α) :
    Outcome (Except Error α) × HostState :=
  match panic? with
  | some p => (.panicked p, s)
  | none =>
    match work s with
    | .ok a s => (.returned (.ok a), s)
    | .error (.abort (.panic p)) s => (.panicked p, s)
    | .error e s => (.returned (.error e), s)

end HostState

namespace Host

/-- Closes arguments that were used, whatever happens. -/
def closeArguments (args : List Value) : Host Unit :=
  ignoringFailure (closeAll args)

/-- Puts values into a table under 1, 2, and so on. -/
def fillTable (table : HandleId) (first : Int64) : List Value → Host Unit
  | [] => return
  | v :: vs => do
    Table.set table (.integer first) v
    fillTable table (first + 1) vs

/-- Adds integers that wrap. -/
def sumFrom (args : List Value) : (position : Nat) → List Value → Except Error Int64
  | _, [] => .ok 0
  | position, _ :: rest => do
    let n ← Arguments.integerAt args (.ofNat position)
    let others ← sumFrom args (position + 1) rest
    return n + others

end Host

open Host

namespace FunctionScript

/-- What a host function does when it does not panic. `apply` calls functions by `call`. -/
def results (call : HandleId → List Value → Host (List Value)) (c : CallbackId) (vm : VmId)
    (args : List Value) : FunctionScript → Host (List Value)
  | echo => return args
  | dup => return args.flatMap fun v => [v, v]
  | pop =>
    match args with
    | [] => return []
    | first :: rest => do
      close first
      return rest
  | count => do
    closeArguments args
    return [.integer (.ofNat args.length), .boolean args.isEmpty]
  | calls => do
    let n := (← get).callsOf c
    closeArguments args
    return [.integer (.ofNat n)]
  | sum => do
    let total ← ofResult (sumFrom args 0 args)
    closeArguments args
    return [.integer total]
  | types => do
    let names ← args.mapM fun v => createString vm (Utf8.ofString v.kind.name)
    closeArguments args
    return names
  | «at» accessor index => return [← ofResult (Arguments.takeAt args accessor index)]
  | fail message => throw (.native message)
  | panic _ => do
    closeArguments args
    return []
  | table => do
    let t ← createTable vm
    fillTable (t.object?.getD 0) 1 args
    closeArguments args
    return [t]
  | closeVm => do
    Host.closeVm vm
    closeArguments args
    return []
  | closeArgs => do
    closeAll args
    return []
  | kept => return (← get).keptBy c
  | apply => do
    let f ← ofResult (Arguments.functionAt args 0)
    let values ← call f args.tail
    closeObject f
    return values

def panic? : FunctionScript → Option Panic
  | panic thrown => thrown
  | _ => none

def run (call : HandleId → List Value → Host (List Value)) (script : FunctionScript)
    (c : CallbackId) (vm : VmId) (args : List Value) (s : HostState) :
    Outcome (Except Error (List Value)) × HostState :=
  (s.countCall c).runScript script.panic? (script.results call c vm args)

end FunctionScript

namespace InterruptScript

/-- What an interrupt answers when it does not panic. -/
def state (c : CallbackId) (vm : VmId) : InterruptScript → Host PollState
  | «continue» => return .continue
  | yield => return .yield
  | fail message => throw (.callback message)
  | panic _ => return .continue
  | closeVm => do
    Host.closeVm vm
    return .continue
  | after n => do
    let polls := (← get).callsOf c
    if n ≤ polls then throw (.native ("poll " ++ toString polls)) else return .continue

def panic? : InterruptScript → Option Panic
  | panic thrown => thrown
  | _ => none

def run (script : InterruptScript) (c : CallbackId) (vm : VmId) (s : HostState) :
    Outcome (Except Error PollState) × HostState :=
  (s.countCall c).runScript script.panic? (script.state c vm)

end InterruptScript

/-! ## All scripts together -/

inductive Script where
  | function (script : FunctionScript)
  | interrupt (script : InterruptScript)
  deriving Repr

namespace Script

/-- The error of a callback that is called too deep, or as what it is not. -/
def refused : Error :=
  .native "stack overflow"

/-- A poll of the interrupt that a list of scripts has for a callback. -/
def poll (scripts : List Script) (c : CallbackId) (vm : VmId) (s : HostState) :
    Outcome (Except Error PollState) × HostState :=
  match scripts[c]? with
  | some (.interrupt script) => script.run c vm s
  | _ => (.returned (.error refused), s)

/-- The code of a list of scripts, one for each callback. Functions may call functions that call
functions, as deep as is said. -/
def code (scripts : List Script) : (depth : Nat) → HostCode
  | 0 => ⟨fun _ _ _ s => (.returned (.error refused), s), poll scripts⟩
  | depth + 1 =>
    { function := fun c vm args s =>
        match scripts[c]? with
        | some (.function script) => script.run (Function.call (code scripts depth)) c vm args s
        | _ => (.returned (.error refused), s)
      interrupt := poll scripts }

/-- Depth enough for a call with some arguments: only `apply` calls a function, and it passes one
argument less than it got. -/
def depthFor (args : List Value) : Nat :=
  args.length + 1

end Script
end ScriptHost

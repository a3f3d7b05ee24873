/-
Values on their way to the engine and back. An object that is sent takes a second reference with it
and stays usable; what is received is owned. A value that was made ready but never sent is taken
back, so that no reference is left over.
-/
import ScriptHost.Host.Object

namespace ScriptHost.Host

/-! ## To the engine -/

/-- A second reference to an object, for the engine. -/
def secondReference (kind : ObjectKind) (object : HandleId) : Host ReferenceId := do
  let ref ← withObject "pass value" object fun _ _ ref => inEngine (·.cloneRef ref)
  match ref with
  | none => throw (.nullPointer kind.name)
  | some ref => return ref

/-- Makes sure that a value may be used on a VM. -/
def checkOwner (vm : VmId) (value : Value) : Host Unit := do
  match owner? (← get) value with
  | none => return
  | some o => if o = vm then return else throw (.foreignVm value.kind.name)

/-- Makes a value ready for the machine of a VM. -/
def send (vm : VmId) (value : Value) : Host Crossing := do
  checkOwner vm value
  match value with
  | .nil => return .nil
  | .boolean b => return .boolean b
  | .lightUserdata a => return .lightUserdata a
  | .integer n => return .integer n
  | .number bits => return .number bits
  | .vector x y z => return .vector x y z
  | .object kind h => return .object kind (some (← secondReference kind h))
  | .error e =>
    match errorMessage? (← get) e with
    | none => throw .closedObject
    | some message => return .error message
  | .other => return .other

/-- Gives back what a value took with it. -/
def release (value : Crossing) : Host Unit :=
  match value with
  | .object _ (some ref) => inEngine fun e => ((), e.giveBack ref)
  | _ => return

/-- Makes every value ready. If one cannot be, those before it are taken back. -/
def sendAll (vm : VmId) : List Value → Host (RawList (Option ReferenceId))
  | [] => return []
  | v :: vs => do
    let first ← send vm v
    let rest ← try sendAll vm vs catch e =>
      release first
      throw e
    return first :: rest

/-! ## From the engine -/

/-- Takes a value over. A null object is nil. -/
def receive (vm : VmId) (value : Crossing) : Host Value :=
  match value with
  | .nil => return .nil
  | .boolean b => return .boolean b
  | .lightUserdata a => return .lightUserdata a
  | .integer n => return .integer n
  | .number bits => return .number bits
  | .vector x y z => return .vector x y z
  | .object kind ref => return ((← wrap vm kind ref).map (.object kind)).getD .nil
  | .error message => newError message
  | .other => return .other

def receiveAll (vm : VmId) (list : RawList (Option ReferenceId)) : Host (List Value) :=
  list.mapM (receive vm)

/-! ## Checks -/

/-- Makes sure that values are open and may be used on a VM. -/
def checkAll (vm : VmId) : List Value → Host Unit
  | [] => return
  | v :: vs => do
    if isClosed (← get) v then throw .closedObject
    checkOwner vm v
    checkAll vm vs

end ScriptHost.Host

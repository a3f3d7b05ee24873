/-
Work on a VM or on an object of it holds read guards for as long as it lasts, the VM's before the
object's, so that neither can be closed in the middle. What has no open VM fails with the name of
the action, before anything is touched.
-/
import ScriptHost.Host.State

namespace ScriptHost.Host

/-! ## Guards -/

/-- Takes a read guard on a VM. -/
def enterVm (action : String) (vm : VmId) : Host MachineId := do
  let s ← get
  match s.vms[vm]? with
  | none => throw (.vmClosed action)
  | some v =>
    match v.lock.acquire with
    | .error _ => throw (.vmClosed action)
    | .ok (machine, lock) =>
      set { s with vms := s.vms.set vm { v with lock } }
      return machine

def leaveVm (vm : VmId) : Host Unit :=
  modify fun s => { s with vms := s.vms.modify vm fun v => { v with lock := v.lock.giveBack } }

/-- Takes a read guard on an object. -/
def enterObject (object : HandleId) : Host ReferenceId := do
  let s ← get
  match s.wrappers[object]? with
  | none => throw .closedObject
  | some w =>
    let (ref, lock) ← ofResult w.lock.acquire
    set { s with wrappers := s.wrappers.set object { w with lock } }
    return ref

def leaveObject (object : HandleId) : Host Unit :=
  modify fun s =>
    { s with wrappers := s.wrappers.modify object fun w => { w with lock := w.lock.giveBack } }

/-! ## Work under guards -/

/-- Work on the machine of a VM. -/
def withVm {α : Type} (action : String) (vm : VmId) (work : MachineId → Host α) : Host α := do
  let machine ← enterVm action vm
  try work machine finally leaveVm vm

def vmOf (object : HandleId) : Host VmId := do
  match (← get).wrappers[object]? with
  | none => throw .closedObject
  | some w => return w.vm

/-- Work on an object of a VM. -/
def withObject {α : Type} (action : String) (object : HandleId)
    (work : VmId → MachineId → ReferenceId → Host α) : Host α := do
  let vm ← vmOf object
  withVm action vm fun machine => do
    let ref ← enterObject object
    try work vm machine ref finally leaveObject object

end ScriptHost.Host

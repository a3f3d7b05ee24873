/-
What a VM offers: its globals, new objects, compiler settings and an interrupt. A VM is closed for
everyone at once, and not while anyone works on it.
-/
import ScriptHost.Host.Transfer

namespace ScriptHost.Host

/-! ## The VM itself -/

/-- A new VM on a machine of its own. -/
def newVm : Host VmId := do
  let machine ← inEngine Engine.start
  modifyGet fun s => (s.vms.length, { s with vms := s.vms ++ [⟨.arm machine .vm, false⟩] })

def closeVm (vm : VmId) : Host Unit := do
  let s ← get
  match s.vms[vm]? with
  | none => return
  | some v =>
    let ⟨lock, destroyed, _⟩ ← ofResult (v.lock.close .returns)
    set { s with vms := s.vms.set vm { v with lock } }
    match destroyed with
    | none => return
    | some machine => inEngine fun e => ((), e.stop machine)

def isVmClosed (s : HostState) (vm : VmId) : Bool :=
  (s.vms[vm]?).elim true (·.lock.isClosed)

def shownVm (s : HostState) (vm : VmId) : String :=
  "Lua \x7b closed: " ++ (if isVmClosed s vm then "true" else "false") ++ " \x7d"

/-! ## Objects -/

def globals (vm : VmId) : Host Value := do
  let ref ← withVm "get globals" vm fun machine => inEngine (·.globals machine)
  wrapOrFail vm .table "globals" ref

def createString (vm : VmId) (bytes : Bytes) : Host Value := do
  let ref ← withVm "create string" vm fun _ => inEngine (·.createString bytes)
  wrapOrFail vm .string "string" ref

def createTable (vm : VmId) : Host Value := do
  let ref ← withVm "create table" vm fun _ => inEngine (·.createTable)
  wrapOrFail vm .table "table" ref

def createBuffer (vm : VmId) (length : Nat) : Host Value := do
  let ref ← withVm "create buffer" vm fun _ => inEngine (·.createBuffer length)
  wrapOrFail vm .buffer "buffer" ref

/-- A callback for a VM, which keeps some values. -/
def newCallback (vm : VmId) (kept : List Value) : Host CallbackId :=
  modifyGet fun s =>
    (s.callbacks.length, { s with callbacks := s.callbacks ++ [⟨vm, kept, 0⟩] })

def createFunction (vm : VmId) (callback : CallbackId) : Host Value := do
  let ref ← withVm "create function" vm fun _ => inEngine (·.createFunction callback)
  wrapOrFail vm .function "function" ref

/-- A value of the host, to be put into a userdata. -/
def newPayload (data : PayloadData) : Host PayloadId :=
  modifyGet fun s =>
    (s.payloads.length, { s with payloads := s.payloads ++ [⟨data, .shared 0⟩] })

def createUserdata (vm : VmId) (payload : PayloadId) : Host Value := do
  let ref ← withVm "create userdata" vm fun _ => inEngine (·.createUserdata payload)
  wrapOrFail vm .userdata "userdata" ref

/-! ## Settings -/

/-- Sets how chunks are compiled that bring no settings of their own. -/
def setCompiler (vm : VmId) (options : CompilerOptions) : Host Unit :=
  withVm "set compiler options" vm fun machine =>
    inEngine fun e => ((), e.setCompiler machine (.make options))

/-- The settings a machine was given last, none on a closed VM. -/
def compiler? (vm : VmId) : Host (Option CompilerOptions) := do
  let settings ← attempt (withVm "read compiler options" vm fun machine =>
    return ((← get).engine.machine? machine).bind (·.compiler))
  return settings.toOption.join

/-- Installs an interrupt in place of the one before. -/
def setInterrupt (vm : VmId) (callback : CallbackId) : Host Unit :=
  withVm "set interrupt" vm fun machine =>
    inEngine fun e => ((), e.setInterrupt machine (some callback))

def removeInterrupt (vm : VmId) : Host Unit :=
  withVm "remove interrupt" vm fun machine =>
    inEngine fun e => ((), e.setInterrupt machine none)

/-! ## Strings -/

/-- The bytes of a string. Where the engine has none to point at, there are none. -/
def stringBytes (string : HandleId) : Host Bytes :=
  withObject "read string" string fun _ _ ref =>
    return (← inEngine (·.stringBytes ref)).getD []

def stringText (string : HandleId) : Host String :=
  return Utf8.asString (← stringBytes string)

end ScriptHost.Host

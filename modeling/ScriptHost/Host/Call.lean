/-
Calls in both directions. The engine calls a host function by filling a record: the arguments go
over to the host, results or an error text come back. Before each call the engine polls the
interrupt of its machine.
-/
import ScriptHost.Host.Vm
import ScriptHost.Host.Table
import ScriptHost.Callback

namespace ScriptHost

/-- What the machine should do after an interrupt. -/
inductive PollState where
  | continue
  | yield
  deriving DecidableEq, Repr

/-- The code behind the callbacks of the host: what calling one does, and what polling one does. It
may do all that the host can do, and it may panic. -/
structure HostCode where
  function : CallbackId → VmId → List Value → HostState →
    Outcome (Except Error (List Value)) × HostState
  interrupt : CallbackId → VmId → HostState → Outcome (Except Error PollState) × HostState

namespace HostCode

/-- Some code, run with its panics turned into failures. -/
def recovering {α : Type} (code : HostState → Outcome (Except Error α) × HostState) : Host α := do
  let outcome ← modifyGet code
  Host.ofResult outcome.recover.1

def call (code : HostCode) (c : CallbackId) (vm : VmId) (args : List Value) : Host (List Value) :=
  recovering (code.function c vm args)

def poll (code : HostCode) (c : CallbackId) (vm : VmId) : Host PollState :=
  recovering (code.interrupt c vm)

end HostCode

/-- What a machine learns from polling its interrupt. -/
structure PollRecord where
  state : PollState := .continue
  error : Option CString := none
  deriving Repr

namespace Host

/-! ## From the engine to the host -/

/-- The VM that a callback was made for, while anything of the host still refers to it. -/
def callbackVm (action : String) (c : CallbackId) : Host VmId := do
  let s ← get
  match s.callbacks[c]? with
  | none => throw (.vmClosed action)
  | some callback =>
    if (s.vms[callback.vm]?).elim true (·.gone) then throw (.vmClosed action)
    else return callback.vm

/-- The text an error crosses with. -/
def errorRecord (e : Error) : CString :=
  .ofText e.message

/-- Frees a list that went nowhere. -/
def freeList (list : RawList (Option ReferenceId)) : Host Unit :=
  inEngine fun e => ((), e.freeList list)

/-- The engine calls a host function. The arguments are the function's from the start, and the
results are closed once they were made ready for the engine. A list that is not passed on is freed:
that of the arguments if there is no VM any more, that of the results if closing them fails. -/
def callback (code : HostCode) (c : CallbackId) (args : RawList (Option ReferenceId)) :
    Host (Except CString (RawList (Option ReferenceId))) := do
  let result ← attempt do
    let vm ← try callbackVm "call host function" c catch e =>
      freeList args
      throw e
    let args ← receiveAll vm args
    let values ← code.call c vm args
    let list ← attempt (sendAll vm values)
    try closeAll values catch e =>
      freeList (list.toOption.getD [])
      throw e
    ofResult list
  return result.mapError errorRecord

def pollCallback (code : HostCode) (c : CallbackId) : Host PollRecord := do
  match ← attempt (do code.poll c (← callbackVm "poll interrupt" c)) with
  | .ok state => return { state }
  | .error e => return { error := some (errorRecord e) }

/-- A machine polls its interrupt, if it has one. -/
def pollMachine (code : HostCode) (machine : MachineId) : Host (Option PollRecord) := do
  match ((← get).engine.machine? machine).bind (·.interrupt) with
  | none => return none
  | some c => return some (← pollCallback code c)

/-- What a machine learns now from its interrupt, nothing on a closed VM. -/
def pollVm (code : HostCode) (vm : VmId) : Host (Option PollRecord) := do
  let polled ← attempt (withVm "poll interrupt" vm (pollMachine code))
  return polled.toOption.join

/-! ## From the host to the engine -/

def runBody (code : HostCode) (args : RawList (Option ReferenceId)) :
    FunctionBody → Host (Except CString (RawList (Option ReferenceId)))
  | .host c => callback code c args
  | .chunk name source level => do
    let _ ← inEngine (·.receiveAll args)
    let results ← inEngine (·.chunkResults name source level)
    return .ok (← inEngine (·.handAll results))

/-- The engine's call of a function, with its results and an error text. It takes the arguments
over. Told to fail, it does so after a call that succeeded, and leaves the results in the list. -/
def engineCall (code : HostCode) (machine : MachineId) (function : ReferenceId)
    (args : RawList (Option ReferenceId)) : Host (RawList (Option ReferenceId) × Option CString) := do
  let fault ← inEngine (·.failing .functionCall)
  match (← pollMachine code machine).bind (·.error) with
  | some message =>
    let _ ← inEngine (·.receiveAll args)
    return ([], some message)
  | none =>
    match (← get).engine.deref? function with
    | some (.function body _) =>
      match ← runBody code args body with
      | .ok results => return (results, fault.map .ofText)
      | .error message => return ([], some message)
    | _ =>
      let _ ← inEngine (·.receiveAll args)
      return ([], some (.ofText "attempt to call a non-function value"))

namespace Function

def call (code : HostCode) (function : HandleId) (args : List Value) : Host (List Value) :=
  withObject "call function" function fun vm machine ref => do
    let args ← sendAll vm args
    let (list, error) ← engineCall code machine ref args
    let values ← receiveAll vm list
    match error with
    | none => return values
    | some message =>
      closeAll values
      throw (.native message.text)

/-- The environment of a function, none for host functions. -/
def environment (function : HandleId) : Host (Option HandleId) := do
  let ref ← withObject "get environment" function fun _ _ ref => inEngine (·.functionEnvironment ref)
  wrap (← vmOf function) .table ref

end Function
end Host
end ScriptHost

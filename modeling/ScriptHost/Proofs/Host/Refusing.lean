/-
What a closed VM refuses. Whatever needs its machine, or an object of it, asks for the VM first, and so fails
before anything else is looked at: the arguments, the object, or the engine (`HostState.InertVm`,
`HostState.InertObject`).
-/
import ScriptHost.Host.Call
import ScriptHost.Proofs.Host.Orderly

namespace ScriptHost

open Host

/-! ## What needs a VM -/

/-- What needs the machine of a VM, and what it is called when it fails. -/
inductive OnVm (vm : VmId) : {α : Type} → String → Host α → Prop where
  | enter (action : String) : OnVm vm action (enterVm action vm)
  | work {α : Type} (action : String) (work : MachineId → Host α) : OnVm vm action (withVm action vm work)
  | globals : OnVm vm "get globals" (globals vm)
  | createString (bytes : Bytes) : OnVm vm "create string" (createString vm bytes)
  | createTable : OnVm vm "create table" (createTable vm)
  | createBuffer (length : Nat) : OnVm vm "create buffer" (createBuffer vm length)
  | createFunction (callback : CallbackId) : OnVm vm "create function" (createFunction vm callback)
  | createUserdata (payload : PayloadId) : OnVm vm "create userdata" (createUserdata vm payload)
  | setCompiler (options : CompilerOptions) : OnVm vm "set compiler options" (setCompiler vm options)
  | setInterrupt (callback : CallbackId) : OnVm vm "set interrupt" (setInterrupt vm callback)
  | removeInterrupt : OnVm vm "remove interrupt" (removeInterrupt vm)
  | loadChunk (chunk : Chunk) : OnVm vm "load chunk" (loadChunk vm chunk)

/-- What needs an object of a VM, and what it is called when it fails. -/
inductive OnObject (vm : VmId) (object : HandleId) : {α : Type} → String → Host α → Prop where
  | enter (action : String) : OnObject vm object action (enter action object)
  | work {α : Type} (action : String) (work : VmId → MachineId → ReferenceId → Host α) :
    OnObject vm object action (withObject action object work)
  /- To pass it to the engine -/
  | reference (kind : ObjectKind) : OnObject vm object "pass value" (secondReference kind object)
  | send (kind : ObjectKind) : OnObject vm object "pass value" (send vm (.object kind object))
  /- Strings -/
  | stringBytes : OnObject vm object "read string" (stringBytes object)
  | stringText : OnObject vm object "read string" (stringText object)
  /- Tables -/
  | get (key : Value) : OnObject vm object "get table field" (Table.get object key)
  | set (key value : Value) : OnObject vm object "set table field" (Table.set object key value)
  | length : OnObject vm object "get table length" (Table.length object)
  | pairs : OnObject vm object "iterate table" (Table.pairs object)
  | isEmpty : OnObject vm object "iterate table" (Table.isEmpty object)
  | forEach (visitor : Value → Value → Host Unit) :
    OnObject vm object "iterate table" (Table.forEach object visitor)
  | metatable : OnObject vm object "get metatable" (Table.metatable object)
  | setMetatable (metatable : Option HandleId) :
    OnObject vm object "set metatable" (Table.setMetatable object metatable)
  /- Functions -/
  | call (code : HostCode) (args : List Value) :
    OnObject vm object "call function" (Function.call code object args)
  | environment : OnObject vm object "get environment" (Function.environment object)
  /- Buffers -/
  | bufferLength : OnObject vm object "get buffer length" (Buffer.length object)
  | bufferIsEmpty : OnObject vm object "get buffer length" (Buffer.isEmpty object)
  | bufferBytes : OnObject vm object "get buffer length" (Buffer.toBytes object)
  | bufferRead (offset length : UInt64) :
    OnObject vm object "read buffer" (Buffer.read object offset length)
  | bufferWrite (offset : UInt64) (data : Bytes) :
    OnObject vm object "write buffer" (Buffer.write object offset data)
  /- Userdata -/
  | borrow (type : PayloadType) (exclusive : Bool) :
    OnObject vm object "borrow userdata" (Userdata.borrow type exclusive object)

/-! ## Refusals -/

variable {α : Type} {s : HostState} {vm : VmId} {object : HandleId} {action : String} {work : Host α}

namespace Host

theorem enterVm_of_closed (closed : s.machine? vm = none) :
    enterVm action vm s = .error (.vmClosed action) s := by
  rw [enterVm_run, closed]

theorem enter_of_closed (isFor : s.vmOf? object = some vm) (closed : s.machine? vm = none) :
    enter action object s = .error (.vmClosed action) s := by
  rw [enter, bind_run, vmOf_run, isFor]
  exact bind_eq_error.mpr (.inl (enterVm_of_closed closed))

theorem secondReference_of_closed (isFor : s.vmOf? object = some vm) (closed : s.machine? vm = none)
    (kind : ObjectKind) : secondReference kind object s = .error (.vmClosed "pass value") s :=
  bind_eq_error.mpr (.inl (withObject_of_closed isFor closed _))

theorem send_of_closed (isFor : s.vmOf? object = some vm) (closed : s.machine? vm = none)
    (kind : ObjectKind) : send vm (.object kind object) s = .error (.vmClosed "pass value") s := by
  have isOwner : owner? s (.object kind object) = some vm := isFor
  have checked : checkOwner vm (.object kind object) s = .ok () s := by
    simp only [checkOwner, bind_run, get_run, isOwner, if_true, pure_run]
  rw [send, bind_run, checked]
  exact bind_eq_error.mpr (.inl (secondReference_of_closed isFor closed kind))

end Host

theorem OnVm.refused (needs : OnVm vm action work) (closed : s.machine? vm = none) :
    work s = .error (.vmClosed action) s := by
  cases needs with
  | enter => exact enterVm_of_closed closed
  | work | setCompiler | setInterrupt | removeInterrupt => exact withVm_of_closed closed _
  | globals | createString | createTable | createBuffer | createFunction | createUserdata | loadChunk =>
    exact bind_eq_error.mpr (.inl (withVm_of_closed closed _))

theorem OnObject.refused (needs : OnObject vm object action work) (isFor : s.vmOf? object = some vm)
    (closed : s.machine? vm = none) : work s = .error (.vmClosed action) s := by
  have refused : ∀ {β : Type} {action : String} (work : VmId → MachineId → ReferenceId → Host β),
      withObject action object work s = .error (.vmClosed action) s :=
    withObject_of_closed isFor closed
  cases needs with
  | enter => exact enter_of_closed isFor closed
  | reference kind => exact secondReference_of_closed isFor closed kind
  | send kind => exact send_of_closed isFor closed kind
  | work | stringBytes | get | set | length | pairs | setMetatable | call | bufferLength | bufferRead |
    bufferWrite => exact refused _
  -- What is put together asks for the VM with its first part.
  | stringText | isEmpty | forEach | metatable | environment | bufferIsEmpty | bufferBytes =>
    exact bind_eq_error.mpr (.inl (refused _))
  | borrow => exact bind_eq_error.mpr (.inl (Userdata.enterPayload_of_closed isFor closed))

namespace Host

theorem isVmClosed_of_closed (closed : s.machine? vm = none) : isVmClosed s vm = true := by
  rw [isVmClosed]
  cases found : s.vms[vm]? with
  | none => rfl
  | some v => simpa [HostState.machine?, found, Handle.isClosed] using closed

theorem closeVm_of_closed (closed : s.machine? vm = none) (unread : s.vmReaders vm = 0) :
    closeVm vm s = .ok () s := by
  rw [closeVm_run]
  cases found : s.vms[vm]? with
  | none => rfl
  | some v =>
    have free : v.lock.readers = 0 := by simpa [HostState.vmReaders, found] using unread
    have pointer : v.lock.pointer = none := by simpa [HostState.machine?, found] using closed
    dsimp only
    rw [if_pos free, Handle.toDestroy, pointer, ite_self, Handle.disarmed_of_closed pointer, set_of_getElem? found]
    rfl

theorem compiler?_of_closed (closed : s.machine? vm = none) : compiler? vm s = .ok none s := by
  rw [compiler?, bind_run, attempt_eq_error.mpr (withVm_of_closed closed _)]
  rfl

theorem pollVm_of_closed (closed : s.machine? vm = none) (code : HostCode) : pollVm code vm s = .ok none s := by
  rw [pollVm, bind_run, attempt_eq_error.mpr (withVm_of_closed closed _)]
  rfl

theorem pointer_of_closed (isFor : s.vmOf? object = some vm) (closed : s.machine? vm = none) :
    pointer object s = .ok none s := by
  rw [pointer, bind_run, attempt_eq_error.mpr (withObject_of_closed isFor closed _)]
  rfl

theorem sameObject_of_closed (isFor : s.vmOf? object = some vm) (closed : s.machine? vm = none)
    (other : HandleId) : sameObject object other s = .ok false s ∧ sameObject other object s = .ok false s := by
  have asked : ∀ {a b : HandleId}, s.vmOf? a = some vm → sameObject a b s = .ok false s := by
    intro a b isFor
    rw [sameObject, bind_run, get_run]
    dsimp only
    split
    · rfl
    · rw [bind_run, pointer_of_closed isFor closed]
      rfl
  refine ⟨asked isFor, ?_⟩
  by_cases isFor' : s.vmOf? other = some vm
  · exact asked isFor'
  · have differ : (s.wrappers[other]?).map (·.vm) ≠ (s.wrappers[object]?).map (·.vm) :=
      fun same => isFor' (same.trans isFor)
    rw [sameObject, bind_run, get_run]
    dsimp only
    rw [if_pos differ]
    rfl

theorem holds_of_closed (isFor : s.vmOf? object = some vm) (closed : s.machine? vm = none)
    (type : PayloadType) : Userdata.holds type object s = .ok false s := by
  rw [Userdata.holds, bind_run, attempt_eq_error.mpr (Userdata.enterPayload_of_closed isFor closed)]
  rfl

end Host

namespace HostState

/-- Whatever the engine is, the work fails, and nothing changes. -/
def Refuses (s : HostState) (work : Host α) (e : Error) : Prop :=
  ∀ engine : Engine, work { s with engine } = .error e { s with engine }

/-- Whatever the engine is, the question has this answer, and nothing changes. -/
def Says (s : HostState) (question : Host α) (a : α) : Prop :=
  ∀ engine : Engine, question { s with engine } = .ok a { s with engine }

/-- Nothing comes of a VM. -/
structure InertVm (s : HostState) (vm : VmId) : Prop where
  isClosed : isVmClosed s vm = true
  again : closeVm vm s = .ok () s
  refuses : ∀ {α : Type} {action : String} {work : Host α}, OnVm vm action work →
    s.Refuses work (.vmClosed action)
  compiler : s.Says (compiler? vm) none
  polled : ∀ code : HostCode, s.Says (pollVm code vm) none

/-- Nothing comes of an object of a VM. -/
structure InertObject (s : HostState) (vm : VmId) (object : HandleId) : Prop where
  refuses : ∀ {α : Type} {action : String} {work : Host α}, OnObject vm object action work →
    s.Refuses work (.vmClosed action)
  pointer : s.Says (pointer object) none
  sameObject : ∀ other : HandleId, s.Says (sameObject object other) false ∧ s.Says (sameObject other object) false
  holds : ∀ type : PayloadType, s.Says (Userdata.holds type object) false

theorem inertVm_of_closed (closed : s.machine? vm = none) (unread : s.vmReaders vm = 0) : s.InertVm vm where
  isClosed := isVmClosed_of_closed closed
  again := closeVm_of_closed closed unread
  refuses needs engine := needs.refused (s := { s with engine }) closed
  compiler engine := compiler?_of_closed (s := { s with engine }) closed
  polled code engine := pollVm_of_closed (s := { s with engine }) closed code

theorem inertObject_of_closed (isFor : s.vmOf? object = some vm) (closed : s.machine? vm = none) :
    s.InertObject vm object where
  refuses needs engine := needs.refused (s := { s with engine }) isFor closed
  pointer engine := pointer_of_closed (s := { s with engine }) isFor closed
  sameObject other :=
    ⟨fun engine => (sameObject_of_closed (s := { s with engine }) isFor closed other).1,
      fun engine => (sameObject_of_closed (s := { s with engine }) isFor closed other).2⟩
  holds type engine := holds_of_closed (s := { s with engine }) isFor closed type

end HostState
end ScriptHost

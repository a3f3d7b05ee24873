/-
What taking guards and giving them back comes to. A guard on a VM or on an object is had while it is open,
and nothing but the count of readers shows it; so work of the engine between the two leaves nothing but what
the engine did (`Host.withVm_inEngine_run`, `Host.withObject_inEngine_run`), and on a closed VM there is no
work (`Host.withVm_of_closed`, `Host.withObject_of_closed`).
-/
import ScriptHost.Host.Userdata
import ScriptHost.Proofs.Host.Running

namespace ScriptHost

/-- A change in one place and the change back. -/
theorem modify_modify_of_leftInverse {α : Type} {f g : α → α} (back : ∀ a, g (f a) = a) (l : List α)
    (i : Nat) : (l.modify i f).modify i g = l := by
  have same : g ∘ f = id := funext back
  rw [List.modify_modify_eq, same, List.modify_id]

theorem modify_of_getElem? {α : Type} {l : List α} {i : Nat} {a : α} (found : l[i]? = some a)
    (f : α → α) : l.modify i f = l.set i (f a) := by
  have bound := (List.getElem?_eq_some_iff.mp found).1
  refine List.ext_getElem? fun j => ?_
  by_cases same : i = j
  · subst same
    rw [List.getElem?_modify, found, List.getElem?_set_self bound]
    simp
  · simp [same]

theorem set_of_getElem? {α : Type} {l : List α} {i : Nat} {a : α} (found : l[i]? = some a) : l.set i a = l := by
  obtain ⟨bound, rfl⟩ := List.getElem?_eq_some_iff.mp found
  exact List.set_getElem_self bound

namespace Handle

variable {α : Type}

/-- A handle with one more reader. -/
def read (h : Handle α) : Handle α :=
  { h with readers := h.readers + 1 }

theorem acquire_of_pointer {h : Handle α} {p : α} (armed : h.pointer = some p) :
    h.acquire = .ok (p, h.read) := by
  simp only [acquire, read, armed]

theorem acquire_of_closed {h : Handle α} (closed : h.pointer = none) :
    h.acquire = .error .closedObject := by
  simp only [acquire, closed]

theorem disarmed_of_closed {h : Handle α} (closed : h.pointer = none) : h.disarmed = h := by
  rw [disarmed, ← closed]

end Handle

namespace HostState

/-! ## Readers -/

/-- The machine of an open VM. -/
def machine? (s : HostState) (vm : VmId) : Option MachineId :=
  (s.vms[vm]?).bind (·.lock.pointer)

/-- The reference of an open wrapper. -/
def reference? (s : HostState) (object : HandleId) : Option ReferenceId :=
  (s.wrappers[object]?).bind (·.lock.pointer)

/-- The VM that a wrapper is for. -/
def vmOf? (s : HostState) (object : HandleId) : Option VmId :=
  (s.wrappers[object]?).map (·.vm)

def readVm (s : HostState) (vm : VmId) : HostState :=
  { s with vms := s.vms.modify vm fun v => { v with lock := v.lock.read } }

def unreadVm (s : HostState) (vm : VmId) : HostState :=
  { s with vms := s.vms.modify vm fun v => { v with lock := v.lock.giveBack } }

def readObject (s : HostState) (object : HandleId) : HostState :=
  { s with wrappers := s.wrappers.modify object fun w => { w with lock := w.lock.read } }

def unreadObject (s : HostState) (object : HandleId) : HostState :=
  { s with wrappers := s.wrappers.modify object fun w => { w with lock := w.lock.giveBack } }

/-- One more guard on a userdata, and other borrows of a payload. -/
def lend (s : HostState) (userdata : HandleId) (p : PayloadId) (borrowing : Borrowing) : HostState :=
  { s.readObject userdata with payloads := s.payloads.modify p fun payload => { payload with borrowing } }

theorem unreadVm_readVm (s : HostState) (vm : VmId) (engine : Engine) :
    ({ s.readVm vm with engine }).unreadVm vm = { s with engine } := by
  have back : (s.vms.modify vm fun v => { v with lock := v.lock.read }).modify vm
      (fun v => { v with lock := v.lock.giveBack }) = s.vms :=
    modify_modify_of_leftInverse (fun _ => rfl) _ _
  simp only [readVm, unreadVm, back]

theorem unreadObject_readObject (s : HostState) (object : HandleId) (engine : Engine) :
    ({ s.readObject object with engine }).unreadObject object = { s with engine } := by
  have back : (s.wrappers.modify object fun w => { w with lock := w.lock.read }).modify object
      (fun w => { w with lock := w.lock.giveBack }) = s.wrappers :=
    modify_modify_of_leftInverse (fun _ => rfl) _ _
  simp only [readObject, unreadObject, back]

end HostState

namespace Host

variable {α : Type}

/-! ## Guards -/

theorem enterVm_run (action : String) (vm : VmId) (s : HostState) :
    enterVm action vm s = match s.machine? vm with
      | none => .error (.vmClosed action) s
      | some machine => .ok machine (s.readVm vm) := by
  simp only [enterVm, bind_run, get_run, HostState.machine?]
  cases found : s.vms[vm]? with
  | none => rfl
  | some v =>
    cases pointer : v.lock.pointer with
    | none => simp only [Handle.acquire_of_closed pointer, pointer, throw_run, Option.bind_some]
    | some machine =>
      simp only [Handle.acquire_of_pointer pointer, pointer, bind_run, set_run, pure_run, Option.bind_some,
        HostState.readVm, modify_of_getElem? found]

theorem enterVm_eq_ok_iff {action : String} {vm : VmId} {machine : MachineId} {s t : HostState} :
    enterVm action vm s = .ok machine t ↔ s.machine? vm = some machine ∧ s.readVm vm = t := by
  rw [enterVm_run]
  cases s.machine? vm <;> simp

theorem vmOf_run (object : HandleId) (s : HostState) :
    vmOf object s = match s.vmOf? object with
      | none => .error .closedObject s
      | some vm => .ok vm s := by
  simp only [vmOf, bind_run, get_run, HostState.vmOf?]
  cases s.wrappers[object]? <;> rfl

theorem vmOf_eq_ok_iff {object : HandleId} {vm : VmId} {s t : HostState} :
    vmOf object s = .ok vm t ↔ s.vmOf? object = some vm ∧ s = t := by
  rw [vmOf_run]
  cases s.vmOf? object <;> simp

theorem enterObject_run (object : HandleId) (s : HostState) :
    enterObject object s = match s.reference? object with
      | none => .error .closedObject s
      | some ref => .ok ref (s.readObject object) := by
  simp only [enterObject, bind_run, get_run, HostState.reference?]
  cases found : s.wrappers[object]? with
  | none => rfl
  | some w =>
    cases pointer : w.lock.pointer with
    | none =>
      simp only [Handle.acquire_of_closed pointer, pointer, ofResult_error, bind_run, throw_run,
        Option.bind_some]
    | some ref =>
      simp only [Handle.acquire_of_pointer pointer, pointer, ofResult_ok, bind_run, set_run, pure_run,
        Option.bind_some, HostState.readObject, modify_of_getElem? found]

theorem enterObject_eq_ok_iff {object : HandleId} {ref : ReferenceId} {s t : HostState} :
    enterObject object s = .ok ref t ↔ s.reference? object = some ref ∧ s.readObject object = t := by
  rw [enterObject_run]
  cases s.reference? object <;> simp

/-! ## Work under guards -/

theorem withVm_of_closed {action : String} {vm : VmId} {s : HostState} (closed : s.machine? vm = none)
    (work : MachineId → Host α) : withVm action vm work s = .error (.vmClosed action) s := by
  rw [withVm, bind_run, enterVm_run, closed]

theorem withVm_of_open {action : String} {vm : VmId} {machine : MachineId} {s : HostState}
    (isOpen : s.machine? vm = some machine) (work : MachineId → Host α) :
    withVm action vm work s = match work machine (s.readVm vm) with
      | .ok a t => .ok a (t.unreadVm vm)
      | .error e t => .error e (t.unreadVm vm) := by
  rw [withVm, bind_run, enterVm_run, isOpen]
  exact tryFinally_run _ _ _

/-- To read guards the engine is nothing. -/
theorem withVm_inEngine_run {action : String} {vm : VmId} {machine : MachineId} {s : HostState}
    (isOpen : s.machine? vm = some machine) (work : MachineId → Engine → α × Engine) :
    withVm action vm (fun machine => inEngine (work machine)) s =
      .ok (work machine s.engine).1 { s with engine := (work machine s.engine).2 } := by
  rw [withVm_of_open isOpen, inEngine_run]
  exact congrArg _ (s.unreadVm_readVm vm _)

theorem withObject_of_missing {action : String} {object : HandleId} {s : HostState}
    (missing : s.vmOf? object = none) (work : VmId → MachineId → ReferenceId → Host α) :
    withObject action object work s = .error .closedObject s := by
  rw [withObject, bind_run, vmOf_run, missing]

/-- Without an open VM nothing is looked at of the object but its VM. -/
theorem withObject_of_closed {action : String} {object : HandleId} {vm : VmId} {s : HostState}
    (isFor : s.vmOf? object = some vm) (closed : s.machine? vm = none)
    (work : VmId → MachineId → ReferenceId → Host α) :
    withObject action object work s = .error (.vmClosed action) s := by
  rw [withObject, bind_run, vmOf_run, isFor]
  exact withVm_of_closed closed _

theorem withObject_of_closedObject {action : String} {object : HandleId} {vm : VmId}
    {machine : MachineId} {s : HostState} (isFor : s.vmOf? object = some vm)
    (isOpen : s.machine? vm = some machine) (closed : s.reference? object = none)
    (work : VmId → MachineId → ReferenceId → Host α) :
    withObject action object work s = .error .closedObject s := by
  have there : (s.readVm vm).reference? object = none := closed
  rw [withObject, bind_run, vmOf_run, isFor]
  dsimp only
  rw [withVm_of_open isOpen, bind_run, enterObject_run, there]
  exact congrArg _ (s.unreadVm_readVm vm _)

theorem withObject_of_open {action : String} {object : HandleId} {vm : VmId} {machine : MachineId}
    {ref : ReferenceId} {s : HostState} (isFor : s.vmOf? object = some vm)
    (isOpen : s.machine? vm = some machine) (armed : s.reference? object = some ref)
    (work : VmId → MachineId → ReferenceId → Host α) :
    withObject action object work s = match work vm machine ref ((s.readVm vm).readObject object) with
      | .ok a t => .ok a ((t.unreadObject object).unreadVm vm)
      | .error e t => .error e ((t.unreadObject object).unreadVm vm) := by
  have there : (s.readVm vm).reference? object = some ref := armed
  rw [withObject, bind_run, vmOf_run, isFor]
  dsimp only
  rw [withVm_of_open isOpen, bind_run, enterObject_run, there]
  dsimp only
  rw [leaveObject, tryFinally_run]
  cases work vm machine ref ((s.readVm vm).readObject object) <;> rfl

/-- All work on an object is refused, or its VM and the object are open. -/
theorem withObject_refused_or_open (action : String) (object : HandleId) (s : HostState) :
    (∃ e, (e = .closedObject ∨ e = .vmClosed action) ∧
      ∀ {α : Type} (work : VmId → MachineId → ReferenceId → Host α), withObject action object work s = .error e s) ∨
    ∃ vm machine ref, s.vmOf? object = some vm ∧ s.machine? vm = some machine ∧ s.reference? object = some ref := by
  cases isFor : s.vmOf? object with
  | none => exact .inl ⟨_, .inl rfl, withObject_of_missing isFor⟩
  | some vm =>
    cases isOpen : s.machine? vm with
    | none => exact .inl ⟨_, .inr rfl, withObject_of_closed isFor isOpen⟩
    | some machine =>
      cases armed : s.reference? object with
      | none => exact .inl ⟨_, .inl rfl, withObject_of_closedObject isFor isOpen armed⟩
      | some ref => exact .inr ⟨vm, machine, ref, rfl, isOpen, rfl⟩

/-- Work on an object that fails either has no guards, or fails under them. -/
theorem withObject_eq_error {action : String} {object : HandleId} {work : VmId → MachineId → ReferenceId → Host α}
    {e : Error} {s t : HostState} (failed : withObject action object work s = .error e t) :
    e = .closedObject ∨ e = .vmClosed action ∨
      ∃ vm machine ref s' t', work vm machine ref s' = .error e t' := by
  obtain ⟨e', closed, refused⟩ | ⟨vm, machine, ref, isFor, isOpen, armed⟩ := withObject_refused_or_open action object s
  · obtain ⟨rfl, -⟩ := EStateM.Result.error.inj ((refused work).symm.trans failed)
    exact closed.imp_right .inl
  · rw [withObject_of_open isFor isOpen armed] at failed
    cases ended : work vm machine ref ((s.readVm vm).readObject object) with
    | ok a u =>
      rw [ended] at failed
      cases failed
    | error e' u =>
      rw [ended] at failed
      obtain ⟨rfl, -⟩ := EStateM.Result.error.inj failed
      exact .inr (.inr ⟨vm, machine, ref, _, u, ended⟩)

theorem withObject_inEngine_run {action : String} {object : HandleId} {vm : VmId} {machine : MachineId}
    {ref : ReferenceId} {s : HostState} (isFor : s.vmOf? object = some vm)
    (isOpen : s.machine? vm = some machine) (armed : s.reference? object = some ref)
    (work : VmId → MachineId → ReferenceId → Engine → α × Engine) :
    withObject action object (fun vm machine ref => inEngine (work vm machine ref)) s =
      .ok (work vm machine ref s.engine).1 { s with engine := (work vm machine ref s.engine).2 } := by
  rw [withObject_of_open isFor isOpen armed, inEngine_run]
  dsimp only
  refine congrArg _ ?_
  have inner := (s.readVm vm).unreadObject_readObject object (work vm machine ref s.engine).2
  exact (congrArg (·.unreadVm vm) inner).trans (s.unreadVm_readVm vm _)

/-! ## Payloads -/

namespace Userdata

open HostState (lend)

theorem enterPayload_of_missing {action : String} {userdata : HandleId} {s : HostState}
    (missing : s.vmOf? userdata = none) : enterPayload action userdata s = .error .closedObject s := by
  rw [enterPayload, bind_run, vmOf_run, missing]

theorem enterPayload_of_closed {action : String} {userdata : HandleId} {vm : VmId} {s : HostState}
    (isFor : s.vmOf? userdata = some vm) (closed : s.machine? vm = none) :
    enterPayload action userdata s = .error (.vmClosed action) s := by
  rw [enterPayload, bind_run, vmOf_run, isFor]
  exact withVm_of_closed closed _

theorem enterPayload_of_closedObject {action : String} {userdata : HandleId} {vm : VmId}
    {machine : MachineId} {s : HostState} (isFor : s.vmOf? userdata = some vm)
    (isOpen : s.machine? vm = some machine) (closed : s.reference? userdata = none) :
    enterPayload action userdata s = .error .closedObject s := by
  have there : (s.readVm vm).reference? userdata = none := closed
  rw [enterPayload, bind_run, vmOf_run, isFor]
  dsimp only
  rw [withVm_of_open isOpen, bind_run, enterObject_run, there]
  exact congrArg _ (s.unreadVm_readVm vm _)

/-- The guard on the VM is given back at once, the one on the userdata is not. -/
theorem enterPayload_of_open {action : String} {userdata : HandleId} {vm : VmId} {machine : MachineId}
    {ref : ReferenceId} {s : HostState} (isFor : s.vmOf? userdata = some vm)
    (isOpen : s.machine? vm = some machine) (armed : s.reference? userdata = some ref) :
    enterPayload action userdata s = .ok (s.engine.userdataPayload ref).1
      { s.readObject userdata with engine := (s.engine.userdataPayload ref).2 } := by
  have there : (s.readVm vm).reference? userdata = some ref := armed
  rw [enterPayload, bind_run, vmOf_run, isFor]
  dsimp only
  rw [withVm_of_open isOpen, bind_run, enterObject_run, there]
  exact congrArg _ ((s.readObject userdata).unreadVm_readVm vm _)

theorem payload?_eq_some {s : HostState} {type : PayloadType} {id : Option PayloadId} {p : PayloadId}
    {payload : Payload} : payload? s type id = some (p, payload) ↔
      id = some p ∧ s.payloads[p]? = some payload ∧ payload.data.type = type := by
  simp only [payload?, Option.bind_eq_some_iff, Option.ite_none_right_eq_some, Option.some_inj,
    Prod.mk.injEq]
  constructor
  · rintro ⟨p', rfl, payload', there, typed, rfl, rfl⟩
    exact ⟨rfl, there, typed⟩
  · rintro ⟨rfl, there, typed⟩
    exact ⟨p, rfl, payload, there, typed, rfl, rfl⟩

/-- A borrow that is refused leaves what there was, but for what the engine counted. -/
theorem borrow_of_open {type : PayloadType} {exclusive : Bool} {userdata : HandleId} {vm : VmId}
    {machine : MachineId} {ref : ReferenceId} {s : HostState} (isFor : s.vmOf? userdata = some vm)
    (isOpen : s.machine? vm = some machine) (armed : s.reference? userdata = some ref) :
    borrow type exclusive userdata s =
      match payload? s type (s.engine.userdataPayload ref).1 with
      | none => .error (.borrow (.wrongType type.name))
        { s with engine := (s.engine.userdataPayload ref).2 }
      | some (p, payload) => match payload.borrowing.add exclusive with
        | .error cause => .error (.borrow cause) { s with engine := (s.engine.userdataPayload ref).2 }
        | .ok borrowing => .ok ⟨userdata, p, exclusive⟩
          (lend { s with engine := (s.engine.userdataPayload ref).2 } userdata p borrowing) := by
  have back := s.unreadObject_readObject userdata (s.engine.userdataPayload ref).2
  have asked : ∀ s' : HostState, s'.payloads = s.payloads →
      payload? s' type (s.engine.userdataPayload ref).1 = payload? s type (s.engine.userdataPayload ref).1 :=
    fun s' same => by rw [payload?, payload?, same]
  rw [borrow, bind_run, enterPayload_of_open isFor isOpen armed]
  dsimp only
  rw [bind_run, tryCatch_run, bind_run, addBorrow, bind_run, get_run]
  dsimp only
  rw [asked { s.readObject userdata with engine := (s.engine.userdataPayload ref).2 } rfl]
  cases found : payload? s type (s.engine.userdataPayload ref).1 with
  | none => exact congrArg _ back
  | some found' =>
    obtain ⟨p, payload⟩ := found'
    dsimp only
    cases payload.borrowing.add exclusive with
    | error cause => exact congrArg _ back
    | ok borrowing =>
      have there := (payload?_eq_some.mp found).2.1
      have lent := modify_of_getElem? there fun payload => { payload with borrowing }
      simp only [lend, lent]
      rfl

theorem borrow_of_unentered {type : PayloadType} {exclusive : Bool} {userdata : HandleId} {e : Error}
    {s : HostState} (failed : enterPayload "borrow userdata" userdata s = .error e s) :
    borrow type exclusive userdata s = .error e s := by
  rw [borrow, bind_run, failed]

end Userdata
end Host
end ScriptHost

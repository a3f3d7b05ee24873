/-
What is in use cannot be closed (`Usage.uses_block_closing`): not an object that is called, worked on or
borrowed, and not a VM that is worked on, itself or through an object. A borrow alone does not keep the VM of
its object open (`Usage.closeVm_under_borrow`).
-/
import ScriptHost.Proofs.Host.Inside
import ScriptHost.Proofs.Host.Lawful
import ScriptHost.Proofs.Host.Orderly

namespace ScriptHost

open Host

/-! ## Closing what is read -/

namespace Host

variable {s : HostState}

theorem closeObject_of_read {object : HandleId} (read : s.objectReaders object ≠ 0) :
    closeObject object s = .error (.recursiveLock "close") s := by
  rw [closeObject_run]
  cases found : s.wrappers[object]? with
  | none => simp [HostState.objectReaders, found] at read
  | some w =>
    have readers : w.lock.readers ≠ 0 := by simpa [HostState.objectReaders, found] using read
    simp [readers]

theorem disarm_of_read {object : HandleId} (read : s.objectReaders object ≠ 0) :
    disarm object s = .error (.recursiveLock "disarm") s := by
  rw [disarm_run]
  cases found : s.wrappers[object]? with
  | none => simp [HostState.objectReaders, found] at read
  | some w =>
    have readers : w.lock.readers ≠ 0 := by simpa [HostState.objectReaders, found] using read
    simp [Handle.disarm, readers]

/-- A VM is closed unless someone reads it. -/
theorem closeVm_eq_error_iff {vm : VmId} :
    closeVm vm s = .error (.recursiveLock "close") s ↔ s.vmReaders vm ≠ 0 := by
  rw [closeVm_run, HostState.vmReaders]
  cases found : s.vms[vm]? with
  | none => simp
  | some v =>
    by_cases free : v.lock.readers = 0
    · simp [free]
    · simp [free]

end Host

namespace Usage

variable {u : Usage} {use : Use}

theorem Orderly.closeVm_eq_error_iff (orderly : u.Orderly) {vm : VmId} :
    closeVm vm u.host = .error (.recursiveLock "close") u.host ↔ ∃ use ∈ u.uses, use.vm? = some vm := by
  rw [Host.closeVm_eq_error_iff, orderly.vmReaders, ← Nat.pos_iff_ne_zero, List.countP_pos_iff]
  simp only [decide_eq_true_eq]

/-- **What is in use is not closed.** At every moment of every run, an object that is in use can be neither
closed nor disarmed, nothing changes when that is tried, and the object is there. A VM can be closed just if
no work on it or on an object of it is under way; a borrow is no such work. The call of a function is such
work: whatever lawful code does in it is a run in which the function is in use as well as all that was in use
before, and code has a part in a call nowhere else. -/
theorem uses_block_closing (u : Usage) (reached : u.Reachable) :
    (∀ use ∈ u.uses, ∀ object ∈ use.object?,
      closeObject object u.host = .error (.recursiveLock "close") u.host ∧
      disarm object u.host = .error (.recursiveLock "disarm") u.host ∧
      ∃ ref id o, u.host.reference? object = some ref ∧ u.host.engine.target? ref = some id ∧
        u.host.engine.object? id = some o) ∧
    (∀ vm, closeVm vm u.host = .error (.recursiveLock "close") u.host ↔
      ∃ use ∈ u.uses, use.vm? = some vm) ∧
    (∀ use ∈ u.uses, ∀ vm ∈ use.vm?, u.host.machine? vm ≠ none) ∧
    ∀ (code : HostCode) (function : HandleId) (args : List Value), code.Lawful →
      (∃ loose more, Leads u.uses u
        ⟨after (Function.call code function args) u.host, loose, more ++ u.uses⟩) ∧
      (∀ c owner t, Polls function args u.host c owner t → ∃ vm, u.host.vmOf? function = some vm ∧
        ∃ loose more, Leads u.uses u ⟨t, loose, more ++ .object vm function :: u.uses⟩) ∧
      (∀ c owner given t, Calls code function args u.host c owner given t →
        ∃ vm, u.host.vmOf? function = some vm ∧
          ∃ loose more, Leads u.uses u ⟨t, loose, more ++ .object vm function :: u.uses⟩) ∧
      ∀ code' : HostCode,
        (∀ c owner t, Polls function args u.host c owner t →
          code.interrupt c owner t = code'.interrupt c owner t) →
        (∀ c owner given t, Calls code function args u.host c owner given t →
          code.function c owner given t = code'.function c owner given t) →
        Function.call code function args u.host = Function.call code' function args u.host := by
  have orderly := reached.orderly
  refine ⟨fun use under object keeps => ?_, fun vm => orderly.closeVm_eq_error_iff,
    fun use under vm keeps => orderly.machine?_of_vm under keeps, fun code function args lawful => ?_⟩
  · have read := orderly.objectReaders_ne_zero under keeps
    obtain ⟨ref, armed⟩ := orderly.reference?_of_object under keeps
    obtain ⟨id, o, leads, there⟩ := orderly.exists_object armed
    exact ⟨closeObject_of_read read, disarm_of_read read, ref, id, o, armed, leads, there⟩
  · refine ⟨?_, fun c owner t polls => polls.leads u.loose u.uses,
      fun c owner given t calls => calls.leads lawful u.loose u.uses, fun code' => call_congr⟩
    obtain ⟨loose, more, leads⟩ := call_proceeds lawful function args u.host u.loose u.uses
    exact ⟨_, more, leads⟩

/-- A function that tries to close its VM, called while a userdata is borrowed. -/
theorem uses_block_closing_of_call :
    let code := Script.code [.function .closeVm] 1
    let s := borrowedUserdata.host
    borrowedUserdata.Reachable ∧ closeObject 0 s = .error (.recursiveLock "close") s ∧
      ∃ t, Calls code 1 [] s 0 0 [] t ∧ closeVm 0 t = .error (.recursiveLock "close") t ∧
        closeObject 0 t = .error (.recursiveLock "close") t ∧
        closeObject 1 t = .error (.recursiveLock "close") t := by
  intro code s
  let entered := (s.readVm 0).readObject 1
  let counted := { entered with engine := (entered.engine.failing .functionCall).2 }
  have ready : Sent 1 [] s 0 0 1 [] counted :=
    ⟨entered, entered, enter_eq_ok_iff.mpr ⟨rfl, rfl, rfl, rfl⟩, rfl, rfl⟩
  have calls : Calls code 1 [] s 0 0 [] counted :=
    ⟨0, 0, 1, [], counted, none, counted, none, ready, rfl, rfl, rfl, rfl, rfl⟩
  have reached : borrowedUserdata.Reachable := borrowedUserdata_reachable
  obtain ⟨objects, -, -, work⟩ := uses_block_closing borrowedUserdata reached
  obtain ⟨-, -, called, -⟩ := work code 1 [] (Script.code_lawful _ 1)
  obtain ⟨vm, isFor, loose, more, leads⟩ := called 0 0 [] counted calls
  obtain rfl : 0 = vm := Option.some.inj isFor
  obtain ⟨inside, vms, -, -⟩ := uses_block_closing _ (reached.leads leads)
  have function : Use.object 0 1 ∈ more ++ .object 0 1 :: borrowedUserdata.uses :=
    List.mem_append_right _ List.mem_cons_self
  have borrow : Use.borrow ⟨0, 0, true⟩ ∈ more ++ .object 0 1 :: borrowedUserdata.uses :=
    List.mem_append_right _ (List.mem_cons_of_mem _ List.mem_cons_self)
  exact ⟨reached, (objects _ List.mem_cons_self 0 rfl).1, counted, calls, (vms 0).mpr ⟨_, function, rfl⟩,
    (inside _ borrow 0 rfl).1, (inside _ function 1 rfl).1⟩

/-- A VM is not kept open by a borrow of a userdata of it. -/
theorem closeVm_under_borrow :
    ¬ ∀ u : Usage, u.Reachable → ∀ use ∈ u.uses, ∀ object ∈ use.object?, ∀ vm ∈ u.host.vmOf? object,
      closeVm vm u.host = .error (.recursiveLock "close") u.host := by
  intro blocked
  have refused := blocked _ borrowedUserdata_reachable (.borrow ⟨0, 0, true⟩) List.mem_cons_self 0 rfl 0 rfl
  have closed : answer? (closeVm 0) borrowedUserdata.host = some () := rfl
  rw [answer?, refused] at closed
  cases closed

end Usage
end ScriptHost

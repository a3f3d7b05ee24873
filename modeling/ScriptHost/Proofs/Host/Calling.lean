/-
Calls of functions as runs of the host. Host code is lawful if it does nothing but what the host offers
(`HostCode.Lawful`). A call with such code is a run in which all that was in use before goes on
(`Host.call_proceeds`).
-/
import ScriptHost.Proofs.Host.Ending
import ScriptHost.Proofs.Host.Proceeding

namespace ScriptHost
namespace Host

open Usage (Leads)

/-! ## Values on their way -/

theorem sendAll_proceeds (vm : VmId) (values : List Value) :
    Proceeds [] (sendAll vm values) RawList.carried [] := by
  have proceeds : Proceeds [] (Command.send vm values).perform id [] :=
    .of_command (c := .send vm values) trivial
  exact proceeds.of_map

theorem receiveAll_proceeds (vm : VmId) (list : RawList (Option ReferenceId)) (left : List ReferenceId) :
    Proceeds (RawList.carried list) (receiveAll vm list) (fun _ => []) left := by
  have proceeds : Proceeds (RawList.carried list) (receiveAll vm list) (fun _ => []) [] :=
    .of_quiet (c := .receive vm list) trivial rfl
  exact proceeds.of_succeeds (receiveAll_succeeds vm list)

/-- What a program may ask for. -/
theorem ask_proceeds {α : Type} (request : Request) (plain : request.Plain) {work : Host α} {reply : α → Reply}
    (same : request.perform .idle = do return reply (← work)) : Proceeds [] work (fun _ => []) [] := by
  have asked : Proceeds [] (request.perform .idle) (fun _ => []) [] :=
    .of_quiet (c := .ask request) plain rfl
  rw [same] at asked
  exact asked.of_map

theorem closeAll_proceeds (values : List Value) : Proceeds [] (closeAll values) (fun _ => []) [] :=
  ask_proceeds (.closeAll values) trivial rfl

theorem freeList_proceeds (list : RawList (Option ReferenceId)) (left : List ReferenceId) :
    Proceeds (RawList.carried list) (freeList list) (fun _ => []) left := by
  have proceeds : Proceeds (RawList.carried list) (freeList list) (fun _ => []) [] :=
    .of_quiet (c := .freeList list) trivial rfl
  exact proceeds.of_succeeds fun _ => ⟨_, _, rfl⟩

theorem discard_proceeds (list : RawList (Option ReferenceId)) (left : List ReferenceId) :
    Proceeds (RawList.carried list) (inEngine (·.receiveAll list)) (fun _ => []) left := by
  have proceeds : Proceeds (RawList.carried list) (inEngine (·.receiveAll list)) (fun _ => []) [] :=
    .of_quiet (c := .discard list) trivial rfl
  exact proceeds.of_succeeds fun _ => ⟨_, _, rfl⟩

/-- A call is counted, whatever is loose. -/
theorem failing_proceeds (f : EngineFunction) (loose left : List ReferenceId) :
    Proceeds loose (inEngine (·.failing f)) (fun _ => loose) left := by
  have proceeds : Proceeds [] (inEngine (·.failing f)) (fun _ => []) [] :=
    .of_quiet (c := .countCall f) trivial rfl
  exact (proceeds.frame loose).of_succeeds fun _ => ⟨_, _, rfl⟩

theorem callbackVm_proceeds (action : String) (c : CallbackId) :
    Proceeds [] (callbackVm action c) (fun _ => []) [] := by
  refine .of_same fun s => ?_
  rcases callbackVm_run action c s with ⟨e, gone⟩ | ⟨vm, found⟩
  · exact after_eq_of_error gone
  · exact after_eq_of_ok found

end Host

/-! ## Lawful code -/

/-- Host code that does nothing but what the host offers, and ends nothing that is in use when it is
called. -/
structure HostCode.Lawful (code : HostCode) : Prop where
  call : ∀ c vm args, Host.Proceeds [] (code.call c vm args) (fun _ => []) []
  poll : ∀ c vm, Host.Proceeds [] (code.poll c vm) (fun _ => []) []

namespace Host

open Usage (Leads)

variable {code : HostCode}

theorem pollCallback_proceeds (lawful : code.Lawful) (c : CallbackId) :
    Proceeds [] (pollCallback code c) (fun _ => []) [] := by
  have polled : Proceeds [] (do code.poll c (← callbackVm "poll interrupt" c)) (fun _ => []) [] :=
    (callbackVm_proceeds _ c).bind fun vm => lawful.poll c vm
  refine Proceeds.bind polled.attempt fun result => ?_
  cases result with
  | ok state => exact .pure rfl
  | error e => exact .pure rfl

/-- What is loose is still loose when the interrupt was polled. -/
theorem pollMachine_proceeds (lawful : code.Lawful) (machine : MachineId) (loose left : List ReferenceId) :
    Proceeds loose (pollMachine code machine) (fun _ => loose) left := by
  have polled : Proceeds [] (pollMachine code machine) (fun _ => []) [] := by
    refine Proceeds.get fun s => ?_
    cases (s.engine.machine? machine).bind (·.interrupt) with
    | none => exact .pure rfl
    | some c => exact (pollCallback_proceeds lawful c).bind fun polled => .pure rfl
  exact (polled.frame loose).of_succeeds (pollMachine_succeeds code machine)

/-- A list that is on its way is freed if some work fails meanwhile. -/
theorem freeing_proceeds {α : Type} {work : Host α} (proceeds : Proceeds [] work (fun _ => []) [])
    (list : RawList (Option ReferenceId)) :
    Proceeds (RawList.carried list)
      (tryCatch work fun e => do
        freeList list
        throw e)
      (fun _ => RawList.carried list) [] :=
  (proceeds.frame (RawList.carried list)).tryCatch fun _ => (freeList_proceeds list []).bind fun _ => .throw

theorem callback_proceeds (lawful : code.Lawful) (c : CallbackId) (args : RawList (Option ReferenceId)) :
    Proceeds (RawList.carried args) (callback code c args) (orLeft [] RawList.carried) [] := by
  refine Proceeds.bind (@Proceeds.attempt _ _ [] RawList.carried _ [] ?_) fun result => ?_
  · refine (freeing_proceeds (callbackVm_proceeds _ c) args).bind fun vm => ?_
    refine (receiveAll_proceeds vm args []).bind fun values => ?_
    refine (lawful.call c vm values).bind fun values => ?_
    refine Proceeds.bind (sendAll_proceeds vm values).attempt fun list => ?_
    have closed := freeing_proceeds (closeAll_proceeds values) (list.toOption.getD [])
    rw [carried_toOption list] at closed
    exact closed.bind fun _ => .ofResult
  · cases result with
    | ok list => exact .pure rfl
    | error e => exact .pure rfl

theorem runChunk_proceeds (code : HostCode) (args : RawList (Option ReferenceId)) (name : String)
    (source : Bytes) (level : UInt8) :
    Proceeds (RawList.carried args) (runBody code args (.chunk name source level))
      (orLeft [] RawList.carried) [] := by
  have proceeds : Proceeds (RawList.carried args) (Command.runChunk args name source level).perform id [] :=
    .of_command (c := .runChunk args name source level) trivial
  exact proceeds.of_map

theorem runBody_proceeds (lawful : code.Lawful) (args : RawList (Option ReferenceId))
    (body : FunctionBody) :
    Proceeds (RawList.carried args) (runBody code args body) (orLeft [] RawList.carried) [] := by
  cases body with
  | host c => exact callback_proceeds lawful c args
  | chunk name source level => exact runChunk_proceeds code args name source level

theorem engineCall_proceeds (lawful : code.Lawful) (machine : MachineId) (function : ReferenceId)
    (args : RawList (Option ReferenceId)) :
    Proceeds (RawList.carried args) (engineCall code machine function args)
      (fun answer => RawList.carried answer.1) [] := by
  have refused : ∀ message : CString, Proceeds (RawList.carried args)
      (do
        let _ ← inEngine (·.receiveAll args)
        return (([], some message) : RawList (Option ReferenceId) × Option CString))
      (fun answer => RawList.carried answer.1) [] :=
    fun message => (discard_proceeds args []).bind fun _ => .pure rfl
  refine (failing_proceeds .functionCall _ []).bind fun fault => ?_
  refine (pollMachine_proceeds lawful machine _ []).bind fun record => ?_
  cases record.bind (·.error) with
  | some message => exact refused message
  | none =>
    refine Proceeds.get fun s => ?_
    cases s.engine.deref? function with
    | none => exact refused _
    | some o =>
      cases o with
      | function body environment =>
        refine (runBody_proceeds lawful args body).bind fun result => ?_
        cases result with
        | ok results => exact .pure rfl
        | error message => exact .pure rfl
      | _ => exact refused _

/-- A call is a run of the host in which everything that is in use goes on. -/
theorem call_proceeds (lawful : code.Lawful) (function : HandleId) (args : List Value) :
    Proceeds [] (Function.call code function args) (fun _ => []) [] := by
  refine .withObject fun vm machine ref => (sendAll_proceeds vm args).bind fun sent => ?_
  refine (engineCall_proceeds lawful machine ref sent).bind fun answer => ?_
  obtain ⟨list, error⟩ := answer
  refine (receiveAll_proceeds vm list []).bind fun values => ?_
  cases error with
  | none => exact .pure rfl
  | some message => exact (closeAll_proceeds values).bind fun _ => .throw

end Host
end ScriptHost

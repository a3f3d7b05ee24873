/-
Everything that is done to the host at one go, without running code of the host: what programs ask, and the
parts of calls (`Command`). A command balances references, those that it takes and leaves loose included
(`Command.perform_trades`), and gives back its guards (`Command.perform_evolves`).
-/
import ScriptHost.Proofs.Host.Evolving
import ScriptHost.Proofs.Host.Program
import ScriptHost.Proofs.Host.Scripts

namespace ScriptHost

/-- A request that runs no code of the host. -/
def Request.Plain : Request → Prop
  | call .. => False
  | _ => True

/-- Code of a host that does nothing. -/
def HostCode.idle : HostCode :=
  ⟨fun _ _ _ s => (.returned (.ok []), s), fun _ _ s => (.returned (.ok .continue), s)⟩

inductive Command where
  | ask (request : Request)
  /- What a VM offers -/
  | newCallback (vm : VmId) (kept : List Value)
  | createFunction (vm : VmId) (callback : CallbackId)
  | setCompiler (vm : VmId) (options : CompilerOptions)
  | setInterrupt (vm : VmId) (callback : CallbackId)
  | removeInterrupt (vm : VmId)
  /- Objects -/
  | pointer (object : HandleId)
  | sameObject (a b : HandleId)
  | stringBytes (string : HandleId)
  | stringText (string : HandleId)
  | bufferLength (buffer : HandleId)
  | bufferIsEmpty (buffer : HandleId)
  | bufferRead (buffer : HandleId) (offset length : UInt64)
  | bufferWrite (buffer : HandleId) (offset : UInt64) (data : Bytes)
  | bufferBytes (buffer : HandleId)
  | holds (type : PayloadType) (userdata : HandleId)
  | abandon (pairs : List (Value × Value))
  /- References without a wrapper -/
  | disarm (object : HandleId)
  | release (ref : ReferenceId)
  | wrap (vm : VmId) (kind : ObjectKind) (ref : Option ReferenceId)
  /- The parts of calls -/
  | send (vm : VmId) (values : List Value)
  | receive (vm : VmId) (list : RawList (Option ReferenceId))
  | countCall (function : EngineFunction)
  /-- The engine takes values over that nobody looks at. -/
  | discard (list : RawList (Option ReferenceId))
  | freeList (list : RawList (Option ReferenceId))
  | runChunk (args : RawList (Option ReferenceId)) (name : String) (source : Bytes) (level : UInt8)
  /-- A callback takes note of a call. -/
  | noteCall (callback : CallbackId)

namespace Command

def Plain : Command → Prop
  | ask request => request.Plain
  | _ => True

/-- Whether userdata is made. -/
def Makes : Command → Prop
  | ask (.createUserdata ..) => True
  | _ => False

theorem eq_of_makes {c : Command} (makes : c.Makes) : ∃ vm data, c = ask (.createUserdata vm data) := by
  cases c with
  | ask request =>
    cases request with
    | createUserdata vm data => exact ⟨vm, data, rfl⟩
    | _ => exact makes.elim
  | _ => exact makes.elim

/-- The loose references that a command takes. -/
def taken : Command → List ReferenceId
  | release ref => [ref]
  | wrap _ _ ref => ref.toList
  | receive _ list | discard list | freeList list | runChunk list _ _ _ => RawList.carried list
  | _ => []

/-- Does what a command says. The references that it leaves loose are the answer. -/
def perform : Command → Host (List ReferenceId)
  | ask request => do
    let _ ← request.perform .idle
    return []
  | newCallback vm kept => do
    let _ ← Host.newCallback vm kept
    return []
  | createFunction vm callback => do
    let _ ← Host.createFunction vm callback
    return []
  | setCompiler vm options => do
    Host.setCompiler vm options
    return []
  | setInterrupt vm callback => do
    Host.setInterrupt vm callback
    return []
  | removeInterrupt vm => do
    Host.removeInterrupt vm
    return []
  | pointer object => do
    let _ ← Host.pointer object
    return []
  | sameObject a b => do
    let _ ← Host.sameObject a b
    return []
  | stringBytes string => do
    let _ ← Host.stringBytes string
    return []
  | stringText string => do
    let _ ← Host.stringText string
    return []
  | bufferLength buffer => do
    let _ ← Host.Buffer.length buffer
    return []
  | bufferIsEmpty buffer => do
    let _ ← Host.Buffer.isEmpty buffer
    return []
  | bufferRead buffer offset length => do
    let _ ← Host.Buffer.read buffer offset length
    return []
  | bufferWrite buffer offset data => do
    Host.Buffer.write buffer offset data
    return []
  | bufferBytes buffer => do
    let _ ← Host.Buffer.toBytes buffer
    return []
  | holds type userdata => do
    let _ ← Host.Userdata.holds type userdata
    return []
  | abandon pairs => do
    Host.Table.abandon pairs
    return []
  | disarm object => return [← Host.disarm object]
  | release ref => do
    Host.inEngine fun e => ((), e.giveBack ref)
    return []
  | wrap vm kind ref => do
    let _ ← Host.wrap vm kind ref
    return []
  | send vm values => return RawList.carried (← Host.sendAll vm values)
  | receive vm list => do
    let _ ← Host.receiveAll vm list
    return []
  | countCall function => do
    let _ ← Host.inEngine (·.failing function)
    return []
  | discard list => do
    let _ ← Host.inEngine (·.receiveAll list)
    return []
  | freeList list => do
    Host.freeList list
    return []
  | runChunk args name source level =>
    return orLeft [] RawList.carried (← Host.runBody .idle args (.chunk name source level))
  | noteCall callback => do
    modify (·.countCall callback)
    return []

end Command

/-! ## Balance -/

theorem HostCode.idle_conserves {calls : CallbackId → Prop} : HostCode.idle.Conserves calls :=
  ⟨fun _ _ _ _ => Host.recovering_conserves fun _ _ h => h,
    fun _ _ _ => Host.recovering_conserves fun _ _ h => h⟩

namespace Engine

/-- Every callback may be called. -/
abbrev AnyCall : CallbackId → Prop := fun _ => True

/-- Work that is nothing to references. -/
def Bare {α : Type} (work : Engine → α × Engine) : Prop :=
  ∀ e, (work e).2.references = e.references ∧ (work e).2.returned = e.returned ∧
    (work e).2.leaked = e.leaked

theorem Bare.trades {α : Type} {work : Engine → α × Engine} (bare : Bare work) :
    Trades AnyCall [] work fun _ => [] := fun e _ h =>
  h.of_references (bare e).1 (bare e).2.1 (bare e).2.2 (fun _ _ => .inr fun _ _ => trivial)
    fun _ _ => .inr fun _ _ => trivial

theorem stringBytes_bare (ref : ReferenceId) : Bare (·.stringBytes ref) := by
  intro e
  rcases fault : e.failing .stringBytes with ⟨_ | mode, e'⟩ <;> simp only [stringBytes, fault] <;>
    obtain rfl := congrArg Prod.snd fault
  · split <;> exact ⟨rfl, rfl, rfl⟩
  · exact ⟨rfl, rfl, rfl⟩

/-- The call is counted, and that is all. -/
theorem userdataPayload_snd (e : Engine) (ref : ReferenceId) :
    (e.userdataPayload ref).2 = (e.failing .userdataPayload).2 := by
  rcases fault : e.failing .userdataPayload with ⟨_ | mode, e'⟩ <;> simp only [userdataPayload, fault]
  split <;> rfl

theorem userdataPayload_bare (ref : ReferenceId) : Bare (·.userdataPayload ref) := by
  intro e
  rw [userdataPayload_snd]
  exact ⟨rfl, rfl, rfl⟩

/-- The payload that the engine points at is that of the userdata. -/
theorem deref?_of_userdataPayload {e : Engine} {ref : ReferenceId} {p : PayloadId}
    (pointed : (e.userdataPayload ref).1 = some p) : e.deref? ref = some (.userdata p) := by
  rcases fault : e.failing .userdataPayload with ⟨_ | mode, e'⟩ <;>
    simp only [userdataPayload, fault] at pointed <;> obtain rfl := congrArg Prod.snd fault
  · split at pointed
    · next found =>
      cases pointed
      exact found
    · cases pointed
  · cases pointed

theorem setCompiler_bare (machine : MachineId) (record : CompilerRecord) :
    Bare fun e => ((), e.setCompiler machine record) := by
  intro e
  simp only [setCompiler]
  split <;> exact ⟨rfl, rfl, rfl⟩

theorem setInterrupt_bare (machine : MachineId) (callback : Option CallbackId) :
    Bare fun e => ((), e.setInterrupt machine callback) := by
  intro e
  simp only [setInterrupt]
  split <;> exact ⟨rfl, rfl, rfl⟩

theorem bufferWrite_bare (buffer : ReferenceId) (offset : Nat) (data : Bytes) :
    Bare (·.bufferWrite buffer offset data) := by
  intro e
  simp only [bufferWrite]
  split
  · next id bytes _ _ =>
    cases rangePanic? offset data.length bytes.length <;> exact ⟨rfl, rfl, rfl⟩
  · exact ⟨rfl, rfl, rfl⟩

end Engine

namespace Host

open Engine (AnyCall Bare)

variable {α : Type}

theorem inEngine_conserves {work : Engine → α × Engine} (bare : Bare work) :
    Conserves AnyCall (inEngine work) :=
  Trades.inEngine bare.trades

theorem tryInEngine_conserves {ε : Type} {failure : ε → Error} {work : Engine → Except ε α × Engine}
    (bare : Bare work) : Conserves AnyCall (tryInEngine failure work) := by
  refine Conserves.bind (inEngine_conserves bare) fun result => ?_
  cases result with
  | ok a => exact Conserves.pure a
  | error e => exact Conserves.throw _

theorem pointer_conserves (object : HandleId) : Conserves AnyCall (pointer object) := by
  have read : Conserves AnyCall (withObject "get pointer" object fun _ _ ref => return ref) :=
    Trades.withObject fun _ _ _ => Trades.pure rfl
  refine read.attempt.bind fun found => ?_
  cases found with
  | ok ref => exact Conserves.pure _
  | error e => exact Conserves.pure _

theorem sameObject_conserves (a b : HandleId) : Conserves AnyCall (sameObject a b) := by
  refine Conserves.get fun s => ?_
  split
  · exact Conserves.pure _
  · refine (pointer_conserves a).bind fun found => ?_
    cases found with
    | none => exact Conserves.pure _
    | some ref => exact (pointer_conserves b).bind fun _ => Conserves.pure _

theorem stringBytes_conserves (string : HandleId) : Conserves AnyCall (stringBytes string) :=
  Trades.withObject fun _ _ ref => (inEngine_conserves (Engine.stringBytes_bare ref)).bind fun _ =>
    Conserves.pure _

theorem setCompiler_conserves (vm : VmId) (options : CompilerOptions) :
    Conserves AnyCall (setCompiler vm options) :=
  Trades.withVm fun _ => inEngine_conserves (Engine.setCompiler_bare _ _)

theorem setInterrupt_conserves (vm : VmId) (callback : CallbackId) :
    Conserves AnyCall (setInterrupt vm callback) :=
  Trades.withVm fun _ => inEngine_conserves (Engine.setInterrupt_bare _ _)

theorem removeInterrupt_conserves (vm : VmId) : Conserves AnyCall (removeInterrupt vm) :=
  Trades.withVm fun _ => inEngine_conserves (Engine.setInterrupt_bare _ _)

theorem bufferLength_conserves (buffer : HandleId) : Conserves AnyCall (Buffer.length buffer) :=
  Trades.withObject fun _ _ _ => Conserves.get fun _ => Conserves.pure _

theorem checkRange_conserves (ref : ReferenceId) (offset length : UInt64) :
    Conserves AnyCall (Buffer.checkRange ref offset length) := by
  refine Conserves.get fun s => ?_
  dsimp only
  split
  · exact Conserves.pure _
  · exact Conserves.throw _

theorem bufferRead_conserves (buffer : HandleId) (offset length : UInt64) :
    Conserves AnyCall (Buffer.read buffer offset length) :=
  Trades.withObject fun _ _ ref => (checkRange_conserves ref offset length).bind fun _ =>
    tryInEngine_conserves fun _ => ⟨rfl, rfl, rfl⟩

theorem bufferWrite_conserves (buffer : HandleId) (offset : UInt64) (data : Bytes) :
    Conserves AnyCall (Buffer.write buffer offset data) :=
  Trades.withObject fun _ _ ref => (checkRange_conserves ref offset _).bind fun _ =>
    tryInEngine_conserves (Engine.bufferWrite_bare ref _ _)

theorem holds_conserves (type : PayloadType) (userdata : HandleId) :
    Conserves AnyCall (Userdata.holds type userdata) := by
  have entered : Conserves AnyCall (Userdata.enterPayload "inspect userdata" userdata) :=
    (vmOf_conserves userdata).bind fun vm => Trades.withVm fun _ =>
      (enterObject_conserves userdata).bind fun ref => inEngine_conserves (Engine.userdataPayload_bare ref)
  have left : Conserves AnyCall (leaveObject userdata) := fun _ _ h => h.giveBack_wrapper userdata
  refine entered.attempt.bind fun found => ?_
  cases found with
  | ok p => exact left.bind fun _ => Conserves.get fun _ => Conserves.pure _
  | error e => exact Conserves.pure _

end Host

open Host Engine in
/-- What a command takes and leaves of the loose references, when it fails nothing. -/
theorem Command.perform_trades (c : Command) : Trades AnyCall c.taken c.perform id [] := by
  have quiet : ∀ {α : Type} {work : Host α}, Conserves AnyCall work →
      Trades AnyCall [] (do
        let _ ← work
        return []) id [] :=
    fun conserved => Trades.bind conserved fun _ => Trades.pure rfl
  cases c with
  | ask request => exact quiet (request.perform_conserves HostCode.idle_conserves)
  | newCallback vm kept => exact quiet (newCallback_conserves vm kept)
  | createFunction vm callback => exact quiet (createFunction_conserves trivial vm)
  | setCompiler vm options => exact quiet (setCompiler_conserves vm options)
  | setInterrupt vm callback => exact quiet (setInterrupt_conserves vm callback)
  | removeInterrupt vm => exact quiet (removeInterrupt_conserves vm)
  | pointer object => exact quiet (pointer_conserves object)
  | sameObject a b => exact quiet (sameObject_conserves a b)
  | stringBytes string => exact quiet (stringBytes_conserves string)
  | stringText string => exact quiet ((stringBytes_conserves string).bind fun _ => Conserves.pure _)
  | bufferLength buffer => exact quiet (bufferLength_conserves buffer)
  | bufferIsEmpty buffer => exact quiet ((bufferLength_conserves buffer).bind fun _ => Conserves.pure _)
  | bufferRead buffer offset length => exact quiet (bufferRead_conserves buffer offset length)
  | bufferWrite buffer offset data => exact quiet (bufferWrite_conserves buffer offset data)
  | bufferBytes buffer =>
    exact quiet ((bufferLength_conserves buffer).bind fun _ => bufferRead_conserves buffer _ _)
  | holds type userdata => exact quiet (holds_conserves type userdata)
  | abandon pairs => exact quiet (Table.abandon_conserves pairs)
  | disarm object => exact (disarm_trades object).bind fun ref => Trades.pure rfl
  | release ref =>
    have returned : Trades AnyCall [ref] (inEngine fun e => ((), e.giveBack ref)) (fun _ => []) [] :=
      Trades.inEngine (giveBack_trades ref)
    exact returned.bind fun _ => Trades.pure rfl
  | wrap vm kind ref => exact (wrap_trades vm kind ref []).bind fun _ => Trades.pure rfl
  | send vm values => exact (sendAll_trades vm values).bind fun list => Trades.pure rfl
  | receive vm list => exact (receiveAll_trades vm list []).bind fun _ => Trades.pure rfl
  | countCall function => exact (failing_keeps function [] []).bind fun _ => Trades.pure rfl
  | discard list =>
    exact Trades.bind (Trades.inEngine (Engine.receiveAll_trades list)) fun _ => Trades.pure rfl
  | freeList list =>
    exact (freeList_trades (c := 0) trivial list []).bind fun _ => Trades.pure rfl
  | runChunk args name source level =>
    exact (runChunk_trades .idle args name source level).bind fun result => Trades.pure rfl
  | noteCall callback =>
    have noted : Conserves AnyCall (modify (·.countCall callback) : Host PUnit) :=
      Conserves.of_frame fun _ => ⟨rfl, rfl⟩
    exact quiet noted

/-! ## Guards -/

open Host HostState in
theorem Request.perform_evolves {makes : Prop} {request : Request} (plain : request.Plain)
    (made : ∀ vm data, request = .createUserdata vm data → makes) (code : HostCode) :
    Moves (Evolving makes) (request.perform code) := by
  have replied : ∀ {α : Type} {work : Host α} (reply : α → Reply), Moves (Evolving makes) work →
      Moves (Evolving makes) (do return reply (← work)) :=
    fun reply evolves => evolves.bind fun a => Moves.pure (reply a)
  cases request with
  | newVm => exact replied .vm newVm_evolves
  | closeVm vm => exact replied (fun _ => .done) (closeVm_evolves vm)
  | globals vm => exact replied .value (globals_evolves vm)
  | createString vm bytes => exact replied .value (createString_evolves vm bytes)
  | createTable vm => exact replied .value (createTable_evolves vm)
  | createBuffer vm size => exact replied .value (createBuffer_evolves vm size)
  | createUserdata vm data =>
    obtain rfl : makes = True := eq_true (made vm data rfl)
    exact (newPayload_evolves data).bind fun payload => replied .value (createUserdata_evolves vm payload)
  | createError message => exact replied .value (newError_moves message)
  | get table key => exact replied .value (Table.get_evolves table key)
  | set table key value => exact replied (fun _ => .done) (Table.set_evolves table key value)
  | length table => exact replied .count (Table.length_evolves table)
  | isEmpty table => exact replied .flag (Table.isEmpty_evolves table)
  | pairs table => exact replied .pairs (Table.pairs_evolves table)
  | metatable table => exact replied .object? (Table.metatable_evolves table)
  | setMetatable table meta? => exact replied (fun _ => .done) (Table.setMetatable_evolves table meta?)
  | loadChunk vm chunk => exact replied .object (loadChunk_evolves vm chunk)
  | environment function => exact replied .object? (environment_evolves function)
  | call function args => exact plain.elim
  | close value => exact replied (fun _ => .done) (close_moves value)
  | closeAll values => exact replied (fun _ => .done) (closeAll_moves values)
  | arm fault => exact replied (fun _ => .done) (inEngine_evolves fun _ sound => sound.arm fault)

open Host HostState in
theorem Command.perform_evolves {c : Command} (plain : c.Plain) : Moves (Evolving c.Makes) c.perform := by
  have quiet : ∀ {makes : Prop} {α : Type} {work : Host α} (answer : α → List ReferenceId),
      Moves (Evolving makes) work → Moves (Evolving makes) (do return answer (← work)) :=
    fun answer evolves => evolves.bind fun a => Moves.pure (answer a)
  cases c with
  | ask request =>
    refine quiet (fun _ => []) (Request.perform_evolves plain (fun vm data isMade => ?_) .idle)
    rw [isMade]
    trivial
  | newCallback vm kept => exact quiet (fun _ => []) (newCallback_evolves vm kept)
  | createFunction vm callback => exact quiet (fun _ => []) (createFunction_evolves vm callback)
  | setCompiler vm options => exact quiet (fun _ => []) (setCompiler_evolves vm options)
  | setInterrupt vm callback => exact quiet (fun _ => []) (setInterrupt_evolves vm callback)
  | removeInterrupt vm => exact quiet (fun _ => []) (removeInterrupt_evolves vm)
  | pointer object => exact quiet (fun _ => []) (pointer_moves object)
  | sameObject a b => exact quiet (fun _ => []) (sameObject_moves a b)
  | stringBytes string => exact quiet (fun _ => []) (stringBytes_evolves string)
  | stringText string =>
    exact quiet (fun _ => []) ((stringBytes_evolves string).bind fun _ => Moves.pure _)
  | bufferLength buffer => exact quiet (fun _ => []) (Buffer.length_evolves buffer)
  | bufferIsEmpty buffer =>
    exact quiet (fun _ => []) ((Buffer.length_evolves buffer).bind fun _ => Moves.pure _)
  | bufferRead buffer offset length => exact quiet (fun _ => []) (Buffer.read_evolves buffer offset length)
  | bufferWrite buffer offset data => exact quiet (fun _ => []) (Buffer.write_evolves buffer offset data)
  | bufferBytes buffer => exact quiet (fun _ => []) (Buffer.toBytes_evolves buffer)
  | holds type userdata => exact quiet (fun _ => []) (Userdata.holds_evolves type userdata)
  | abandon pairs => exact quiet (fun _ => []) (Table.abandon_moves pairs)
  | disarm object => exact quiet ([·]) (disarm_evolves object)
  | release ref => exact quiet (fun _ => []) (inEngine_evolves fun _ sound => sound.giveBack ref)
  | wrap vm kind ref => exact quiet (fun _ => []) (wrap_moves vm kind ref)
  | send vm values => exact quiet RawList.carried (sendAll_evolves vm values)
  | receive vm list => exact quiet (fun _ => []) (receiveAll_moves vm list)
  | countCall function => exact quiet (fun _ => []) (inEngine_evolves fun _ sound => sound.failing function)
  | discard list => exact quiet (fun _ => []) (inEngine_evolves fun _ sound => sound.receiveAll list)
  | freeList list => exact quiet (fun _ => []) (inEngine_evolves fun _ sound => sound.freeList list)
  | runChunk args name source level =>
    exact quiet (orLeft [] RawList.carried) (runChunk_evolves .idle args name source level)
  | noteCall callback =>
    have noted : Moves (Evolving False) (modify (·.countCall callback) : Host PUnit) := fun s valid =>
      ⟨.refl _, .refl _, .modify (fun _ => ⟨rfl⟩) callback, .refl _, .refl _, .refl _, List.suffix_rfl,
        valid.congr rfl rfl⟩
    exact quiet (fun _ => []) noted

end ScriptHost

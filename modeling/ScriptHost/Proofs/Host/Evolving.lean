/-
What work of the host does to the state, as long as it gives back every guard that it takes
(`HostState.Evolves`): VMs, wrappers, callbacks and payloads stay in their places, nothing that is read is
closed, what is closed stays closed, and as many guards are out as before. The state stays valid: the engine
is sound, and each machine it started is held by one VM or was stopped once (`HostState.Valid`).
-/
import ScriptHost.Proofs.Engine.Evolving
import ScriptHost.Proofs.Host.Moves
import ScriptHost.Proofs.Host.Reclaiming
import ScriptHost.Host.Buffer
import ScriptHost.Host.Chunk
import ScriptHost.Host.Userdata

namespace ScriptHost

/-- A handle after work that gave back its guards: as it was, or ended, which takes that nobody reads. -/
structure Handle.Follows {α : Type} (h h' : Handle α) : Prop where
  kind : h'.kind = h.kind
  readers : h'.readers = h.readers
  pointer : h'.pointer = h.pointer ∨ h'.pointer = none ∧ h.readers = 0

namespace Handle

variable {α : Type} {h h' : Handle α}

theorem Follows.refl (h : Handle α) : h.Follows h :=
  ⟨rfl, rfl, .inl rfl⟩

theorem Follows.trans {h'' : Handle α} (first : h.Follows h') (second : h'.Follows h'') :
    h.Follows h'' := by
  refine ⟨second.kind.trans first.kind, second.readers.trans first.readers, ?_⟩
  rcases second.pointer with same | ⟨ended, unread⟩
  · rw [same]
    exact first.pointer
  · exact .inr ⟨ended, first.readers ▸ unread⟩

theorem follows_disarmed (unread : h.readers = 0) : h.Follows h.disarmed :=
  ⟨rfl, rfl, .inr ⟨rfl, unread⟩⟩

/-- What is read is not ended. -/
theorem Follows.pointer_of_readers (follows : h.Follows h') (read : h.readers ≠ 0) :
    h'.pointer = h.pointer :=
  follows.pointer.resolve_right fun ended => read ended.2

/-- A guard that was taken and given back. -/
theorem Follows.giveBack (during : h.read.Follows h') : h.Follows h'.giveBack := by
  have same : h'.pointer = h.pointer := during.pointer_of_readers (Nat.succ_ne_zero _)
  refine ⟨during.kind, ?_, .inl same⟩
  simp only [Handle.giveBack, during.readers, Handle.read, Nat.add_sub_cancel]

end Handle

structure Vm.Follows (v v' : Vm) : Prop where
  lock : v.lock.Follows v'.lock

structure Wrapper.Follows (w w' : Wrapper) : Prop where
  vm : w'.vm = w.vm
  lock : w.lock.Follows w'.lock

structure Callback.Follows (c c' : Callback) : Prop where
  vm : c'.vm = c.vm

structure Payload.Follows (p p' : Payload) : Prop where
  type : p'.data.type = p.data.type
  borrowing : p'.borrowing = p.borrowing

instance : IsPreorder Vm Vm.Follows where
  refl v := ⟨.refl v.lock⟩
  trans _ _ _ first second := ⟨first.lock.trans second.lock⟩

instance : IsPreorder Wrapper Wrapper.Follows where
  refl w := ⟨rfl, .refl w.lock⟩
  trans _ _ _ first second := ⟨second.vm.trans first.vm, first.lock.trans second.lock⟩

instance : IsPreorder Callback Callback.Follows where
  refl _ := ⟨rfl⟩
  trans _ _ _ first second := ⟨second.vm.trans first.vm⟩

instance : IsPreorder Payload Payload.Follows where
  refl _ := ⟨rfl, rfl⟩
  trans _ _ _ first second := ⟨second.type.trans first.type, second.borrowing.trans first.borrowing⟩

namespace HostState

variable {makes : Prop} {s t u : HostState}

/-! ## Valid states -/

/-- The machines that VMs own. -/
def machines (s : HostState) : List MachineId :=
  s.vms.filterMap (·.lock.pointer)

/-- The engine is sound, each machine is owned by one VM or was stopped once, and a VM to which nothing
refers any more is closed. -/
structure Valid (s : HostState) : Prop where
  sound : s.engine.Sound
  machines : (s.machines ++ s.engine.stopped).Perm (List.range s.engine.machines.length)
  gone : ∀ v ∈ s.vms, v.gone = true → v.lock.pointer = none
  owned : ∀ v ∈ s.vms, v.lock.kind.owned = true

namespace Valid

theorem start (faults : List Fault) : ({ engine := { faults } } : HostState).Valid :=
  ⟨nofun, .refl _, nofun, nofun⟩

/-- What counts of a VM. -/
def look (v : Vm) : Option MachineId × Bool × HandleKind :=
  (v.lock.pointer, v.gone, v.lock.kind)

theorem congr (valid : s.Valid) (engine : t.engine = s.engine) (vms : t.vms.map look = s.vms.map look) :
    t.Valid := by
  have seen : ∀ v ∈ t.vms, ∃ v' ∈ s.vms, look v' = look v := fun v mem => by
    have there : look v ∈ s.vms.map look := vms ▸ List.mem_map_of_mem mem
    exact List.mem_map.mp there
  have pointers : ∀ vms : List Vm, vms.filterMap (·.lock.pointer) = (vms.map look).filterMap (·.1) :=
    fun vms => by rw [List.filterMap_map, Function.comp_def]; rfl
  refine ⟨engine ▸ valid.sound, ?_, fun v mem isGone => ?_, fun v mem => ?_⟩
  · rw [engine, HostState.machines, pointers, vms, ← pointers]
    exact valid.machines
  · obtain ⟨v', mem', same⟩ := seen v mem
    have pointer : v'.lock.pointer = v.lock.pointer := congrArg Prod.fst same
    have gone : v'.gone = v.gone := congrArg (·.2.1) same
    rw [← pointer]
    exact valid.gone v' mem' (gone.trans isGone)
  · obtain ⟨v', mem', same⟩ := seen v mem
    have kind : v'.lock.kind = v.lock.kind := congrArg (·.2.2) same
    rw [← kind]
    exact valid.owned v' mem'

theorem inEngine (valid : s.Valid) {e : Engine} (evolves : Engine.Evolves makes s.engine e) :
    ({ s with engine := e } : HostState).Valid := by
  refine ⟨evolves.sound, ?_, valid.gone, valid.owned⟩
  show (s.machines ++ e.stopped).Perm (List.range e.machines.length)
  rw [evolves.stopped, evolves.machines]
  exact valid.machines

/-- Machines that no VM owns any more are stopped. -/
theorem stop (valid : s.Valid) {vms : List Vm} {ended : List MachineId}
    (parted : (ended ++ vms.filterMap (·.lock.pointer)).Perm s.machines)
    (gone : ∀ v ∈ vms, v.gone = true → v.lock.pointer = none)
    (owned : ∀ v ∈ vms, v.lock.kind.owned = true) :
    ({ s with vms, engine := ended.foldl Engine.stop s.engine } : HostState).Valid := by
  obtain ⟨-, -, machines, stopped⟩ := Engine.foldl_stop ended s.engine
  refine ⟨valid.sound.foldl_stop ended, ?_, gone, owned⟩
  show (vms.filterMap (·.lock.pointer) ++ (ended.foldl Engine.stop s.engine).stopped).Perm _
  rw [machines, stopped, ← List.append_assoc]
  have reversed := (List.reverse_perm ended).append_left (vms.filterMap (·.lock.pointer))
  have together := (reversed.trans List.perm_append_comm).trans parted
  exact (together.append_right _).trans valid.machines

end Valid

/-! ## Evolving -/

/-- What work does to the state that gives back every guard it takes. Whether it may make userdata is said
by `makes`. -/
structure Evolves (makes : Prop) (s t : HostState) : Prop where
  vms : Grows Vm.Follows (fun v => v.lock.readers = 0) s.vms t.vms
  wrappers : Grows Wrapper.Follows (fun w => w.lock.readers = 0) s.wrappers t.wrappers
  callbacks : Grows Callback.Follows (fun _ => True) s.callbacks t.callbacks
  payloads : Grows Payload.Follows (fun p => p.borrowing = .shared 0) s.payloads t.payloads
  references : Grows (Fades id) (fun _ => True) s.engine.references t.engine.references
  objects : Grows (Fades Object.outline) (fun o => makes ∨ ∀ p, o ≠ some (.userdata p))
    s.engine.objects t.engine.objects
  stopped : s.engine.stopped <:+ t.engine.stopped
  valid : t.Valid

theorem Evolves.refl (valid : s.Valid) : s.Evolves makes s :=
  ⟨.refl _, .refl _, .refl _, .refl _, .refl _, .refl _, List.suffix_rfl, valid⟩

theorem Evolves.trans (first : s.Evolves makes t) (second : t.Evolves makes u) : s.Evolves makes u where
  vms := first.vms.trans (fun unread follows => follows.lock.readers.trans unread) second.vms
  wrappers := first.wrappers.trans (fun unread follows => follows.lock.readers.trans unread) second.wrappers
  callbacks := first.callbacks.trans (fun _ _ => trivial) second.callbacks
  payloads := first.payloads.trans (fun free follows => follows.borrowing.trans free) second.payloads
  references := first.references.trans (fun _ _ => trivial) second.references
  objects := first.objects.trans Engine.fresh_of_fades second.objects
  stopped := first.stopped.trans second.stopped
  valid := second.valid

theorem Evolves.inEngine (valid : s.Valid) {e : Engine} (evolves : Engine.Evolves makes s.engine e) :
    s.Evolves makes { s with engine := e } :=
  ⟨.refl _, .refl _, .refl _, .refl _, evolves.references, evolves.objects,
    evolves.stopped ▸ List.suffix_rfl, valid.inEngine evolves⟩

/-- From a valid state. -/
def Evolving (makes : Prop) (s t : HostState) : Prop :=
  s.Valid → s.Evolves makes t

instance : Passing (Evolving makes) where
  refl _ valid := .refl valid
  trans _ _ _ first second valid := (first valid).trans (second (first valid).valid)
  messages valid := ⟨.refl _, .refl _, .refl _, .refl _, .refl _, .refl _, List.suffix_rfl,
    valid.congr rfl rfl⟩
  vm {s t vm machine} isOpen during valid := by
    obtain ⟨v, found, -⟩ := Option.bind_eq_some_iff.mp isOpen
    have bound := (List.getElem?_eq_some_iff.mp found).1
    have evolved := during (valid.congr rfl (map_modify_of_same (fun _ => by rfl) _ _))
    refine ⟨evolved.vms.around bound fun v v' follows => ⟨follows.lock.giveBack⟩, evolved.wrappers,
      evolved.callbacks, evolved.payloads, evolved.references, evolved.objects, evolved.stopped,
      evolved.valid.congr rfl ?_⟩
    exact map_modify_of_same (fun _ => by rfl) _ _
  object {s t object ref} armed during valid := by
    obtain ⟨w, found, -⟩ := Option.bind_eq_some_iff.mp armed
    have bound := (List.getElem?_eq_some_iff.mp found).1
    have evolved := during (valid.congr rfl rfl)
    exact ⟨evolved.vms, evolved.wrappers.around bound fun w w' follows =>
      ⟨follows.vm, follows.lock.giveBack⟩, evolved.callbacks, evolved.payloads, evolved.references,
      evolved.objects, evolved.stopped, evolved.valid.congr rfl rfl⟩
  wrapped valid := ⟨.refl _, .append _ (by simp [Handle.arm]), .refl _, .refl _, .refl _, .refl _,
    List.suffix_rfl, valid.congr rfl rfl⟩
  unwrapped found unread valid := ⟨.refl _, .set found ⟨rfl, Handle.follows_disarmed unread⟩, .refl _,
    .refl _, .refl _, .refl _, List.suffix_rfl, valid.congr rfl rfl⟩
  returned valid := .inEngine valid (valid.sound.giveBack _)

end HostState

namespace Host

open HostState (Evolving Evolves Valid)

variable {α : Type} {makes : Prop}

/-! ## In the engine -/

theorem inEngine_evolves {work : Engine → α × Engine}
    (evolves : ∀ e : Engine, e.Sound → Engine.Evolves makes e (work e).2) :
    Moves (Evolving makes) (inEngine work) :=
  fun s valid => .inEngine valid (evolves s.engine valid.sound)

theorem tryInEngine_evolves {ε : Type} {failure : ε → Error} {work : Engine → Except ε α × Engine}
    (evolves : ∀ e : Engine, e.Sound → Engine.Evolves makes e (work e).2) :
    Moves (Evolving makes) (tryInEngine failure work) := by
  refine (inEngine_evolves evolves).bind fun result => ?_
  cases result with
  | ok a => exact Moves.pure a
  | error e => exact Moves.throw _

theorem cloneRef_evolving (s : HostState) (ref : ReferenceId) :
    Evolving makes s { s with engine := (s.engine.cloneRef ref).2 } :=
  fun valid => .inEngine valid (valid.sound.cloneRef ref)

theorem send_evolves (vm : VmId) (value : Value) : Moves (Evolving makes) (send vm value) :=
  send_moves cloneRef_evolving vm value

theorem sendAll_evolves (vm : VmId) (values : List Value) : Moves (Evolving makes) (sendAll vm values) :=
  sendAll_moves cloneRef_evolving vm values

/-! ## VMs -/

theorem wrapOrFail_evolves (vm : VmId) (kind : ObjectKind) (what : String) (ref : Option ReferenceId) :
    Moves (Evolving makes) (wrapOrFail vm kind what ref) := by
  refine (wrap_moves vm kind ref).bind fun wrapped => ?_
  cases wrapped with
  | none => exact Moves.throw _
  | some h => exact Moves.pure _

theorem globals_evolves (vm : VmId) : Moves (Evolving makes) (globals vm) :=
  (withVm_moves fun machine => inEngine_evolves fun _ sound => sound.globals machine).bind fun ref =>
    wrapOrFail_evolves vm .table "globals" ref

/-- What the engine makes on a VM is wrapped. -/
theorem created_evolves (action : String) (vm : VmId) (f : EngineFunction) {o : Object}
    (made : makes ∨ ∀ p, o ≠ .userdata p) (bare : o.held = []) (kind : ObjectKind) (what : String) :
    Moves (Evolving makes) (do
      let ref ← withVm action vm fun _ => inEngine (·.unlessFailing f (·.create o))
      wrapOrFail vm kind what ref) := by
  refine (withVm_moves fun _ => inEngine_evolves fun _ sound => ?_).bind fun ref =>
    wrapOrFail_evolves vm kind what ref
  exact sound.unlessFailing f fun _ sound => sound.create made (by rw [bare]; nofun)

theorem createString_evolves (vm : VmId) (bytes : Bytes) : Moves (Evolving makes) (createString vm bytes) :=
  created_evolves "create string" vm .createString (o := .string bytes) (.inr nofun) rfl .string "string"

theorem createTable_evolves (vm : VmId) : Moves (Evolving makes) (createTable vm) :=
  created_evolves "create table" vm .createTable (o := .emptyTable) (.inr nofun) rfl .table "table"

theorem createBuffer_evolves (vm : VmId) (length : Nat) : Moves (Evolving makes) (createBuffer vm length) :=
  created_evolves "create buffer" vm .createBuffer (o := .buffer (List.replicate length 0)) (.inr nofun) rfl
    .buffer "buffer"

theorem createFunction_evolves (vm : VmId) (c : CallbackId) :
    Moves (Evolving makes) (createFunction vm c) :=
  created_evolves "create function" vm .createFunction (o := .function (.host c) none) (.inr nofun) rfl
    .function "function"

theorem createUserdata_evolves (vm : VmId) (p : PayloadId) : Moves (Evolving True) (createUserdata vm p) :=
  created_evolves "create userdata" vm .createUserdata (o := .userdata p) (.inl trivial) rfl .userdata
    "userdata"

theorem newCallback_evolves (vm : VmId) (kept : List Value) : Moves (Evolving makes) (newCallback vm kept) :=
  fun _ valid => ⟨.refl _, .refl _, .append _ fun _ _ => trivial, .refl _, .refl _, .refl _,
    List.suffix_rfl, valid.congr rfl rfl⟩

theorem newPayload_evolves (data : PayloadData) : Moves (Evolving makes) (newPayload data) :=
  fun _ valid => ⟨.refl _, .refl _, .refl _, .append _ (by simp), .refl _, .refl _, List.suffix_rfl,
    valid.congr rfl rfl⟩

theorem newVm_evolves : Moves (Evolving makes) newVm := by
  intro s valid
  have objects : Engine.Evolves makes s.engine (s.engine.allocate .emptyTable).2 :=
    valid.sound.allocate (.inr nofun) nofun
  refine ⟨.append _ (by simp [Handle.arm]), .refl _, .refl _, .refl _, .refl _, objects.objects,
    List.suffix_rfl, ?_⟩
  refine ⟨valid.sound.start, ?_, fun v mem isGone => ?_, fun v mem => ?_⟩
  · have machines : (after newVm s).machines = s.machines ++ [s.engine.machines.length] :=
      List.filterMap_append
    have last : List.range (after newVm s).engine.machines.length =
        List.range s.engine.machines.length ++ [s.engine.machines.length] := by
      show List.range (s.engine.machines ++ [_]).length = _
      rw [List.length_append, List.length_singleton, List.range_succ]
    rw [machines, last]
    have moved : (s.machines ++ [s.engine.machines.length] ++ s.engine.stopped).Perm
        (s.machines ++ s.engine.stopped ++ [s.engine.machines.length]) := by
      rw [List.append_assoc, List.append_assoc]
      exact List.perm_append_comm.append_left _
    exact moved.trans (valid.machines.append_right _)
  · rcases List.mem_append.mp mem with old | new
    · exact valid.gone v old isGone
    · obtain rfl := List.mem_singleton.mp new
      cases isGone
  · rcases List.mem_append.mp mem with old | new
    · exact valid.owned v old
    · obtain rfl := List.mem_singleton.mp new
      rfl

theorem closeVm_run (vm : VmId) (s : HostState) :
    closeVm vm s = match s.vms[vm]? with
      | none => .ok () s
      | some v =>
        if v.lock.readers = 0 then .ok () { s with
          vms := s.vms.set vm { v with lock := v.lock.disarmed }
          engine := v.lock.toDestroy.toList.foldl Engine.stop s.engine }
        else .error (.recursiveLock "close") s := by
  simp only [closeVm, bind_run, get_run]
  cases s.vms[vm]? with
  | none => rfl
  | some v =>
    by_cases free : v.lock.readers = 0
    · cases destroyed : v.lock.toDestroy with
      | none => simp [Handle.close, free, destroyed, bind_run]
      | some machine => simp [Handle.close, free, destroyed, bind_run]
    · simp [Handle.close, free, bind_run]

theorem closeVm_evolves (vm : VmId) : Moves (Evolving makes) (closeVm vm) := by
  intro s valid
  unfold after
  rw [closeVm_run]
  cases found : s.vms[vm]? with
  | none => exact .refl valid
  | some v =>
    dsimp only
    by_cases free : v.lock.readers = 0
    · rw [if_pos free]
      have mem := List.mem_of_getElem? found
      obtain ⟨references, objects, -, stopped⟩ := Engine.foldl_stop v.lock.toDestroy.toList s.engine
      have closed : Valid { s with
          vms := s.vms.set vm { v with lock := v.lock.disarmed }
          engine := v.lock.toDestroy.toList.foldl Engine.stop s.engine } := by
        refine valid.stop ?_ (fun v' mem' isGone => ?_) fun v' mem' => ?_
        · rw [Handle.toDestroy, valid.owned v mem, if_pos rfl]
          exact perm_filterMap_set (f := fun v : Vm => v.lock.pointer) found _
        · rcases List.mem_or_eq_of_mem_set mem' with old | rfl
          · exact valid.gone v' old isGone
          · rfl
        · rcases List.mem_or_eq_of_mem_set mem' with old | rfl
          · exact valid.owned v' old
          · exact valid.owned v mem
      exact ⟨.set found ⟨Handle.follows_disarmed free⟩, .refl _, .refl _, .refl _, references ▸ .refl _,
        objects ▸ .refl _, stopped ▸ List.suffix_append _ _, closed⟩
    · rw [if_neg free]
      exact .refl valid

/-! ## Settings and strings -/

theorem setCompiler_evolves (vm : VmId) (options : CompilerOptions) :
    Moves (Evolving makes) (setCompiler vm options) :=
  withVm_moves fun _ => inEngine_evolves fun _ sound => sound.setCompiler _ _

theorem setInterrupt_evolves (vm : VmId) (c : CallbackId) : Moves (Evolving makes) (setInterrupt vm c) :=
  withVm_moves fun _ => inEngine_evolves fun _ sound => sound.setInterrupt _ _

theorem removeInterrupt_evolves (vm : VmId) : Moves (Evolving makes) (removeInterrupt vm) :=
  withVm_moves fun _ => inEngine_evolves fun _ sound => sound.setInterrupt _ _

theorem stringBytes_evolves (string : HandleId) : Moves (Evolving makes) (stringBytes string) :=
  withObject_moves fun _ _ ref => (inEngine_evolves fun _ sound => sound.stringBytes ref).bind fun _ =>
    Moves.pure _

/-! ## Wrappers -/

theorem disarm_evolves (object : HandleId) : Moves (Evolving makes) (disarm object) := by
  intro s
  unfold after
  rw [disarm_run]
  cases found : s.wrappers[object]? with
  | none => exact .refl
  | some w =>
    dsimp only
    by_cases free : w.lock.readers = 0
    · cases pointer : w.lock.pointer with
      | none =>
        simp only [Handle.disarm, free, pointer, ne_eq, not_true_eq_false, if_false]
        exact .refl
      | some ref =>
        simp only [Handle.disarm, free, pointer, ne_eq, not_true_eq_false, if_false]
        exact HostState.Passing.unwrapped found free
    · simp only [Handle.disarm, free, ne_eq, not_false_eq_true, if_true]
      exact .refl

theorem pointer_moves {R : HostState → HostState → Prop} [HostState.Guarded R] (object : HandleId) :
    Moves R (pointer object) := by
  refine (withObject_moves fun _ _ _ => Moves.pure _).attempt.bind fun found => ?_
  cases found with
  | ok ref => exact Moves.pure _
  | error e => exact Moves.pure _

theorem sameObject_moves {R : HostState → HostState → Prop} [HostState.Guarded R] (a b : HandleId) :
    Moves R (sameObject a b) := by
  refine Moves.get fun s => ?_
  split
  · exact Moves.pure _
  · refine (pointer_moves a).bind fun found => ?_
    cases found with
    | none => exact Moves.pure _
    | some ref => exact (pointer_moves b).bind fun _ => Moves.pure _

/-! ## Tables -/

namespace Table

theorem get_evolves (table : HandleId) (key : Value) : Moves (Evolving makes) (get table key) := by
  refine withObject_moves fun vm _ ref => (send_evolves vm key).bind fun sent => ?_
  exact (tryInEngine_evolves fun _ sound => sound.tableGet ref sent).bind fun found => receive_moves vm found

theorem set_evolves (table : HandleId) (key value : Value) :
    Moves (Evolving makes) (set table key value) := by
  refine withObject_moves fun vm _ ref => (send_evolves vm key).bind fun key => ?_
  have sent : Moves (Evolving makes) (tryCatch (send vm value) fun e => do
      release key
      throw e) :=
    (send_evolves vm value).tryCatch fun e => (release_moves key).bind fun _ => Moves.throw e
  exact sent.bind fun value => tryInEngine_evolves fun _ sound => sound.tableSet ref key value

theorem length_evolves (table : HandleId) : Moves (Evolving makes) (length table) :=
  withObject_moves fun _ _ _ => Moves.get fun _ => Moves.pure _

theorem pairs_evolves (table : HandleId) : Moves (Evolving makes) (pairs table) := by
  refine withObject_moves fun vm _ ref => ?_
  refine Moves.bind (inEngine_evolves ?_) fun pushed => ?_
  · exact fun _ sound => sound.tablePairs ref
  obtain ⟨list, result⟩ := pushed
  refine (receiveAll_moves vm list).bind fun values => ?_
  cases result with
  | ok => exact Moves.pure _
  | error message => exact (closeAll_moves values).bind fun _ => Moves.throw _

theorem closePairs_moves {R : HostState → HostState → Prop} [HostState.Passing R]
    (pairs : List (Value × Value)) : Moves R (closePairs pairs) := by
  induction pairs with
  | nil => exact Moves.pure ()
  | cons pair pairs ih => exact (close_moves pair.1).bind fun _ => (close_moves pair.2).bind fun _ => ih

theorem isEmpty_evolves (table : HandleId) : Moves (Evolving makes) (isEmpty table) :=
  (pairs_evolves table).bind fun found => (closePairs_moves found).bind fun _ => Moves.pure _

theorem abandon_moves {R : HostState → HostState → Prop} [HostState.Passing R]
    (pairs : List (Value × Value)) : Moves R (abandon pairs) := by
  induction pairs with
  | nil => exact Moves.pure ()
  | cons pair pairs ih =>
    have ignoring : ∀ v, Moves R (ignoringFailure (close v)) := fun v =>
      (close_moves v).attempt.bind fun _ => Moves.pure _
    exact Moves.bind ((ignoring pair.1).bind fun _ => ignoring pair.2) fun _ => ih

/-- A table behind an object is wrapped for the VM of the object. -/
theorem behind_evolves (action : String) (object : HandleId)
    {work : ReferenceId → Engine → Option ReferenceId × Engine}
    (evolves : ∀ ref, ∀ e : Engine, e.Sound → Engine.Evolves makes e (work ref e).2) :
    Moves (Evolving makes) (do
      let ref ← withObject action object fun _ _ ref => inEngine (work ref)
      wrap (← vmOf object) .table ref) :=
  (withObject_moves fun _ _ ref => inEngine_evolves (evolves ref)).bind fun ref =>
    (vmOf_moves object).bind fun vm => wrap_moves vm .table ref

theorem metatable_evolves (table : HandleId) : Moves (Evolving makes) (metatable table) :=
  behind_evolves "get metatable" table fun ref _ sound => sound.tableMetatable ref

theorem sendTable_evolves (vm : VmId) (table : HandleId) : Moves (Evolving makes) (sendTable vm table) :=
  (checkOwner_moves vm (.object .table table)).bind fun _ =>
    secondReference_moves cloneRef_evolving .table table

/-- A table that may not be there. -/
theorem sendTable?_evolves (vm : VmId) (table : Option HandleId) :
    Moves (Evolving makes) (table.mapM (sendTable vm)) := by
  cases table with
  | none => exact Moves.pure none
  | some h => exact (sendTable_evolves vm h).bind fun ref => Moves.pure _

theorem setMetatable_evolves (table : HandleId) (metatable : Option HandleId) :
    Moves (Evolving makes) (setMetatable table metatable) :=
  withObject_moves fun vm _ ref => (sendTable?_evolves vm metatable).bind fun sent =>
    tryInEngine_evolves fun _ sound => sound.tableSetMetatable ref sent

end Table

/-! ## Functions and chunks -/

theorem environment_evolves (function : HandleId) :
    Moves (Evolving makes) (Function.environment function) :=
  Table.behind_evolves "get environment" function fun ref _ sound => sound.functionEnvironment ref

theorem loadChunk_evolves (vm : VmId) (chunk : Chunk) : Moves (Evolving makes) (loadChunk vm chunk) := by
  refine Moves.bind (withVm_moves fun machine => ?_) fun loaded => ?_
  · refine (Table.sendTable?_evolves vm chunk.environment).bind fun environment => ?_
    exact inEngine_evolves fun _ sound => sound.loadChunk machine ⟨_, _, environment, _⟩
  · obtain ⟨ref, error⟩ := loaded
    refine (wrap_moves vm .function ref).bind fun wrapped => ?_
    cases error with
    | some message =>
      cases wrapped with
      | some h => exact (closeObject_moves h).bind fun _ => Moves.throw _
      | none => exact Moves.throw _
    | none =>
      cases wrapped with
      | some h => exact Moves.pure h
      | none => exact Moves.throw _

/-- A chunk that runs gives its results to the engine, after it took over the arguments. -/
theorem runChunk_evolves (code : HostCode) (args : RawList (Option ReferenceId)) (name : String)
    (source : Bytes) (level : UInt8) :
    Moves (Evolving makes) (runBody code args (.chunk name source level)) := by
  refine (inEngine_evolves fun _ sound => sound.receiveAll args).bind fun _ s valid => ?_
  -- What is handed out is there because it was made just before.
  have made : Engine.Evolves makes s.engine (s.engine.chunkResults name source level).2 :=
    valid.sound.chunkResults name source level
  exact .inEngine valid (made.trans (made.sound.handAll (Engine.knows_chunkResults _ _ _ _)))

/-! ## Buffers -/

namespace Buffer

theorem length_evolves (buffer : HandleId) : Moves (Evolving makes) (length buffer) :=
  withObject_moves fun _ _ _ => Moves.get fun _ => Moves.pure _

theorem checkRange_moves {R : HostState → HostState → Prop} [IsPreorder HostState R] (ref : ReferenceId)
    (offset length : UInt64) : Moves R (checkRange ref offset length) := by
  refine Moves.get fun s => ?_
  dsimp only
  split
  · exact Moves.pure _
  · exact Moves.throw _

theorem read_evolves (buffer : HandleId) (offset length : UInt64) :
    Moves (Evolving makes) (read buffer offset length) :=
  withObject_moves fun _ _ ref => (checkRange_moves ref offset length).bind fun _ =>
    tryInEngine_evolves fun _ sound => .refl sound

theorem write_evolves (buffer : HandleId) (offset : UInt64) (data : Bytes) :
    Moves (Evolving makes) (write buffer offset data) :=
  withObject_moves fun _ _ ref => (checkRange_moves ref offset _).bind fun _ =>
    tryInEngine_evolves fun _ sound => sound.bufferWrite ref _ _

theorem toBytes_evolves (buffer : HandleId) : Moves (Evolving makes) (toBytes buffer) :=
  (length_evolves buffer).bind fun _ => read_evolves buffer _ _

end Buffer

/-! ## Userdata -/

theorem Userdata.holds_evolves (type : PayloadType) (userdata : HandleId) :
    Moves (Evolving makes) (Userdata.holds type userdata) := by
  intro s valid
  have refused : ∀ {e}, Userdata.enterPayload "inspect userdata" userdata s = .error e s →
      s.Evolves makes (after (Userdata.holds type userdata) s) := by
    intro e failed
    rw [Userdata.holds, after_bind_of_ok (attempt_eq_error.mpr failed)]
    exact .refl valid
  cases isFor : s.vmOf? userdata with
  | none => exact refused (Userdata.enterPayload_of_missing isFor)
  | some vm =>
    cases isOpen : s.machine? vm with
    | none => exact refused (Userdata.enterPayload_of_closed isFor isOpen)
    | some machine =>
      cases armed : s.reference? userdata with
      | none => exact refused (Userdata.enterPayload_of_closedObject isFor isOpen armed)
      | some ref =>
        have entered : Userdata.enterPayload "inspect userdata" userdata s = _ :=
          Userdata.enterPayload_of_open isFor isOpen armed
        rw [Userdata.holds, after_bind_of_ok (attempt_eq_ok.mpr entered)]
        show s.Evolves makes (HostState.unreadObject _ userdata)
        rw [s.unreadObject_readObject]
        exact .inEngine valid (valid.sound.userdataPayload ref)

end Host
end ScriptHost

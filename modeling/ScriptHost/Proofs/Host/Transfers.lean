/-
What the operations of the host trade. Each conserves the loose references: what an operation makes
ready is taken by the engine or taken back, and what it gets from the engine it wraps, on every way
through it.
-/
import ScriptHost.Host.Call
import ScriptHost.Host.Chunk
import ScriptHost.Proofs.Host.Balance
import ScriptHost.Proofs.Host.Moves

namespace ScriptHost

/-- Host code that leaves no more and no less loose than there was, as far as it may be called. -/
structure HostCode.Conserves (code : HostCode) (calls : CallbackId → Prop) : Prop where
  call : ∀ c, calls c → ∀ vm args, Host.Conserves calls (code.call c vm args)
  poll : ∀ c, calls c → ∀ vm, Host.Conserves calls (code.poll c vm)

/-- Code that is never called conserves what there is. -/
theorem HostCode.conserves_of_noCall (code : HostCode) : code.Conserves Engine.NoCall :=
  ⟨fun _ call => call.elim, fun _ call => call.elim⟩

namespace Host

variable {calls : CallbackId → Prop}

/-! ## Afterwards -/

theorem Trades.after {α : Type} {work : Host α} {taken left rest : List ReferenceId}
    {given : α → List ReferenceId} {s : HostState} (traded : Trades calls taken work given left)
    (h : s.Balanced calls (taken ++ rest)) :
    (Host.after work s).Balanced calls ((answer? work s).elim left given ++ rest) := by
  have left := traded s rest h
  unfold Host.after answer?
  cases done : work s with
  | ok a t =>
    rw [done] at left
    exact left
  | error e t =>
    rw [done] at left
    exact left

theorem Conserves.after {α : Type} {work : Host α} (conserved : Conserves calls work)
    {loose : List ReferenceId} {s : HostState} (h : s.Balanced calls loose) :
    (Host.after work s).Balanced calls loose := by
  have left : (Host.after work s).Balanced calls ((answer? work s).elim [] (fun _ => []) ++ loose) :=
    Trades.after conserved h
  cases answered : answer? work s <;> rwa [answered] at left

/-! ## Values on their way -/

theorem release_trades (c : Crossing) (left : List ReferenceId) :
    Trades calls c.carried (release c) (fun _ => []) left := by
  cases c with
  | object kind pointer =>
    cases pointer with
    | none => exact Trades.pure rfl
    | some ref => exact Trades.inEngine (Engine.giveBack_trades ref)
  | _ => exact Trades.pure rfl

theorem checkOwner_conserves (vm : VmId) (value : Value) : Conserves calls (checkOwner vm value) := by
  refine Conserves.get fun s => ?_
  cases owner? s value with
  | none => exact Conserves.pure ()
  | some o =>
    dsimp only
    split
    · exact Conserves.pure ()
    · exact Conserves.throw _

theorem secondReference_trades (kind : ObjectKind) (object : HandleId) :
    Trades calls [] (secondReference kind object) (fun ref => [ref]) [] := by
  have cloned : Trades calls [] (withObject "pass value" object fun _ _ ref => inEngine (·.cloneRef ref))
      (fun ref => ref.toList) [] :=
    Trades.withObject fun _ _ ref => Trades.inEngine (Engine.cloneRef_trades ref)
  refine cloned.bind fun ref => ?_
  cases ref with
  | none => exact Trades.throw
  | some ref => exact Trades.pure rfl

theorem send_trades (vm : VmId) (value : Value) : Trades calls [] (send vm value) RawValue.carried [] := by
  refine Trades.bind (checkOwner_conserves vm value) fun _ => ?_
  cases value with
  | object kind h => exact (secondReference_trades kind h).bind fun ref => Trades.pure rfl
  | error e =>
    refine Trades.get fun s _ _ => ?_
    cases errorMessage? s e with
    | none => exact Trades.throw
    | some message => exact Trades.pure rfl
  | _ => exact Trades.pure rfl

/-- Values before one that cannot be sent are taken back. -/
theorem sendAll_trades (vm : VmId) (values : List Value) :
    Trades calls [] (sendAll vm values) RawList.carried [] := by
  induction values with
  | nil => exact Trades.pure rfl
  | cons v vs ih =>
    refine (send_trades vm v).bind fun first => ?_
    have rest := (ih.frame first.carried).tryCatch fun e =>
      (release_trades first []).bind fun _ => Trades.throw (e := e)
    refine rest.bind fun list => ?_
    have both : Trades calls (first.carried ++ RawList.carried list)
        (pure (first :: list) : Host (RawList (Option ReferenceId))) RawList.carried [] :=
      Trades.pure rfl
    exact both.perm List.perm_append_comm (fun _ => .refl _) (.refl _)

theorem receive_trades (vm : VmId) (c : Crossing) (left : List ReferenceId) :
    Trades calls c.carried (receive vm c) (fun _ => []) left := by
  cases c with
  | object kind pointer =>
    have carried : RawValue.carried (.object kind pointer) = pointer.toList := by
      cases pointer <;> rfl
    rw [carried]
    exact (wrap_trades vm kind pointer left).bind fun h => Trades.pure rfl
  | error message => exact newError_conserves message
  | _ => exact Trades.pure rfl

theorem receive_succeeds (vm : VmId) (c : Crossing) (s : HostState) :
    ∃ v s', receive vm c s = .ok v s' := by
  cases c with
  | object kind pointer => cases pointer <;> exact ⟨_, _, rfl⟩
  | _ => exact ⟨_, _, rfl⟩

theorem receiveAll_succeeds (vm : VmId) (list : RawList (Option ReferenceId)) (s : HostState) :
    ∃ vs s', receiveAll vm list s = .ok vs s' := by
  induction list generalizing s with
  | nil => exact ⟨[], s, rfl⟩
  | cons c list ih =>
    obtain ⟨v, t, first⟩ := receive_succeeds vm c s
    obtain ⟨vs, u, rest⟩ := ih t
    rw [receiveAll] at rest
    refine ⟨v :: vs, u, ?_⟩
    rw [receiveAll, List.mapM_cons]
    exact bind_eq_ok.mpr ⟨v, t, first, bind_eq_ok.mpr ⟨vs, u, rest, rfl⟩⟩

theorem receiveAll_trades (vm : VmId) (list : RawList (Option ReferenceId))
    (left : List ReferenceId) :
    Trades calls (RawList.carried list) (receiveAll vm list) (fun _ => []) left := by
  induction list with
  | nil => exact Trades.pure rfl
  | cons c list ih =>
    rw [receiveAll, List.mapM_cons]
    have framed := (receive_trades vm c [] : Trades calls _ _ _ _).frame (RawList.carried list)
    have first : Trades calls (c.carried ++ RawList.carried list) (receive vm c)
        (fun _ => RawList.carried list) left := framed.of_succeeds (receive_succeeds vm c)
    exact first.bind fun v => ih.bind fun vs => Trades.pure rfl

/-! ## What a VM offers -/

theorem globals_conserves (vm : VmId) : Conserves calls (globals vm) := by
  have handed : Trades calls [] (withVm "get globals" vm fun machine => inEngine (·.globals machine))
      (fun ref => ref.toList) [] :=
    Trades.withVm fun machine => Trades.inEngine (Engine.globals_trades machine)
  exact handed.bind fun ref => wrapOrFail_trades vm .table "globals" ref

/-- What the engine makes on a VM is wrapped. -/
theorem created_conserves (action : String) (vm : VmId) (f : EngineFunction) {o : Object}
    (known : ∀ c ∈ o.callback?, calls c) (kind : ObjectKind) (what : String) :
    Conserves calls (do
      let ref ← withVm action vm fun _ => inEngine (·.unlessFailing f (·.create o))
      wrapOrFail vm kind what ref) := by
  have handed : Trades calls []
      (withVm action vm fun _ => inEngine (·.unlessFailing f (·.create o)))
      (fun ref => ref.toList) [] :=
    Trades.withVm fun _ => Trades.inEngine (Engine.unlessFailing_trades f (Engine.create_trades known))
  exact handed.bind fun ref => wrapOrFail_trades vm kind what ref

theorem createString_conserves (vm : VmId) (bytes : Bytes) : Conserves calls (createString vm bytes) :=
  created_conserves "create string" vm .createString (o := .string bytes) (Engine.calls_of_quiet rfl)
    .string "string"

theorem createTable_conserves (vm : VmId) : Conserves calls (createTable vm) :=
  created_conserves "create table" vm .createTable (o := .emptyTable) (Engine.calls_of_quiet rfl)
    .table "table"

theorem createBuffer_conserves (vm : VmId) (length : Nat) : Conserves calls (createBuffer vm length) :=
  created_conserves "create buffer" vm .createBuffer (o := .buffer (List.replicate length 0))
    (Engine.calls_of_quiet rfl) .buffer "buffer"

theorem createUserdata_conserves (vm : VmId) (payload : PayloadId) :
    Conserves calls (createUserdata vm payload) :=
  created_conserves "create userdata" vm .createUserdata (o := .userdata payload) (Engine.calls_of_quiet rfl)
    .userdata "userdata"

theorem newCallback_conserves (vm : VmId) (kept : List Value) : Conserves calls (newCallback vm kept) :=
  Conserves.of_frame fun _ => ⟨rfl, rfl⟩

theorem createFunction_conserves {c : CallbackId} (call : calls c) (vm : VmId) :
    Conserves calls (createFunction vm c) := by
  refine created_conserves "create function" vm .createFunction (o := .function (.host c) none)
    (fun c' mem => ?_) .function "function"
  cases mem
  exact call

theorem newPayload_conserves (data : PayloadData) : Conserves calls (newPayload data) :=
  Conserves.of_frame fun _ => ⟨rfl, rfl⟩

theorem newVm_conserves : Conserves calls newVm := by
  have started : Engine.Trades calls [] Engine.start fun _ => [] := fun _ _ h => h.start
  refine Trades.bind (Trades.inEngine started) fun machine => ?_
  exact Conserves.of_frame fun _ => ⟨rfl, rfl⟩

theorem closeVm_conserves (vm : VmId) : Conserves calls (closeVm vm) := by
  intro s rest h
  simp only [closeVm, bind_run, get_run]
  cases s.vms[vm]? with
  | none => exact h
  | some v =>
    cases closed : v.lock.close .returns with
    | error e =>
      simp only [closed, ofResult_error, bind_run, throw_run]
      exact h
    | ok released =>
      simp only [closed, ofResult_ok, bind_run, pure_run, set_run]
      cases released.destroyed with
      | none => exact ⟨h.engine, h.owned⟩
      | some machine => exact ⟨h.engine.stop machine, h.owned⟩

/-! ## Tables -/

namespace Table

theorem get_conserves (table : HandleId) (key : Value) : Conserves calls (get table key) := by
  refine Trades.withObject fun vm _ ref => (send_trades vm key).bind fun sent => ?_
  refine Trades.bind (Trades.tryInEngine (Engine.tableGet_trades ref sent)) fun found => ?_
  exact receive_trades vm found []

theorem set_conserves (table : HandleId) (key value : Value) : Conserves calls (set table key value) := by
  refine Trades.withObject fun vm _ ref => (send_trades vm key).bind fun key => ?_
  have values := ((send_trades vm value : Trades calls _ _ _ _).frame key.carried).tryCatch fun e =>
    (release_trades key []).bind fun _ => Trades.throw (e := e)
  refine values.bind fun value => ?_
  have taken : Trades calls (key.carried ++ value.carried) (tryInEngine .ofMessage (·.tableSet ref key value))
      (fun _ => []) [] := Trades.tryInEngine (Engine.tableSet_trades ref key value)
  exact taken.perm List.perm_append_comm (fun _ => .refl _) (.refl _)

theorem length_conserves (table : HandleId) : Conserves calls (length table) :=
  Trades.withObject fun _ _ _ => Trades.get fun _ _ _ => Trades.pure rfl

theorem pairs_conserves (table : HandleId) : Conserves calls (pairs table) := by
  refine Trades.withObject fun vm _ ref => ?_
  refine Trades.bind (Trades.inEngine (Engine.tablePairs_trades ref)) fun pushed => ?_
  obtain ⟨list, result⟩ := pushed
  refine (receiveAll_trades vm list []).bind fun values => ?_
  cases result with
  | ok => exact Trades.pure rfl
  | error message => exact (closeAll_conserves values).bind fun _ => Conserves.throw _

theorem closePairs_conserves (pairs : List (Value × Value)) : Conserves calls (closePairs pairs) := by
  induction pairs with
  | nil => exact Conserves.pure ()
  | cons pair pairs ih =>
    exact (close_conserves pair.1).bind fun _ => (close_conserves pair.2).bind fun _ => ih

theorem isEmpty_conserves (table : HandleId) : Conserves calls (isEmpty table) :=
  (pairs_conserves table).bind fun found =>
    (closePairs_conserves found).bind fun _ => Conserves.pure _

theorem abandon_conserves (pairs : List (Value × Value)) : Conserves calls (abandon pairs) := by
  induction pairs with
  | nil => exact Conserves.pure ()
  | cons pair pairs ih =>
    refine Conserves.bind ?_ fun _ => ih
    exact (close_conserves pair.1).ignoringFailure.bind fun _ =>
      (close_conserves pair.2).ignoringFailure

theorem sendTable_trades (vm : VmId) (table : HandleId) :
    Trades calls [] (sendTable vm table) (fun ref => [ref]) [] :=
  Trades.bind (checkOwner_conserves vm (.object .table table)) fun _ =>
    secondReference_trades .table table

/-- A table that may not be there. -/
theorem sendTable?_trades (vm : VmId) (table : Option HandleId) :
    Trades calls [] (table.mapM (sendTable vm)) (fun ref => ref.toList) [] := by
  cases table with
  | none => exact Trades.pure rfl
  | some h => exact (sendTable_trades vm h).bind fun ref => Trades.pure rfl

theorem setMetatable_conserves (table : HandleId) (metatable : Option HandleId) :
    Conserves calls (setMetatable table metatable) := by
  refine Trades.withObject fun vm _ ref => (sendTable?_trades vm metatable).bind fun sent => ?_
  exact Trades.tryInEngine (Engine.tableSetMetatable_trades ref sent)

end Table

/-! ## Chunks -/

theorem loadChunk_conserves (vm : VmId) (chunk : Chunk) : Conserves calls (loadChunk vm chunk) := by
  refine @Trades.bind _ _ _ _ (fun loaded => loaded.1.toList) _ _ _ _ ?_ fun loaded => ?_
  · refine Trades.withVm fun machine => ?_
    refine (Table.sendTable?_trades vm chunk.environment).bind fun environment => ?_
    exact Trades.inEngine (Engine.loadChunk_trades machine ⟨_, _, environment, _⟩)
  · obtain ⟨ref, error⟩ := loaded
    refine (wrap_trades vm .function ref []).bind fun wrapped => ?_
    cases error with
    | some message =>
      cases wrapped with
      | some h => exact (closeObject_conserves h).bind fun _ => Conserves.throw _
      | none => exact Conserves.throw _
    | none =>
      cases wrapped with
      | some h => exact Conserves.pure h
      | none => exact Conserves.throw _

/-! ## Calls -/

theorem callbackVm_conserves (action : String) (c : CallbackId) :
    Conserves calls (callbackVm action c) := by
  refine Conserves.get fun s => ?_
  cases s.callbacks[c]? with
  | none => exact Conserves.throw _
  | some callback =>
    dsimp only
    split
    · exact Conserves.throw _
    · exact Conserves.pure _

theorem carried_toOption (list : Except Error (RawList (Option ReferenceId))) :
    RawList.carried (list.toOption.getD []) = orLeft [] RawList.carried list := by
  cases list <;> rfl

theorem freeList_trades {c : CallbackId} (call : calls c) (list : RawList (Option ReferenceId))
    (left : List ReferenceId) :
    Trades calls (RawList.carried list) (freeList list) (fun _ => []) left :=
  Trades.inEngine fun _ _ h => h.freeList call

/-- A list that is on its way is freed if some work fails meanwhile. -/
theorem freeing_trades {α : Type} {work : Host α} {c : CallbackId} (call : calls c)
    (conserved : Conserves calls work) (list : RawList (Option ReferenceId)) :
    Trades calls (RawList.carried list)
      (tryCatch work fun e => do
        freeList list
        throw e)
      (fun _ => RawList.carried list) [] := by
  exact (conserved.frame (RawList.carried list)).tryCatch fun e => (freeList_trades call list []).bind fun _ => Trades.throw

theorem pollCallback_conserves {code : HostCode} (conserves : code.Conserves calls) {c : CallbackId}
    (call : calls c) : Conserves calls (pollCallback code c) := by
  have polled : Conserves calls (attempt (do code.poll c (← callbackVm "poll interrupt" c))) :=
    ((callbackVm_conserves _ c).bind fun vm => conserves.poll c call vm).attempt
  refine polled.bind fun result => ?_
  cases result with
  | ok state => exact Conserves.pure _
  | error e => exact Conserves.pure _

theorem pollMachine_succeeds (code : HostCode) (machine : MachineId) (s : HostState) :
    ∃ record s', pollMachine code machine s = .ok record s' := by
  simp only [pollMachine, bind_run, get_run]
  cases (s.engine.machine? machine).bind (·.interrupt) with
  | none => exact ⟨none, s, rfl⟩
  | some c =>
    obtain ⟨ended, s', done⟩ :=
      attempt_succeeds (do code.poll c (← callbackVm "poll interrupt" c)) s
    simp only [pollCallback]
    rw [bind_run, bind_run, done]
    cases ended with
    | ok state => exact ⟨_, _, rfl⟩
    | error e => exact ⟨_, _, rfl⟩

theorem pollMachine_conserves {code : HostCode} (conserves : code.Conserves calls)
    (machine : MachineId) : Conserves calls (pollMachine code machine) := by
  refine Trades.get fun s loose h => ?_
  cases found : (s.engine.machine? machine).bind (·.interrupt) with
  | none => exact Conserves.pure none
  | some c =>
    obtain ⟨m, there, interrupt⟩ := Option.bind_eq_some_iff.mp found
    have call : calls c := h.engine.interrupt_of_machine? there c interrupt
    exact (pollCallback_conserves conserves call).bind fun polled => Conserves.pure _

/-- What is loose is still loose when the interrupt was polled, however the poll ended. -/
theorem pollMachine_keeps {code : HostCode} (conserves : code.Conserves calls) (machine : MachineId)
    (loose left : List ReferenceId) :
    Trades calls loose (pollMachine code machine) (fun _ => loose) left :=
  ((pollMachine_conserves conserves machine).frame loose).of_succeeds (pollMachine_succeeds code machine)

theorem failing_keeps (f : EngineFunction) (loose left : List ReferenceId) :
    Trades calls loose (inEngine (·.failing f)) (fun _ => loose) left :=
  Trades.inEngine fun _ _ h => h.failing f

/-- The arguments that a host function takes over are wrapped, or lost if there is no VM to wrap them
for; the results that come out are those that were made ready. -/
theorem callback_trades {code : HostCode} (conserves : code.Conserves calls) {c : CallbackId}
    (call : calls c) (args : RawList (Option ReferenceId)) :
    Trades calls (RawList.carried args) (callback code c args) (orLeft [] RawList.carried) [] := by
  refine Trades.bind (@Trades.attempt _ _ [] RawList.carried _ _ _ ?_) fun result => ?_
  · refine (freeing_trades call (callbackVm_conserves _ c) args).bind fun vm => ?_
    refine (receiveAll_trades vm args []).bind fun values => ?_
    refine Trades.bind (conserves.call c call vm values) fun values => ?_
    refine Trades.bind (Trades.attempt (sendAll_trades vm values)) fun list => ?_
    have closed := freeing_trades call (closeAll_conserves values) (list.toOption.getD [])
    rw [carried_toOption list] at closed
    exact closed.bind fun _ => Trades.ofResult
  · cases result with
    | ok list => exact Trades.pure rfl
    | error e => exact Trades.pure rfl

theorem runChunk_trades (code : HostCode) (args : RawList (Option ReferenceId)) (name : String)
    (source : Bytes) (level : UInt8) :
    Trades calls (RawList.carried args) (runBody code args (.chunk name source level))
      (orLeft [] RawList.carried) [] := by
  refine Trades.bind (Trades.inEngine (Engine.receiveAll_trades args)) fun _ => ?_
  refine Trades.bind (Trades.inEngine (Engine.chunkResults_trades name source level)) fun ds => ?_
  exact Trades.bind (Trades.inEngine (Engine.handAll_trades ds)) fun list => Trades.pure rfl

theorem runBody_trades {code : HostCode} (conserves : code.Conserves calls)
    (args : RawList (Option ReferenceId)) {body : FunctionBody}
    (known : ∀ c, body = .host c → calls c) :
    Trades calls (RawList.carried args) (runBody code args body) (orLeft [] RawList.carried) [] := by
  cases body with
  | host c => exact callback_trades conserves (known c rfl) args
  | chunk name source level => exact runChunk_trades code args name source level

/-- The engine takes the arguments over in every case. -/
theorem engineCall_trades {code : HostCode} (conserves : code.Conserves calls) (machine : MachineId)
    (function : ReferenceId) (args : RawList (Option ReferenceId)) :
    Trades calls (RawList.carried args) (engineCall code machine function args)
      (fun answer => RawList.carried answer.1) [] := by
  have refused : ∀ message : CString, Trades calls (RawList.carried args)
      (do
        let _ ← inEngine (·.receiveAll args)
        return (([], some message) : RawList (Option ReferenceId) × Option CString))
      (fun answer => RawList.carried answer.1) [] := by
    intro message
    exact Trades.bind (Trades.inEngine (Engine.receiveAll_trades args)) fun _ => Trades.pure rfl
  refine Trades.bind (failing_keeps .functionCall _ []) fun fault => ?_
  refine (pollMachine_keeps conserves machine _ []).bind fun record => ?_
  cases record.bind (·.error) with
  | some message => exact refused message
  | none =>
    refine Trades.get fun s loose h => ?_
    cases found : s.engine.deref? function with
    | none => exact refused _
    | some o =>
      have known := h.engine.callback?_of_deref? found
      cases o with
      | function body environment =>
        have calls_body : ∀ c, body = .host c → calls c := by
          rintro c rfl
          exact known c rfl
        refine (runBody_trades conserves args calls_body).bind fun result => ?_
        cases result with
        | ok results => exact Trades.pure rfl
        | error message => exact Trades.pure rfl
      | _ => exact refused _

theorem call_conserves {code : HostCode} (conserves : code.Conserves calls) (function : HandleId)
    (args : List Value) : Conserves calls (Function.call code function args) := by
  refine Trades.withObject fun vm machine ref => (sendAll_trades vm args).bind fun sent => ?_
  refine (engineCall_trades conserves machine ref sent).bind fun answer => ?_
  obtain ⟨list, error⟩ := answer
  refine (receiveAll_trades vm list []).bind fun values => ?_
  cases error with
  | none => exact Trades.pure rfl
  | some message => exact (closeAll_conserves values).bind fun _ => Conserves.throw _

/-! ## Tables behind objects -/

/-- Work on an object of a VM, when it succeeds, leaves the object's wrapper there. -/
theorem lt_length_of_withObject {α : Type} {action : String} {object : HandleId}
    {work : ReferenceId → Engine → α × Engine} {s s' : HostState} {a : α}
    (done : withObject action object (fun _ _ ref => inEngine (work ref)) s = .ok a s') :
    object < s'.wrappers.length := by
  obtain ⟨_, _, _, _, _, there, -, -, -⟩ := withObject_eq_ok done
  have same : HostState.SamePointers s s' :=
    (withObject_moves fun _ _ _ => Moves.inEngine fun _ => rfl).of_ok done
  have bound := (List.getElem?_eq_some_iff.mp there).1
  rwa [← same, HostState.pointers, List.length_map] at bound

/-- A table behind an object is wrapped for the VM of the object. -/
theorem tableBehind_conserves (action : String) (object : HandleId)
    {work : ReferenceId → Engine → Option ReferenceId × Engine}
    (traded : ∀ ref, Engine.Trades calls [] (work ref) fun ref => ref.toList) :
    Conserves calls (do
      let ref ← withObject action object fun _ _ ref => inEngine (work ref)
      wrap (← vmOf object) .table ref) := by
  have handed : Trades calls [] (withObject action object fun _ _ ref => inEngine (work ref))
      (fun ref => ref.toList) [] :=
    Trades.withObject fun _ _ ref => Trades.inEngine (traded ref)
  intro s rest h
  have traded := handed s rest h
  rw [bind_run]
  cases done : withObject action object (fun _ _ ref => inEngine (work ref)) s with
  | error e t =>
    rw [done] at traded
    exact traded
  | ok ref t =>
    rw [done] at traded
    -- The wrapper is still there, so that nothing fails before the reference is wrapped.
    have found := List.getElem?_eq_getElem (lt_length_of_withObject done)
    simp only [vmOf, bind_run, get_run, found, pure_run]
    exact wrap_trades _ .table ref [] t rest traded

theorem metatable_conserves (table : HandleId) : Conserves calls (Table.metatable table) :=
  tableBehind_conserves "get metatable" table Engine.tableMetatable_trades

theorem environment_conserves (function : HandleId) : Conserves calls (Function.environment function) :=
  tableBehind_conserves "get environment" function Engine.functionEnvironment_trades

end Host
end ScriptHost

/-
Where the code of the host runs inside of the call of a function: where the call polls an interrupt
(`Host.Polls`) and where it runs a host function (`Host.Calls`), and nowhere else (`Host.call_congr`). There
the function is in use (`Host.Polls.leads`, `Host.Calls.leads`).
-/
import ScriptHost.Proofs.Host.Calling

namespace ScriptHost.Host

open Usage (Leads)

variable {code : HostCode}

/-- The arguments of a call are ready, and the engine has counted it. -/
structure Sent (function : HandleId) (args : List Value) (s : HostState) (vm : VmId) (machine : MachineId)
    (ref : ReferenceId) (list : RawList (Option ReferenceId)) (t : HostState) : Prop where
  ready : ∃ entered sent, enter "call function" function s = .ok (vm, machine, ref) entered ∧
    sendAll vm args entered = .ok list sent ∧
      t = { sent with engine := (sent.engine.failing .functionCall).2 }

/-- A call polls an interrupt in some state. -/
structure Polls (function : HandleId) (args : List Value) (s : HostState) (c : CallbackId) (owner : VmId)
    (t : HostState) : Prop where
  sent : ∃ vm machine ref list, Sent function args s vm machine ref list t ∧
    (t.engine.machine? machine).bind (·.interrupt) = some c
  owner : callbackVm "poll interrupt" c t = .ok owner t

/-- A call runs a host function in some state, with some arguments. -/
structure Calls (code : HostCode) (function : HandleId) (args : List Value) (s : HostState)
    (c : CallbackId) (owner : VmId) (given : List Value) (t : HostState) : Prop where
  reached : ∃ vm machine ref list sent record polled environment,
    Sent function args s vm machine ref list sent ∧ pollMachine code machine sent = .ok record polled ∧
      record.bind (·.error) = none ∧
        polled.engine.deref? ref = some (.function (.host c) environment) ∧
          callbackVm "call host function" c polled = .ok owner polled ∧
            receiveAll owner list polled = .ok given t

variable {function : HandleId} {args : List Value} {s t : HostState}

/-- The function is in use once its call is counted. -/
theorem Sent.leads {vm : VmId} {machine : MachineId} {ref : ReferenceId}
    {list : RawList (Option ReferenceId)} (ready : Sent function args s vm machine ref list t)
    (loose : List ReferenceId) (uses : List Use) :
    s.vmOf? function = some vm ∧ ∃ loose' more, Leads uses ⟨s, loose, uses⟩
      ⟨t, RawList.carried list ++ loose', more ++ .object vm function :: uses⟩ := by
  obtain ⟨entered, sent, guarded, made, rfl⟩ := ready.ready
  refine ⟨(enter_eq_ok_iff.mp guarded).1, ?_⟩
  have started : Leads uses ⟨s, loose, uses⟩ ⟨entered, loose, .object vm function :: uses⟩ :=
    .of_step (.useObject guarded) (List.suffix_cons _ uses)
  have counted : Proceeds [] (do
      let list ← sendAll vm args
      let _ ← inEngine (·.failing .functionCall)
      return list) RawList.carried [] :=
    (sendAll_proceeds vm args).bind fun list => (failing_proceeds .functionCall _ []).bind fun _ => .pure rfl
  obtain ⟨loose', more, leads⟩ := counted entered loose (.object vm function :: uses)
  refine ⟨loose', more, started.trans ?_⟩
  simp only [after, answer?, bind_run, made, inEngine_run, pure_run, Option.elim_some] at leads
  exact leads.weaken (List.suffix_cons _ uses)

/-- An interrupt that a call polls runs while the function is in use. -/
theorem Polls.leads {c : CallbackId} {owner : VmId} (polls : Polls function args s c owner t)
    (loose : List ReferenceId) (uses : List Use) :
    ∃ vm, s.vmOf? function = some vm ∧ ∃ loose' more, Leads uses ⟨s, loose, uses⟩
      ⟨t, loose', more ++ .object vm function :: uses⟩ := by
  obtain ⟨vm, machine, ref, list, ready, -⟩ := polls.sent
  obtain ⟨isFor, loose', more, leads⟩ := ready.leads loose uses
  exact ⟨vm, isFor, _, more, leads⟩

/-- A host function that a call runs does so while the function is in use. -/
theorem Calls.leads (lawful : code.Lawful) {c : CallbackId} {owner : VmId} {given : List Value}
    (calls : Calls code function args s c owner given t) (loose : List ReferenceId) (uses : List Use) :
    ∃ vm, s.vmOf? function = some vm ∧ ∃ loose' more, Leads uses ⟨s, loose, uses⟩
      ⟨t, loose', more ++ .object vm function :: uses⟩ := by
  obtain ⟨vm, machine, ref, list, sent, record, polled, -, ready, asked, -, -, -, received⟩ := calls.reached
  obtain ⟨isFor, loose', more, leads⟩ := ready.leads loose uses
  have wrapped : Proceeds (RawList.carried list) (do
      let _ ← pollMachine code machine
      receiveAll owner list) (fun _ => []) [] :=
    (pollMachine_proceeds lawful machine _ []).bind fun _ => receiveAll_proceeds owner list []
  obtain ⟨loose'', more', leads'⟩ := wrapped sent loose' (more ++ .object vm function :: uses)
  simp only [after, answer?, bind_run, asked, received, Option.elim_some] at leads'
  refine ⟨vm, isFor, loose'', more' ++ more, leads.trans ?_⟩
  rw [List.append_assoc]
  exact leads'.weaken ((List.suffix_cons _ uses).trans (List.suffix_append _ _))

theorem recovering_congr {α : Type} {code code' : HostState → Outcome (Except Error α) × HostState}
    (same : code s = code' s) : HostCode.recovering code s = HostCode.recovering code' s := by
  show ofResult (code s).1.recover.1 (code s).2 = ofResult (code' s).1.recover.1 (code' s).2
  rw [same]

theorem callback_congr {code' : HostCode} {c : CallbackId} {list : RawList (Option ReferenceId)}
    (same : ∀ owner given t, callbackVm "call host function" c s = .ok owner s →
      receiveAll owner list s = .ok given t → code.function c owner given t = code'.function c owner given t) :
    callback code c list s = callback code' c list s := by
  unfold callback
  rw [bind_run, bind_run, attempt_run, attempt_run, bind_run, bind_run, tryCatch_run]
  rcases callbackVm_run "call host function" c s with ⟨e, gone⟩ | ⟨vm, found⟩
  · rw [gone]
    cases done : (do
      freeList list
      throw e : Host VmId) s with
    | ok a t => cases done
    | error e t => rfl
  · obtain ⟨given, t, received⟩ := receiveAll_succeeds vm list s
    rw [found]
    dsimp only
    rw [bind_run, bind_run, received]
    dsimp only
    have called : code.call c vm given t = code'.call c vm given t :=
      recovering_congr (same vm given t found received)
    rw [bind_run, bind_run, called]

theorem pollMachine_congr {code' : HostCode} {machine : MachineId}
    (same : ∀ c owner, (s.engine.machine? machine).bind (·.interrupt) = some c →
      callbackVm "poll interrupt" c s = .ok owner s → code.interrupt c owner s = code'.interrupt c owner s) :
    pollMachine code machine s = pollMachine code' machine s := by
  unfold pollMachine
  rw [bind_run, bind_run, get_run]
  dsimp only
  cases found : (s.engine.machine? machine).bind (·.interrupt) with
  | none => rfl
  | some c =>
    dsimp only [pollCallback]
    rw [bind_run, bind_run, bind_run, bind_run, attempt_run, attempt_run, bind_run, bind_run]
    rcases callbackVm_run "poll interrupt" c s with ⟨e, gone⟩ | ⟨vm, owned⟩
    · rw [gone]
    · have polled : code.poll c vm s = code'.poll c vm s := recovering_congr (same c vm found owned)
      rw [owned]
      dsimp only
      rw [polled]

theorem engineCall_congr {code' : HostCode} {machine : MachineId} {ref : ReferenceId}
    {list : RawList (Option ReferenceId)}
    (asked : pollMachine code machine { s with engine := (s.engine.failing .functionCall).2 } =
      pollMachine code' machine { s with engine := (s.engine.failing .functionCall).2 })
    (called : ∀ record polled c environment,
      pollMachine code machine { s with engine := (s.engine.failing .functionCall).2 } = .ok record polled →
      record.bind (·.error) = none → polled.engine.deref? ref = some (.function (.host c) environment) →
      callback code c list polled = callback code' c list polled) :
    engineCall code machine ref list s = engineCall code' machine ref list s := by
  unfold engineCall
  rw [bind_run, bind_run, inEngine_run]
  dsimp only
  rw [bind_run, bind_run, ← asked]
  obtain ⟨record, polled, answered⟩ :=
    pollMachine_succeeds code machine { s with engine := (s.engine.failing .functionCall).2 }
  rw [answered]
  dsimp only
  cases stopped : record.bind (·.error) with
  | some message => rfl
  | none =>
    dsimp only
    rw [bind_run, bind_run, get_run]
    dsimp only
    cases found : polled.engine.deref? ref with
    | none => rfl
    | some o =>
      cases o with
      | function body environment =>
        cases body with
        | chunk name source level => rfl
        | host c =>
          dsimp only [runBody]
          rw [bind_run, bind_run, called record polled c environment answered stopped found]
      | _ => rfl

/-- Code is nothing to a call but where the call polls an interrupt or runs a host function. -/
theorem call_congr {code' : HostCode}
    (polls : ∀ c owner t, Polls function args s c owner t → code.interrupt c owner t = code'.interrupt c owner t)
    (calls : ∀ c owner given t, Calls code function args s c owner given t →
      code.function c owner given t = code'.function c owner given t) :
    Function.call code function args s = Function.call code' function args s := by
  unfold Function.call
  obtain ⟨e, -, refused⟩ | ⟨vm, machine, ref, isFor, isOpen, armed⟩ := withObject_refused_or_open _ function s
  · rw [refused, refused]
  · rw [withObject_of_open isFor isOpen armed, withObject_of_open isFor isOpen armed, bind_run, bind_run]
    cases made : sendAll vm args ((s.readVm vm).readObject function) with
    | error e t => rfl
    | ok list sent =>
      have ready : Sent function args s vm machine ref list
          { sent with engine := (sent.engine.failing .functionCall).2 } :=
        ⟨_, sent, enter_eq_ok_iff.mpr ⟨isFor, isOpen, armed, rfl⟩, made, rfl⟩
      have asked := pollMachine_congr fun c owner found owned =>
        polls c owner _ ⟨⟨vm, machine, ref, list, ready, found⟩, owned⟩
      have same : engineCall code machine ref list sent = engineCall code' machine ref list sent := by
        refine engineCall_congr asked fun record polled c environment answered going found => ?_
        refine callback_congr fun owner given t owned received => calls c owner given t ?_
        exact ⟨vm, machine, ref, list, _, record, polled, environment, ready, answered, going, found,
          owned, received⟩
      dsimp only
      rw [bind_run, bind_run, same]

end ScriptHost.Host

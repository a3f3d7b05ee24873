/-
How the engine's call of a host function ends (`Host.CallbackEnds`): what it answers, in which state the
host function itself left the host, and which references were lost after that. They are lost in two of
the five ways to end: with the arguments, if there is no VM any more to wrap them for, and with the
results, if they were made ready and what they were made from cannot be closed.
-/
import ScriptHost.Proofs.Host.Moves
import ScriptHost.Proofs.Host.Transfers
import Mathlib.Data.List.Forall2

namespace ScriptHost.Host

open HostState (LosesNothing OnlyReturns OnlyAdds)

variable {code : HostCode} {c : CallbackId} {args : RawList (Option ReferenceId)} {s : HostState}

/-! ## The ways to end -/

/-- The host function ran for its VM, on the arguments with wrappers around them. Its own failures and its
panics are in what it answers. -/
structure Answers (code : HostCode) (c : CallbackId) (args : RawList (Option ReferenceId))
    (s : HostState) (vm : VmId) (ended : Except Error (List Value)) (inside : HostState) : Prop where
  found : callbackVm "call host function" c s = .ok vm s
  run : ∃ given t, receiveAll vm args s = .ok given t ∧
    attempt (code.call c vm given) t = .ok ended inside

/-- How a call ends: what is answered, the state that the host function left, the state at the end, and
the references lost on the way. -/
inductive CallbackEnds (code : HostCode) (c : CallbackId) (args : RawList (Option ReferenceId))
    (s : HostState) :
    Except CString (RawList (Option ReferenceId)) → (inside s' : HostState) →
      (lost : List ReferenceId) → Prop where
  /-- Nothing refers to the VM any more. The arguments are freed as they came. -/
  | vmGone {e : Error} :
    callbackVm "call host function" c s = .error e s →
    CallbackEnds code c args s (.error (errorRecord e)) s { s with engine := s.engine.freeList args }
      (RawList.carried args)
  /-- The host function failed, or it panicked. -/
  | failed {vm : VmId} {e : Error} {inside : HostState} :
    Answers code c args s vm (.error e) inside →
    CallbackEnds code c args s (.error (errorRecord e)) inside inside []
  /-- A result cannot be passed on. Those that were ready are taken back. -/
  | refused {vm : VmId} {values : List Value} {e : Error} {inside t s' : HostState} :
    Answers code c args s vm (.ok values) inside →
    sendAll vm values inside = .error e t →
    closeAll values t = .ok () s' →
    CallbackEnds code c args s (.error (errorRecord e)) inside s' []
  /-- A result cannot be closed. Those that were made ready are freed as they are. -/
  | unclosed {vm : VmId} {values : List Value} {e : Error}
    {list : Except Error (RawList (Option ReferenceId))} {inside t s' : HostState} :
    Answers code c args s vm (.ok values) inside →
    attempt (sendAll vm values) inside = .ok list t →
    closeAll values t = .error e s' →
    CallbackEnds code c args s (.error (errorRecord e)) inside
      { s' with engine := s'.engine.freeList (list.toOption.getD []) }
      (orLeft [] RawList.carried list)
  /-- The results go to the engine. -/
  | returned {vm : VmId} {values : List Value} {list : RawList (Option ReferenceId)}
    {inside t s' : HostState} :
    Answers code c args s vm (.ok values) inside →
    sendAll vm values inside = .ok list t →
    closeAll values t = .ok () s' →
    CallbackEnds code c args s (.ok list) inside s' []

theorem callbackVm_run (action : String) (c : CallbackId) (s : HostState) :
    (∃ e, callbackVm action c s = .error e s) ∨ ∃ vm, callbackVm action c s = .ok vm s := by
  simp only [callbackVm, bind_run, get_run]
  cases s.callbacks[c]? with
  | none => exact .inl ⟨_, rfl⟩
  | some callback =>
    dsimp only
    split
    · exact .inl ⟨_, rfl⟩
    · exact .inr ⟨_, rfl⟩

/-- A callback always comes to an end, and in one of the ways there are. -/
theorem callback_ends (code : HostCode) (c : CallbackId) (args : RawList (Option ReferenceId))
    (s : HostState) : ∃ result inside s' lost,
      callback code c args s = .ok result s' ∧ CallbackEnds code c args s result inside s' lost := by
  unfold callback
  rw [bind_run, attempt_run]
  rcases callbackVm_run "call host function" c s with ⟨e, gone⟩ | ⟨vm, found⟩
  · rw [bind_run, tryCatch_run, gone]
    exact ⟨_, _, _, _, rfl, .vmGone gone⟩
  obtain ⟨given, t, received⟩ := receiveAll_succeeds vm args s
  rw [bind_run, tryCatch_run, found]
  dsimp only
  rw [bind_run, received]
  dsimp only
  rw [bind_run]
  obtain ⟨ended, inside, ran⟩ := attempt_succeeds (code.call c vm given) t
  have answers : Answers code c args s vm ended inside := ⟨found, given, t, received, ran⟩
  cases ended with
  | error e =>
    rw [attempt_eq_error.mp ran]
    exact ⟨_, _, _, _, rfl, .failed answers⟩
  | ok values =>
    rw [attempt_eq_ok.mp ran]
    dsimp only
    -- Whether the results could be made ready shows only after they were closed.
    obtain ⟨list, u, sent⟩ := attempt_succeeds (sendAll vm values) inside
    rw [bind_run, sent]
    dsimp only
    rw [bind_run, tryCatch_run]
    cases closed : closeAll values u with
    | error e v => exact ⟨_, _, _, _, rfl, .unclosed answers sent closed⟩
    | ok done v =>
      cases list with
      | error e => exact ⟨_, _, _, _, rfl, .refused answers (attempt_eq_error.mp sent) closed⟩
      | ok list => exact ⟨_, _, _, _, rfl, .returned answers (attempt_eq_ok.mp sent) closed⟩

/-- What is lost in the end is lost besides what was lost inside the host function. -/
theorem CallbackEnds.leaked {result : Except CString (RawList (Option ReferenceId))}
    {inside s' : HostState} {lost : List ReferenceId}
    (ends : CallbackEnds code c args s result inside s' lost) :
    s'.engine.leaked = lost ++ inside.engine.leaked := by
  cases ends with
  | vmGone => rfl
  | failed => rfl
  | refused _ sent closed =>
    have first : LosesNothing _ _ := (sendAll_losesNothing _ _).of_error sent
    have second : LosesNothing _ _ := (closeAll_moves _).of_ok closed
    exact second.trans first
  | @unclosed vm values e list inside t s' _ sent closed =>
    have first : LosesNothing _ _ := (sendAll_losesNothing _ _).attempt.of_ok sent
    have second : LosesNothing _ _ := (closeAll_moves _).of_error closed
    rw [← second.trans first, ← carried_toOption]
    rfl
  | returned _ sent closed =>
    have first : LosesNothing _ _ := (sendAll_losesNothing _ _).of_ok sent
    have second : LosesNothing _ _ := (closeAll_moves _).of_ok closed
    exact second.trans first

/-! ## Calls of functions -/

/-- What the engine makes of a function once it has polled the interrupt: the state that the code of the
host left, and the references lost after that. -/
inductive PolledCallEnds (code : HostCode) (record : Option PollRecord) (function : ReferenceId)
    (args : RawList (Option ReferenceId)) (polled : HostState) :
    (inside : HostState) → (lost : List ReferenceId) → Prop where
  /-- The interrupt stopped the call, or there is no host function to call. -/
  | uncalled :
    (record.bind (·.error) = none →
      ∀ c environment, polled.engine.deref? function ≠ some (.function (.host c) environment)) →
    PolledCallEnds code record function args polled polled []
  | called {c : CallbackId} {environment : Option ObjectId}
    {result : Except CString (RawList (Option ReferenceId))} {inside s' : HostState}
    {lost : List ReferenceId} :
    record.bind (·.error) = none →
    polled.engine.deref? function = some (.function (.host c) environment) →
    CallbackEnds code c args polled result inside s' lost →
    PolledCallEnds code record function args polled inside lost

/-- What a call does before the engine looks at the function: it takes guards and makes the arguments
ready, and the engine polls the interrupt. -/
def Function.approach (code : HostCode) (function : HandleId) (args : List Value) :
    Host (Option PollRecord × ReferenceId × RawList (Option ReferenceId)) := do
  let entered ← enter "call function" function
  let list ← sendAll entered.1 args
  let _ ← inEngine (·.failing .functionCall)
  return (← pollMachine code entered.2.1, entered.2.2, list)

/-- What a call of a function comes to for the host. -/
inductive CallEnds (code : HostCode) (function : HandleId) (args : List Value) (s : HostState) :
    (inside : HostState) → (lost : List ReferenceId) → Prop where
  /-- The function cannot be called, or an argument cannot be passed on. -/
  | unapproached {e : Error} {t : HostState} :
    Function.approach code function args s = .error e t → CallEnds code function args s s []
  | approached {record : Option PollRecord} {ref : ReferenceId} {list : RawList (Option ReferenceId)}
    {polled inside : HostState} {lost : List ReferenceId} :
    Function.approach code function args s = .ok (record, ref, list) polled →
    PolledCallEnds code record ref list polled inside lost →
    CallEnds code function args s inside lost

theorem engineCall_ends {code : HostCode} {machine : MachineId} {function : ReferenceId}
    {args : RawList (Option ReferenceId)} {s polled : HostState} {record : Option PollRecord}
    (asked : pollMachine code machine { s with engine := (s.engine.failing .functionCall).2 } =
      .ok record polled) :
    ∃ inside lost, PolledCallEnds code record function args polled inside lost ∧
      (after (engineCall code machine function args) s).engine.leaked = lost ++ inside.engine.leaked := by
  have refused : ∀ message : CString, Moves LosesNothing (do
      let _ ← inEngine (·.receiveAll args)
      return (([], some message) : RawList (Option ReferenceId) × Option CString)) := fun message =>
    (inEngine_losesNothing (receiveAll_leaked args)).bind fun _ => Moves.pure _
  unfold engineCall
  rw [after_bind_of_ok (inEngine_run _ _), after_bind_of_ok asked]
  cases stopped : record.bind (·.error) with
  | some message =>
    exact ⟨polled, [], .uncalled (by simp [stopped]), refused message polled⟩
  | none =>
    dsimp only
    rw [after_bind_of_ok (get_run polled)]
    cases found : polled.engine.deref? function with
    | none => exact ⟨polled, [], .uncalled (by simp [found]), refused _ polled⟩
    | some o =>
      cases o with
      | function body environment =>
        cases body with
        | host c =>
          obtain ⟨result, inside, s', lost, done, ends⟩ := callback_ends code c args polled
          refine ⟨inside, lost, .called stopped found ends, ?_⟩
          dsimp only [runBody]
          rw [after_bind_of_ok done, ← ends.leaked]
          cases result <;> rfl
        | chunk name source level =>
          refine ⟨polled, [], .uncalled (by simp [found]), ?_⟩
          refine Moves.bind (runChunk_losesNothing code args name source level) (fun result => ?_) polled
          cases result with
          | ok results => exact Moves.pure _
          | error message => exact Moves.pure _
      | _ => exact ⟨polled, [], .uncalled (by simp [found]), refused _ polled⟩

theorem call_ends (code : HostCode) (function : HandleId) (args : List Value) (s : HostState) :
    ∃ inside lost, CallEnds code function args s inside lost ∧
      (after (Function.call code function args) s).engine.leaked = lost ++ inside.engine.leaked := by
  unfold Function.call
  cases reached : enter "call function" function s with
  | error e t =>
    refine ⟨s, [], .unapproached (e := e) (t := t) ?_, ?_⟩
    · rw [Function.approach, bind_run, reached]
    · have first : LosesNothing s t := (enter_moves _ function).of_error reached
      rw [engine_after_withObject_of_error reached]
      exact first
  | ok entered t =>
    obtain ⟨vm, machine, ref⟩ := entered
    have first : LosesNothing s t := (enter_moves _ function).of_ok reached
    rw [engine_after_withObject_of_ok reached]
    cases sent : sendAll vm args t with
    | error e u =>
      refine ⟨s, [], .unapproached (e := e) (t := u) ?_, ?_⟩
      · simp only [Function.approach, bind_run, reached, sent]
      · have second : LosesNothing t u := (sendAll_losesNothing vm args).of_error sent
        rw [after_bind_of_error sent]
        exact second.trans first
    | ok list u =>
      obtain ⟨record, polled, asked⟩ :=
        pollMachine_succeeds code machine { u with engine := (u.engine.failing .functionCall).2 }
      have approached : Function.approach code function args s = .ok (record, ref, list) polled := by
        simp only [Function.approach, bind_run, reached, sent, inEngine_run, asked, pure_run]
      obtain ⟨inside, lost, ends, leaked⟩ := @engineCall_ends code machine ref list u polled record asked
      refine ⟨inside, lost, .approached approached ends, ?_⟩
      rw [after_bind_of_ok sent, ← leaked]
      -- What comes after the engine's call closes what it got, or hands it on.
      refine Moves.after_bind (R := LosesNothing) (fun answer => ?_) u
      obtain ⟨results, error⟩ := answer
      refine (receiveAll_moves vm results).bind fun values => ?_
      cases error with
      | none => exact Moves.pure values
      | some message => exact (closeAll_moves values).bind fun _ => Moves.throw _

end ScriptHost.Host

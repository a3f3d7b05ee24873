/-
Described host functions conserve references: whatever the script, how deep the calls and however they end,
as many references are loose after it as before (`Script.code_conserves`).
-/
import ScriptHost.Callback.Script
import ScriptHost.Proofs.Host.Transfers

namespace ScriptHost

open Host

variable {calls : CallbackId → Prop}

/-! ## Running a script -/

namespace Host

/-- Code conserves references if the state it leaves is balanced. How it ends is nothing to them. -/
theorem recovering_conserves {α : Type} {code : HostState → Outcome (Except Error α) × HostState}
    (kept : ∀ s loose, s.Balanced calls loose → (code s).2.Balanced calls loose) :
    Conserves calls (HostCode.recovering code) := by
  intro s rest h
  have left := kept s rest h
  have ran : HostCode.recovering code s = ofResult (code s).1.recover.1 (code s).2 := rfl
  rw [ran]
  cases (code s).1.recover.1 with
  | ok a => exact left
  | error e => exact left

/-- A script leaves what its work leaves, also where it panics. -/
theorem runScript_none_snd {α : Type} (work : Host α) (s : HostState) :
    (s.runScript none work).2 = after work s := by
  unfold HostState.runScript after
  dsimp only
  cases work s with
  | ok a t => rfl
  | error e t =>
    cases e with
    | abort how => cases how <;> rfl
    | _ => rfl

theorem runScript_balanced {α : Type} (panic? : Option Panic) {work : Host α}
    (conserved : Conserves calls work) (c : CallbackId) {s : HostState} {loose : List ReferenceId}
    (h : s.Balanced calls loose) : ((s.countCall c).runScript panic? work).2.Balanced calls loose := by
  have counted : (s.countCall c).Balanced calls loose := ⟨h.engine, h.owned⟩
  cases panic? with
  | some p => exact counted
  | none =>
    have conserved := conserved (s.countCall c) loose counted
    rw [runScript_none_snd, after]
    cases done : work (s.countCall c) with
    | ok a t =>
      rw [done] at conserved
      exact conserved
    | error e t =>
      rw [done] at conserved
      exact conserved

theorem closeArguments_conserves (args : List Value) : Conserves calls (closeArguments args) :=
  (closeAll_conserves args).ignoringFailure

theorem fillTable_conserves (table : HandleId) (first : Int64) (vs : List Value) :
    Conserves calls (fillTable table first vs) := by
  induction vs generalizing first with
  | nil => exact Conserves.pure ()
  | cons v vs ih => exact (Table.set_conserves table _ v).bind fun _ => ih (first + 1)

end Host

/-! ## All scripts -/

theorem FunctionScript.results_conserves {call : HandleId → List Value → Host (List Value)}
    (conserved : ∀ function args, Conserves calls (call function args)) (c : CallbackId) (vm : VmId)
    (args : List Value) (script : FunctionScript) :
    Conserves calls (script.results call c vm args) := by
  have answered : ∀ {values : List Value}, Conserves calls (do
      closeArguments args
      return values) :=
    (closeArguments_conserves args).bind fun _ => Conserves.pure _
  cases script with
  | echo | dup => exact Conserves.pure _
  | pop =>
    cases args with
    | nil => exact Conserves.pure _
    | cons first rest => exact (close_conserves first).bind fun _ => Conserves.pure rest
  | count => exact answered
  | calls => exact Conserves.get fun s => answered
  | sum => exact (Conserves.ofResult _).bind fun total => answered
  | types =>
    refine (Conserves.mapM (fun v => createString_conserves vm _) args).bind fun names => ?_
    exact answered
  | «at» accessor index => exact (Conserves.ofResult _).bind fun v => Conserves.pure [v]
  | fail message => exact Conserves.throw _
  | panic _ => exact answered
  | table =>
    refine (createTable_conserves vm).bind fun t => ?_
    exact (fillTable_conserves _ 1 args).bind fun _ => answered
  | closeVm => exact (closeVm_conserves vm).bind fun _ => answered
  | closeArgs => exact (closeAll_conserves args).bind fun _ => Conserves.pure []
  | kept => exact Conserves.get fun s => Conserves.pure _
  | apply =>
    refine (Conserves.ofResult _).bind fun f => (conserved f args.tail).bind fun values => ?_
    exact (closeObject_conserves f).bind fun _ => Conserves.pure values

theorem InterruptScript.state_conserves (c : CallbackId) (vm : VmId) (script : InterruptScript) :
    Conserves calls (script.state c vm) := by
  cases script with
  | «continue» | yield | panic => exact Conserves.pure _
  | fail message => exact Conserves.throw _
  | closeVm => exact (closeVm_conserves vm).bind fun _ => Conserves.pure _
  | after n =>
    refine Conserves.get fun s => ?_
    dsimp only
    split
    · exact Conserves.throw _
    · exact Conserves.pure _

namespace Script

theorem poll_conserves (scripts : List Script) (c : CallbackId) (vm : VmId) :
    Conserves calls (HostCode.recovering (poll scripts c vm)) := by
  refine recovering_conserves fun s loose h => ?_
  unfold poll
  split
  · exact runScript_balanced _ (InterruptScript.state_conserves c vm _) c h
  · exact h

/-- Scripts conserve references, however deep they may call each other. -/
theorem code_conserves (scripts : List Script) (depth : Nat) :
    (code scripts depth).Conserves fun _ => True := by
  induction depth with
  | zero =>
    refine ⟨fun c _ vm args => recovering_conserves fun s loose h => h, fun c _ vm => ?_⟩
    exact poll_conserves scripts c vm
  | succ depth ih =>
    refine ⟨fun c _ vm args => recovering_conserves fun s loose h => ?_, fun c _ vm => ?_⟩
    · dsimp only [code]
      split
      · exact runScript_balanced _ (FunctionScript.results_conserves (call_conserves ih) c vm args _) c h
      · exact h
    · exact poll_conserves scripts c vm

end Script
end ScriptHost

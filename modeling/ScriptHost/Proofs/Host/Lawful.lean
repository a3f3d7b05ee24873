/-
Scripts are lawful code: they do nothing but what the host offers, however deep they call each other
(`Script.code_lawful`).
-/
import ScriptHost.Callback.Script
import ScriptHost.Proofs.Host.Calling

namespace ScriptHost

open Host

/-! ## Running a script -/

namespace Host

/-- A panic leaves the host as it was, or as the work that panics leaves it. -/
theorem recovering_proceeds {α : Type} (panic? : Option Panic) {work : Host α}
    (proceeds : Proceeds [] work (fun _ => []) []) :
    Proceeds [] (HostCode.recovering fun s => s.runScript panic? work) (fun _ => []) [] := by
  cases panic? with
  | some p => exact .of_same fun s => rfl
  | none =>
    refine proceeds.congr_after fun s => ?_
    refine Eq.trans ?_ (runScript_none_snd work s)
    show after (ofResult (s.runScript none work).1.recover.1) (s.runScript none work).2 = _
    cases (s.runScript none work).1.recover.1 <;> rfl

theorem runScript_proceeds {α : Type} (panic? : Option Panic) {work : Host α}
    (proceeds : Proceeds [] work (fun _ => []) []) (c : CallbackId) :
    Proceeds [] (HostCode.recovering fun s => (s.countCall c).runScript panic? work) (fun _ => []) [] := by
  have noted : Proceeds [] (modify (·.countCall c) : Host PUnit) (fun _ => []) [] :=
    .of_quiet (c := .noteCall c) trivial rfl
  exact noted.bind fun _ => recovering_proceeds panic? proceeds

theorem closeVm_proceeds (vm : VmId) : Proceeds [] (closeVm vm) (fun _ => []) [] :=
  ask_proceeds (.closeVm vm) trivial rfl

theorem close_proceeds (value : Value) : Proceeds [] (close value) (fun _ => []) [] :=
  ask_proceeds (.close value) trivial rfl

theorem closeArguments_proceeds (args : List Value) : Proceeds [] (closeArguments args) (fun _ => []) [] := by
  refine Proceeds.bind (closeAll_proceeds args).attempt fun result => ?_
  cases result <;> exact .pure rfl

theorem fillTable_proceeds (table : HandleId) (first : Int64) (vs : List Value) :
    Proceeds [] (fillTable table first vs) (fun _ => []) [] := by
  induction vs generalizing first with
  | nil => exact .pure rfl
  | cons v vs ih =>
    exact (ask_proceeds (.set table (.integer first) v) trivial rfl).bind fun _ => ih (first + 1)

theorem types_proceeds (vm : VmId) (args : List Value) :
    Proceeds [] (args.mapM fun v => createString vm (Utf8.ofString v.kind.name)) (fun _ => []) [] := by
  induction args with
  | nil => exact .pure rfl
  | cons v vs ih =>
    rw [List.mapM_cons]
    refine (ask_proceeds (.createString vm _) trivial rfl).bind fun name => ?_
    exact ih.bind fun names => .pure rfl

end Host

/-! ## All scripts -/

theorem FunctionScript.results_proceeds {call : HandleId → List Value → Host (List Value)}
    (called : ∀ function args, Proceeds [] (call function args) (fun _ => []) []) (c : CallbackId) (vm : VmId)
    (args : List Value) (script : FunctionScript) :
    Proceeds [] (script.results call c vm args) (fun _ => []) [] := by
  have answered : ∀ {values : List Value}, Proceeds [] (do
      closeArguments args
      return values) (fun _ => []) [] :=
    (closeArguments_proceeds args).bind fun _ => .pure rfl
  have taken : ∀ {α : Type} (result : Except Error α), Proceeds [] (ofResult result) (fun _ => []) [] := by
    intro α result
    cases result with
    | ok a => exact .pure rfl
    | error e => exact .throw
  cases script with
  | echo | dup => exact .pure rfl
  | pop =>
    cases args with
    | nil => exact .pure rfl
    | cons first rest => exact (close_proceeds first).bind fun _ => .pure rfl
  | count => exact answered
  | calls => exact .get fun s => answered
  | sum => exact (taken _).bind fun total => answered
  | types => exact (types_proceeds vm args).bind fun names => answered
  | «at» accessor index => exact (taken _).bind fun v => .pure rfl
  | fail message => exact .throw
  | panic _ => exact answered
  | table =>
    refine (ask_proceeds (.createTable vm) trivial rfl).bind fun t => ?_
    exact (fillTable_proceeds _ 1 args).bind fun _ => answered
  | closeVm => exact (closeVm_proceeds vm).bind fun _ => answered
  | closeArgs => exact (closeAll_proceeds args).bind fun _ => .pure rfl
  | kept => exact .get fun s => .pure rfl
  | apply =>
    refine (taken _).bind fun f => (called f args.tail).bind fun values => ?_
    exact (close_proceeds (.object .function f)).bind fun _ => .pure rfl

theorem InterruptScript.state_proceeds (c : CallbackId) (vm : VmId) (script : InterruptScript) :
    Proceeds [] (script.state c vm) (fun _ => []) [] := by
  cases script with
  | «continue» | yield | panic => exact .pure rfl
  | fail message => exact .throw
  | closeVm => exact (closeVm_proceeds vm).bind fun _ => .pure rfl
  | after n =>
    refine .get fun s => ?_
    dsimp only
    split
    · exact .throw
    · exact .pure rfl

namespace Script

theorem poll_proceeds (scripts : List Script) (c : CallbackId) (vm : VmId) :
    Proceeds [] (HostCode.recovering (poll scripts c vm)) (fun _ => []) [] := by
  unfold poll
  split
  · exact runScript_proceeds _ (InterruptScript.state_proceeds c vm _) c
  · exact .of_same fun s => rfl

theorem code_lawful (scripts : List Script) (depth : Nat) : (code scripts depth).Lawful := by
  induction depth with
  | zero => exact ⟨fun c vm args => .of_same fun s => rfl, poll_proceeds scripts⟩
  | succ depth ih =>
    refine ⟨fun c vm args => ?_, poll_proceeds scripts⟩
    have called := call_proceeds ih
    unfold HostCode.call code
    dsimp only
    split
    · exact runScript_proceeds _ (FunctionScript.results_proceeds called c vm args _) c
    · exact .of_same fun s => rfl

end Script
end ScriptHost

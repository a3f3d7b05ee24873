/-
What becomes of the references that a callback is about: those of its arguments, and those made for its
results. When it fails, each is given back, or is in a wrapper that the host function kept, or was lost;
when it succeeds, each result that is an object has one that goes to the engine
(`Host.callback_settles_references`). Lost is what `Host.CallbackEnds` says: the arguments, if the VM is
gone, and the results, if they cannot be closed.
-/
import ScriptHost.Proofs.Host.Ending
import ScriptHost.Proofs.Host.Passing
import ScriptHost.Proofs.Host.Reclaiming
import ScriptHost.Proofs.Host.Scripts

namespace ScriptHost

variable {calls : CallbackId → Prop}

namespace HostState

/-- Of the references in `taken` and of those made since, these remain when every wrapper is dropped that
is not among some: those of the wrappers among them, those in `given`, and those in `lost`. All others
are given back. -/
def Settles (s s' : HostState) (taken given lost : List ReferenceId) : Prop :=
  ∀ (kept : List HandleId) (ref : ReferenceId),
    ref ∈ taken ∨ s.engine.references.length ≤ ref →
      ((s'.finalizeWrappers kept).engine.target? ref ≠ none ↔
        s'.Keeps kept ref ∨ ref ∈ given ∨ ref ∈ lost)

namespace Balanced

variable {s s' : HostState} {loose : List ReferenceId}

theorem bounded (h : s.Balanced calls loose) : Host.Bounded s :=
  fun _ owned => h.engine.lt_of_mem (List.mem_append_left _ (List.mem_append_left _ owned))

theorem nodup_loose (h : s.Balanced calls loose) : loose.Nodup :=
  (List.nodup_append.mp (List.nodup_append.mp h.engine.nodup).1).2.1

/-- What was loose besides is not what the work is about. -/
theorem settles {taken given rest : List ReferenceId} (h : s.Balanced calls (taken ++ rest))
    (h' : s'.Balanced calls (given ++ rest)) : s.Settles s' taken given s'.engine.leaked := by
  intro kept ref concerned
  have elsewhere : ref ∉ rest := by
    intro mem
    rcases concerned with taken | new
    · exact (List.nodup_append.mp h.nodup_loose).2.2 ref taken ref mem rfl
    · have old : ref < s.engine.references.length :=
        h.engine.lt_of_mem (List.mem_append_left _ (List.mem_append_right _ (List.mem_append_right _ mem)))
      exact absurd old (Nat.not_lt.mpr new)
  rw [h'.target?_finalizeWrappers kept, List.mem_append, or_iff_left elsewhere]

end Balanced
end HostState

namespace Host

open HostState (OnlyReturns)

variable {code : HostCode} {c : CallbackId} {args : RawList (Option ReferenceId)} {s : HostState}

/-- The arguments are the host function's, which left no more and no less loose. -/
theorem Answers.balanced (conserves : code.Conserves calls) (call : calls c) {vm : VmId}
    {ended : Except Error (List Value)} {inside : HostState} {rest : List ReferenceId}
    (answers : Answers code c args s vm ended inside)
    (h : s.Balanced calls (RawList.carried args ++ rest)) : inside.Balanced calls rest := by
  obtain ⟨given, t, received, called⟩ := answers.run
  have wrapped := (receiveAll_trades vm args [] : Trades calls _ _ _ _) s rest h
  rw [received] at wrapped
  have conserved := (conserves.call c call vm given).attempt t rest wrapped
  rw [called] at conserved
  exact conserved

theorem forall₂_passed_returning {t u : HostState} {vs : List Value}
    {list : RawList (Option ReferenceId)} (passed : List.Forall₂ (Passed s t) vs list)
    (returns : OnlyReturns t u) (there : ∀ ref ∈ RawList.carried list, u.engine.target? ref ≠ none) :
    List.Forall₂ (Passed s u) vs list := by
  induction passed with
  | nil => exact .nil
  | cons first _ ih =>
    simp only [RawList.carried_cons, List.mem_append] at there
    exact .cons (first.returning returns fun ref mem => there ref (.inl mem))
      (ih fun ref mem => there ref (.inr mem))

/-- Results that go to the engine go through one reference each, made for it. -/
theorem CallbackEnds.passed (conserves : code.Conserves calls) (call : calls c)
    {list : RawList (Option ReferenceId)} {inside s' : HostState} {lost rest : List ReferenceId}
    (ends : CallbackEnds code c args s (.ok list) inside s' lost)
    (h : s.Balanced calls (RawList.carried args ++ rest))
    (there : ∀ ref ∈ RawList.carried list, s'.engine.target? ref ≠ none) :
    ∃ vm values, Answers code c args s vm (.ok values) inside ∧
      List.Forall₂ (Passed inside s') values list := by
  cases ends with
  | @returned vm values _ _ t _ answers sent closed =>
    have bounded := (answers.balanced conserves call h).bounded
    obtain ⟨-, passed⟩ := sendAll_eq_ok bounded sent
    have returns : OnlyReturns t s' := (closeAll_moves values).of_ok closed
    exact ⟨vm, values, answers, forall₂_passed_returning passed returns there⟩

/-- What a call makes ready is there for the function it calls. -/
theorem approach_trades (conserves : code.Conserves calls) (function : HandleId) (args : List Value) :
    Trades calls [] (Function.approach code function args) (fun made => RawList.carried made.2.2) [] := by
  have guarded : Conserves calls (enter "call function" function) :=
    (vmOf_conserves function).bind fun vm => (enterVm_conserves _ vm).bind fun _ =>
      (enterObject_conserves function).bind fun _ => Conserves.pure _
  refine Trades.bind guarded fun entered => (sendAll_trades entered.1 args).bind fun list => ?_
  refine Trades.bind (failing_keeps .functionCall _ []) fun fault => ?_
  exact (pollMachine_keeps conserves entered.2.1 _ []).bind fun record => Trades.pure rfl

/-- **What callbacks come to for references.** Whatever the code of the host does and whatever fails, a
callback answers. Of the references of its arguments and of those made since, when all wrappers but some
are dropped, there remain those of these wrappers, those that were lost in one of the ways of
`CallbackEnds` or inside the host function, and, where the callback succeeded, those that go to the engine:
for each result that is an object one of its own, made for it. So it is for the call of a function, in
which the callback finds the arguments that were made ready. -/
theorem callback_settles_references (code : HostCode) (conserves : code.Conserves fun _ => True) :
    (∀ c args s rest, s.Balanced (fun _ => True) (RawList.carried args ++ rest) →
      ∃ result inside s' lost, callback code c args s = .ok result s' ∧
        CallbackEnds code c args s result inside s' lost ∧
        s'.Balanced (fun _ => True) (orLeft [] RawList.carried result ++ rest) ∧
        s.Settles s' (RawList.carried args) (orLeft [] RawList.carried result)
          (lost ++ inside.engine.leaked) ∧
        ∀ list, result = .ok list → (RawList.carried list).Nodup ∧
          ∃ vm values, Answers code c args s vm (.ok values) inside ∧
            List.Forall₂ (Passed inside s') values list) ∧
    ∀ function args s rest, s.Balanced (fun _ => True) rest →
      (∃ inside s' lost, after (Function.call code function args) s = s' ∧
        CallEnds code function args s inside lost ∧
        s'.Balanced (fun _ => True) rest ∧
        s.Settles s' [] [] (lost ++ inside.engine.leaked)) ∧
      ∀ record ref list polled, Function.approach code function args s = .ok (record, ref, list) polled →
        polled.Balanced (fun _ => True) (RawList.carried list ++ rest) := by
  refine ⟨fun c args s rest h => ?_, fun function args s rest h => ⟨?_, ?_⟩⟩
  · obtain ⟨result, inside, s', lost, done, ends⟩ := callback_ends code c args s
    have left := callback_trades conserves (c := c) trivial args s rest h
    rw [done] at left
    refine ⟨result, inside, s', lost, done, ends, left, ?_, ?_⟩
    · rw [← ends.leaked]
      exact h.settles left
    · rintro list rfl
      refine ⟨(List.nodup_append.mp left.nodup_loose).1, ends.passed conserves trivial h fun ref mem => ?_⟩
      exact left.engine.live ref (List.mem_append_right _ (List.mem_append_left _ mem))
  · obtain ⟨inside, lost, ends, leaked⟩ := call_ends code function args s
    have left := (call_conserves conserves function args).after h
    refine ⟨inside, _, lost, rfl, ends, left, ?_⟩
    rw [← leaked]
    exact @HostState.Balanced.settles _ _ _ [] [] rest h left
  · intro record ref list polled approached
    have left := approach_trades conserves function args s rest h
    rw [approached] at left
    exact left

/-- A string out of its wrapper is passed to a callback that returns it, and a function is called with
nothing. -/
theorem callback_settles_references_of_echo :
    let code := Script.code [.function .echo] 1
    let setup : Host ReferenceId := do
      let vm ← newVm
      let _ ← createString vm [97]
      let c ← newCallback vm []
      let _ ← createFunction vm c
      disarm 0
    let s := after setup {}
    s.Balanced (fun _ => True) [0] ∧
    (∃ list inside s', callback code 0 [.object .string (some 0)] s = .ok (.ok list) s' ∧
      list = [.object .string (some 2)] ∧ s'.Balanced (fun _ => True) [2] ∧
      s.Settles s' [0] [2] inside.engine.leaked ∧
      ∃ vm values, Answers code 0 [.object .string (some 0)] s vm (.ok values) inside ∧
        List.Forall₂ (Passed inside s') values list) ∧
      ∃ inside s' lost, after (Function.call code 1 []) s = s' ∧ CallEnds code 1 [] s inside lost ∧
        s'.Balanced (fun _ => True) [0] ∧ s.Settles s' [] [] (lost ++ inside.engine.leaked) := by
  intro code setup s
  have traded : Trades (fun _ => True) [] setup (fun ref => [ref]) [] := by
    refine Trades.bind newVm_conserves fun vm => ?_
    refine Trades.bind (createString_conserves vm [97]) fun _ => ?_
    refine Trades.bind (newCallback_conserves vm []) fun c => ?_
    exact Trades.bind (createFunction_conserves trivial vm) fun _ => disarm_trades 0
  have balanced : s.Balanced (fun _ => True) [0] := by
    have left := traded {} [] (HostState.Balanced.empty [])
    have made : answer? setup {} = some 0 := by decide +kernel
    rw [answer?_eq_some.mp made] at left
    exact left
  obtain ⟨records, functions⟩ := callback_settles_references code (Script.code_conserves _ 1)
  obtain ⟨result, inside, s', lost, done, ends, left, settled, passed⟩ :=
    records 0 [.object .string (some 0)] s [] balanced
  have answered : (answer? (callback code 0 [.object .string (some 0)]) s).bind Except.toOption =
      some [.object .string (some 2)] := by
    decide +kernel
  rw [answer?, done] at answered
  cases result with
  | error message => cases answered
  | ok list =>
    cases answered
    cases ends
    refine ⟨balanced, ⟨_, inside, s', done, rfl, left, settled, (passed _ rfl).2⟩, ?_⟩
    exact (functions 1 [] s [0] balanced).1

/-- A function returns a string while someone reads it, so that it cannot be closed. The reference that was
made for it stays when every wrapper is gone. -/
theorem callback_loses_of_locked :
    let code := Script.code [.function .kept] 1
    let setup : Host ReferenceId := do
      let vm ← newVm
      let string ← createString vm [97]
      let _ ← newCallback vm [string]
      enterObject 0
    let s := after setup {}
    let s' := after (callback code 0 []) s
    s.Balanced (fun _ => True) [] ∧ s.engine.references.length = 1 ∧
      (∃ message, callback code 0 [] s = .ok (.error message) s') ∧
      (s'.finalizeWrappers []).engine.target? 1 ≠ none := by
  intro code setup s s'
  refine ⟨?_, by decide +kernel, ?_, by decide +kernel⟩
  · have conserved : Conserves (fun _ => True) setup := by
      refine newVm_conserves.bind fun vm => (createString_conserves vm [97]).bind fun string => ?_
      exact (newCallback_conserves vm [string]).bind fun _ => enterObject_conserves 0
    exact conserved.after (HostState.Balanced.empty [])
  · obtain ⟨result, inside, t, lost, done, -⟩ := callback_ends code 0 [] s
    have failed : (answer? (callback code 0 []) s).bind Except.toOption = none := by decide +kernel
    rw [answer?, done] at failed
    have last : s' = t := after_eq_of_ok done
    cases result with
    | ok list => cases failed
    | error message => exact ⟨message, last ▸ done⟩

end Host
end ScriptHost

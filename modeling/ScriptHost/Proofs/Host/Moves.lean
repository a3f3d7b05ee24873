/-
What work of the host does to the state, whether it succeeds or fails: a relation between the state
before and the state after (`Host.Moves`). Work that is put together moves as its parts do. Only a
list that is freed loses references (`HostState.LosesNothing`); closing only gives references back
(`HostState.OnlyReturns`); making a value ready for the engine only adds references
(`HostState.OnlyAdds`).
-/
import ScriptHost.Host.Call
import ScriptHost.Proofs.Engine.Balance
import ScriptHost.Proofs.Host.Armed
import ScriptHost.Proofs.Host.Guards
import Mathlib.Order.Defs.Unbundled

namespace ScriptHost

/-! ## Relations -/

namespace HostState

/-- A relation that holds along a run of the host. To messages it is nothing, and a guard that was taken
before some work is nothing to it once it is given back after the work. -/
class Guarded (R : HostState → HostState → Prop) : Prop extends IsPreorder HostState R where
  messages : ∀ {s : HostState} {errors freed}, R s { s with errors, freed }
  vm : ∀ {s t : HostState} {vm machine}, s.machine? vm = some machine → R (s.readVm vm) t →
    R s (t.unreadVm vm)
  object : ∀ {s t : HostState} {object ref}, s.reference? object = some ref →
    R (s.readObject object) t → R s (t.unreadObject object)

/-- A relation that also holds when a reference is wrapped, or given back from a wrapper that nobody reads
or without one. -/
class Passing (R : HostState → HostState → Prop) : Prop extends Guarded R where
  wrapped : ∀ {s : HostState} {vm ref kind}, R s { s with wrappers := s.wrappers ++ [⟨vm, .arm ref kind⟩] }
  unwrapped : ∀ {s : HostState} {h w}, s.wrappers[h]? = some w → w.lock.readers = 0 →
    R s { s with wrappers := s.wrappers.set h { w with lock := w.lock.disarmed } }
  returned : ∀ {s : HostState} {ref}, R s { s with engine := s.engine.giveBack ref }

/-- A relation that holds along a run of the host, and to which guards and messages are nothing. -/
class Along (R : HostState → HostState → Prop) : Prop where
  still : ∀ {s t}, t.engine = s.engine → t.pointers = s.pointers → R s t
  trans : ∀ {s t u}, R s t → R t u → R s u

/-- A relation to which it is nothing either whether a reference is still in a wrapper, or was given
back. -/
class Releasing (R : HostState → HostState → Prop) : Prop extends Along R where
  unowned : ∀ {s t}, t.engine = s.engine → R s t
  returned : ∀ {s t ref}, t.engine = s.engine.giveBack ref → R s t

instance (priority := low) {R : HostState → HostState → Prop} [Along R] : Guarded R where
  refl _ := Along.still rfl rfl
  trans _ _ _ := Along.trans
  messages := Along.still rfl rfl
  vm _ during := by
    refine Along.trans (Along.trans ?_ during) ?_
    · exact Along.still rfl rfl
    · exact Along.still rfl rfl
  object _ during := by
    refine Along.trans (Along.trans ?_ during) ?_
    · refine Along.still rfl (map_modify_of_same (fun w => ?_) _ _)
      rfl
    · refine Along.still rfl (map_modify_of_same (fun w => ?_) _ _)
      rfl

instance (priority := low) {R : HostState → HostState → Prop} [Releasing R] : Passing R where
  wrapped := Releasing.unowned rfl
  unwrapped _ _ := Releasing.unowned rfl
  returned := Releasing.returned rfl

/-- Nothing changed but guards and messages. -/
def Still (s t : HostState) : Prop :=
  t.engine = s.engine ∧ t.pointers = s.pointers

/-- Every wrapper owns what it owned. -/
def SamePointers (s t : HostState) : Prop :=
  t.pointers = s.pointers

/-- No list was freed with references in it. -/
def LosesNothing (s t : HostState) : Prop :=
  t.engine.leaked = s.engine.leaked

/-- A reference that is still there leads to where it led. -/
def OnlyReturns (s t : HostState) : Prop :=
  ∀ ref id, t.engine.target? ref = some id → s.engine.target? ref = some id

/-- The references there were lead to where they led, and every wrapper owns what it owned. -/
structure OnlyAdds (s t : HostState) : Prop where
  length_le : s.engine.references.length ≤ t.engine.references.length
  target? : ∀ ref < s.engine.references.length, t.engine.target? ref = s.engine.target? ref
  pointers : t.pointers = s.pointers

instance : Along Still where
  still engine pointers := ⟨engine, pointers⟩
  trans first second := ⟨second.1.trans first.1, second.2.trans first.2⟩

instance : Along SamePointers where
  still _ pointers := pointers
  trans first second := Eq.trans second first

instance : Releasing LosesNothing where
  still engine _ := congrArg Engine.leaked engine
  trans first second := Eq.trans second first
  unowned engine := congrArg Engine.leaked engine
  returned engine := by rw [LosesNothing, engine, Engine.giveBack]

instance : Releasing OnlyReturns where
  still engine _ _ _ there := by rwa [engine] at there
  trans first second ref id there := first ref id (second ref id there)
  unowned engine _ _ there := by rwa [engine] at there
  returned {s t given} engine ref id there := by
    rw [engine, Engine.target?, Engine.giveBack, List.getElem?_set] at there
    split at there
    · split at there <;> cases there
    · exact there

instance : Along OnlyAdds where
  still engine pointers := ⟨Nat.le_of_eq (by rw [engine]), fun _ _ => by rw [engine], pointers⟩
  trans first second :=
    ⟨Nat.le_trans first.length_le second.length_le,
      fun ref old => (second.target? ref (Nat.lt_of_lt_of_le old first.length_le)).trans
        (first.target? ref old),
      second.pointers.trans first.pointers⟩

end HostState

namespace Host

variable {α β γ : Type} {R : HostState → HostState → Prop}

/-! ## Putting work together -/

/-- The state that some work ends in, with success or not. -/
def after (work : Host α) (s : HostState) : HostState :=
  match work s with
  | .ok _ t | .error _ t => t

theorem after_eq_of_ok {work : Host α} {a : α} {s t : HostState} (done : work s = .ok a t) :
    after work s = t := by
  rw [after, done]

theorem after_eq_of_error {work : Host α} {e : Error} {s t : HostState} (done : work s = .error e t) :
    after work s = t := by
  rw [after, done]

theorem after_bind_of_ok {work : Host α} {next : α → Host β} {a : α} {s t : HostState}
    (done : work s = .ok a t) : after (work >>= next) s = after (next a) t := by
  rw [after, bind_run, done, after]

theorem after_bind_of_error {work : Host α} {next : α → Host β} {e : Error} {s t : HostState}
    (failed : work s = .error e t) : after (work >>= next) s = t := by
  rw [after, bind_run, failed]

/-- What is answered is nothing to the state. -/
theorem after_bind_pure (work : Host α) (f : α → β) (s : HostState) :
    after (do return f (← work)) s = after work s := by
  unfold after
  rw [bind_run]
  cases work s <;> rfl

theorem after_attempt (work : Host α) (s : HostState) : after (attempt work) s = after work s := by
  unfold after
  rw [attempt_run]
  cases work s <;> rfl

theorem after_tryFinally (work : Host α) (closing : HostState → HostState) (s : HostState) :
    after (tryFinally work (modify closing : Host PUnit)) s = closing (after work s) := by
  unfold after
  rw [tryFinally_run]
  cases work s <;> rfl

/-- The answer of some work, if it succeeds. -/
def answer? (work : Host α) (s : HostState) : Option α :=
  match work s with
  | .ok a _ => some a
  | .error _ _ => none

theorem answer?_eq_some {work : Host α} {a : α} {s : HostState} :
    answer? work s = some a ↔ work s = .ok a (after work s) := by
  unfold answer? after
  cases work s <;> simp

/-- Work after which the state is one that the state before is related to. -/
def Moves (R : HostState → HostState → Prop) (work : Host α) : Prop :=
  ∀ s, R s (after work s)

namespace Moves

open HostState (Guarded Passing Along Releasing)

theorem of_ok {work : Host α} (moves : Moves R work) {a : α} {s t : HostState}
    (done : work s = .ok a t) : R s t := by
  rw [← after_eq_of_ok done]
  exact moves s

theorem of_error {work : Host α} (moves : Moves R work) {e : Error} {s t : HostState}
    (done : work s = .error e t) : R s t := by
  rw [← after_eq_of_error done]
  exact moves s

variable [IsPreorder HostState R]

theorem pure (a : α) : Moves R (Pure.pure a) :=
  fun s => Std.Refl.refl s

theorem throw (e : Error) : Moves R (MonadExcept.throw e : Host α) :=
  fun s => Std.Refl.refl s

theorem after_bind {work : Host α} {next : α → Host β} (second : ∀ a, Moves R (next a))
    (s : HostState) : R (after work s) (after (work >>= next) s) := by
  cases done : work s with
  | ok a t =>
    rw [after_bind_of_ok done, after_eq_of_ok done]
    exact second a t
  | error e t =>
    rw [after_bind_of_error done, after_eq_of_error done]
    exact Std.Refl.refl t

theorem bind {work : Host α} {next : α → Host β} (first : Moves R work)
    (second : ∀ a, Moves R (next a)) : Moves R (work >>= next) :=
  fun s => IsTrans.trans _ _ _ (first s) (after_bind second s)

omit [IsPreorder HostState R] in
theorem get {next : HostState → Host α} (moves : ∀ s, Moves R (next s)) :
    Moves R (MonadState.get >>= next) :=
  fun s => moves s s

theorem ofResult (result : Except Error α) : Moves R (ofResult result) := by
  cases result with
  | ok a => exact pure a
  | error e => exact throw e

theorem tryCatch {work : Host α} {handler : Error → Host α} (moves : Moves R work)
    (handled : ∀ e, Moves R (handler e)) : Moves R (tryCatch work handler) := by
  intro s
  unfold after
  rw [tryCatch_run]
  cases done : work s with
  | ok a t => exact moves.of_ok done
  | error e t => exact IsTrans.trans _ _ _ (moves.of_error done) (handled e t)

omit [IsPreorder HostState R] in
theorem attempt {work : Host α} (moves : Moves R work) : Moves R (attempt work) := by
  intro s
  rw [after_attempt]
  exact moves s

theorem mapM {f : γ → Host α} (moves : ∀ c, Moves R (f c)) (cs : List γ) : Moves R (cs.mapM f) := by
  induction cs with
  | nil => exact pure []
  | cons c cs ih =>
    rw [List.mapM_cons]
    exact bind (moves c) fun a => bind ih fun as => pure (a :: as)

omit [IsPreorder HostState R] in
theorem inEngine {work : Engine → α × Engine}
    (moves : ∀ s : HostState, R s { s with engine := (work s.engine).2 }) : Moves R (inEngine work) :=
  moves

end Moves

/-! ## Work under guards -/

open HostState (Guarded Passing Along Releasing Still LosesNothing OnlyReturns OnlyAdds)

theorem vmOf_moves [IsPreorder HostState R] (object : HandleId) : Moves R (vmOf object) := by
  refine Moves.get fun s => ?_
  cases s.wrappers[object]? with
  | none => exact Moves.throw _
  | some w => exact Moves.pure w.vm

theorem checkOwner_moves [IsPreorder HostState R] (vm : VmId) (value : Value) :
    Moves R (checkOwner vm value) := by
  refine Moves.get fun s => ?_
  cases owner? s value with
  | none => exact Moves.pure ()
  | some o =>
    dsimp only
    split
    · exact Moves.pure ()
    · exact Moves.throw _

section

variable [Guarded R]

theorem withVm_moves {action : String} {vm : VmId} {work : MachineId → Host α}
    (moves : ∀ machine, Moves R (work machine)) : Moves R (withVm action vm work) := by
  intro s
  unfold after
  cases isOpen : s.machine? vm with
  | none =>
    rw [withVm_of_closed isOpen]
    exact Std.Refl.refl s
  | some machine =>
    rw [withVm_of_open isOpen]
    cases done : work machine (s.readVm vm) with
    | ok a t => exact Guarded.vm isOpen ((moves machine).of_ok done)
    | error e t => exact Guarded.vm isOpen ((moves machine).of_error done)

theorem withObject_moves {action : String} {object : HandleId}
    {work : VmId → MachineId → ReferenceId → Host α}
    (moves : ∀ vm machine ref, Moves R (work vm machine ref)) :
    Moves R (withObject action object work) := by
  refine (vmOf_moves object).bind fun vm => withVm_moves fun machine s => ?_
  unfold after
  rw [bind_run, enterObject_run]
  cases armed : s.reference? object with
  | none => exact Std.Refl.refl s
  | some ref =>
    dsimp only
    rw [leaveObject, tryFinally_run]
    cases done : work vm machine ref (s.readObject object) with
    | ok a t => exact Guarded.object armed ((moves vm machine ref).of_ok done)
    | error e t => exact Guarded.object armed ((moves vm machine ref).of_error done)

theorem newError_moves (message : Bytes) : Moves R (newError message) :=
  fun _ => Guarded.messages

theorem closeError_moves (error : ErrorId) : Moves R (closeError error) := by
  intro s
  simp only [after, closeError, bind_run, get_run]
  cases s.errors[error]? with
  | none => exact Std.Refl.refl s
  | some lock =>
    cases closed : lock.close .returns with
    | error e =>
      simp only [closed, ofResult_error, bind_run, throw_run]
      exact Std.Refl.refl s
    | ok released =>
      simp only [closed, ofResult_ok, bind_run, pure_run, set_run]
      cases released.destroyed <;> exact Guarded.messages (R := R)

end

section

variable [Along R]

theorem enterVm_moves (action : String) (vm : VmId) : Moves R (enterVm action vm) := by
  intro s
  unfold after
  rw [enterVm_run]
  cases s.machine? vm with
  | none => exact Along.still rfl rfl
  | some machine => exact Along.still rfl rfl

theorem enterObject_moves (object : HandleId) : Moves R (enterObject object) := by
  intro s
  unfold after
  rw [enterObject_run]
  cases s.reference? object with
  | none => exact Along.still rfl rfl
  | some ref =>
    refine Along.still rfl (map_modify_of_same (fun w => ?_) _ _)
    rfl

omit [Along R] in
theorem enterObject_eq_ok {object : HandleId} {ref : ReferenceId} {s t : HostState}
    (done : enterObject object s = .ok ref t) : s.pointers[object]? = some (some ref) := by
  rw [enterObject_run] at done
  cases armed : s.reference? object with
  | none =>
    rw [armed] at done
    cases done
  | some owned =>
    rw [armed] at done
    cases done
    obtain ⟨w, found, pointer⟩ := Option.bind_eq_some_iff.mp armed
    rw [HostState.pointers, List.getElem?_map, found, Option.map_some, pointer]

omit [Along R] in
/-- Work on an object, when it succeeds, had the engine as it was and what the wrapper owns. -/
theorem withObject_eq_ok {action : String} {object : HandleId}
    {work : VmId → MachineId → ReferenceId → Host α} {a : α} {s t : HostState}
    (done : withObject action object work s = .ok a t) :
    ∃ vm machine owned s' t', s.pointers[object]? = some (some owned) ∧ s'.engine = s.engine ∧
      work vm machine owned s' = .ok a t' ∧ t.engine = t'.engine := by
  obtain ⟨vm, s₁, found, done⟩ := bind_eq_ok.mp done
  obtain ⟨machine, s₂, entered, done⟩ := bind_eq_ok.mp done
  obtain ⟨t₁, done, left⟩ := tryFinally_eq_ok.mp done
  obtain ⟨owned, s₃, reached, done⟩ := bind_eq_ok.mp done
  obtain ⟨t₂, done, left'⟩ := tryFinally_eq_ok.mp done
  have first : Still s s₁ := (vmOf_moves object).of_ok found
  have second : Still s₁ s₂ := (enterVm_moves action vm).of_ok entered
  have third : Still s₂ s₃ := (enterObject_moves object).of_ok reached
  refine ⟨vm, machine, owned, s₃, t₂, ?_, third.1.trans (second.1.trans first.1), done, ?_⟩
  · rw [← first.2, ← second.2]
    exact enterObject_eq_ok reached
  · rw [← left, ← left']

/-- Takes a guard on the VM of an object and one on the object. -/
def enter (action : String) (object : HandleId) : Host (VmId × MachineId × ReferenceId) := do
  let vm ← vmOf object
  let machine ← enterVm action vm
  return (vm, machine, ← enterObject object)

theorem enter_moves (action : String) (object : HandleId) : Moves R (enter action object) :=
  (vmOf_moves object).bind fun vm => (enterVm_moves action vm).bind fun _ =>
    (enterObject_moves object).bind fun _ => Moves.pure _

omit [Along R] in
theorem enter_eq_ok_iff {action : String} {object : HandleId} {vm : VmId} {machine : MachineId}
    {ref : ReferenceId} {s t : HostState} : enter action object s = .ok (vm, machine, ref) t ↔
      s.vmOf? object = some vm ∧ s.machine? vm = some machine ∧ s.reference? object = some ref ∧
        (s.readVm vm).readObject object = t := by
  constructor
  · intro entered
    obtain ⟨_, _, found, entered⟩ := bind_eq_ok.mp entered
    obtain ⟨_, _, guarded, entered⟩ := bind_eq_ok.mp entered
    obtain ⟨_, _, reached, entered⟩ := bind_eq_ok.mp entered
    cases entered
    obtain ⟨isFor, rfl⟩ := vmOf_eq_ok_iff.mp found
    obtain ⟨isOpen, rfl⟩ := enterVm_eq_ok_iff.mp guarded
    obtain ⟨armed, rfl⟩ := enterObject_eq_ok_iff.mp reached
    exact ⟨isFor, isOpen, armed, rfl⟩
  · rintro ⟨isFor, isOpen, armed, rfl⟩
    refine bind_eq_ok.mpr ⟨vm, s, vmOf_eq_ok_iff.mpr ⟨isFor, rfl⟩, ?_⟩
    refine bind_eq_ok.mpr ⟨machine, s.readVm vm, enterVm_eq_ok_iff.mpr ⟨isOpen, rfl⟩, ?_⟩
    exact bind_eq_ok.mpr ⟨ref, _, enterObject_eq_ok_iff.mpr ⟨armed, rfl⟩, rfl⟩

omit [Along R] in
/-- Without the guards there is no work. -/
theorem engine_after_withObject_of_error {action : String} {object : HandleId}
    {work : VmId → MachineId → ReferenceId → Host α} {e : Error} {s t : HostState}
    (failed : enter action object s = .error e t) :
    (after (withObject action object work) s).engine = t.engine := by
  unfold withObject withVm
  rcases bind_eq_error.mp failed with missing | ⟨vm, s₁, found, failed⟩
  · rw [after_bind_of_error missing]
  rw [after_bind_of_ok found]
  rcases bind_eq_error.mp failed with closed | ⟨machine, s₂, guarded, failed⟩
  · rw [after_bind_of_error closed]
  rw [after_bind_of_ok guarded, leaveVm, after_tryFinally]
  rcases bind_eq_error.mp failed with closed | ⟨ref, s₃, -, failed⟩
  · rw [after_bind_of_error closed]
  · cases failed

omit [Along R] in
/-- To give the guards back is nothing to the engine. -/
theorem engine_after_withObject_of_ok {action : String} {object : HandleId}
    {work : VmId → MachineId → ReferenceId → Host α} {vm : VmId} {machine : MachineId}
    {ref : ReferenceId} {s t : HostState}
    (entered : enter action object s = .ok (vm, machine, ref) t) :
    (after (withObject action object work) s).engine = (after (work vm machine ref) t).engine := by
  obtain ⟨vm', s₁, found, entered⟩ := bind_eq_ok.mp entered
  obtain ⟨machine', s₂, guarded, entered⟩ := bind_eq_ok.mp entered
  obtain ⟨ref', s₃, reached, entered⟩ := bind_eq_ok.mp entered
  cases entered
  unfold withObject withVm
  rw [after_bind_of_ok found, after_bind_of_ok guarded, leaveVm, after_tryFinally, after_bind_of_ok reached,
    leaveObject, after_tryFinally]

end

/-! ## Closing -/

section

variable [Passing R]

theorem closeObject_moves (object : HandleId) : Moves R (closeObject object) := by
  intro s
  unfold after
  rw [closeObject_run]
  cases found : s.wrappers[object]? with
  | none => exact Std.Refl.refl s
  | some w =>
    dsimp only
    by_cases free : w.lock.readers = 0
    · rw [if_pos free]
      let closed : HostState := { s with wrappers := s.wrappers.set object { w with lock := w.lock.disarmed } }
      have unwrapped : R s closed := Passing.unwrapped found free
      cases w.lock.toDestroy with
      | none => exact unwrapped
      | some ref =>
        have returned : R closed { closed with engine := closed.engine.giveBack ref } := Passing.returned
        exact IsTrans.trans _ _ _ unwrapped returned
    · rw [if_neg free]
      exact Std.Refl.refl s

theorem close_moves (value : Value) : Moves R (close value) := by
  cases value with
  | object kind h => exact closeObject_moves h
  | error e => exact closeError_moves e
  | _ => exact Moves.pure ()

theorem closeAll_moves (values : List Value) : Moves R (closeAll values) :=
  (Moves.mapM (fun v => (close_moves v).attempt) values).bind fun _ => Moves.ofResult _

theorem release_moves (c : Crossing) : Moves R (release c) := by
  cases c with
  | object kind pointer =>
    cases pointer with
    | none => exact Moves.pure ()
    | some ref => exact fun s => Passing.returned
  | _ => exact Moves.pure ()

theorem wrap_moves (vm : VmId) (kind : ObjectKind) (ref : Option ReferenceId) :
    Moves R (wrap vm kind ref) := by
  cases ref with
  | none => exact Moves.pure none
  | some ref => exact fun _ => Passing.wrapped

theorem receive_moves (vm : VmId) (c : Crossing) : Moves R (receive vm c) := by
  cases c with
  | object kind pointer => exact (wrap_moves vm kind pointer).bind fun h => Moves.pure _
  | error message => exact newError_moves message
  | _ => exact Moves.pure _

theorem receiveAll_moves (vm : VmId) (list : RawList (Option ReferenceId)) :
    Moves R (receiveAll vm list) :=
  Moves.mapM (receive_moves vm) list

end

/-! ## Losing nothing -/

theorem inEngine_losesNothing {work : Engine → α × Engine} (same : ∀ e, (work e).2.leaked = e.leaked) :
    Moves LosesNothing (inEngine work) :=
  Moves.inEngine fun s => same s.engine

theorem cloneRef_cases (e : Engine) (ref : ReferenceId) :
    e.cloneRef ref = (none, (e.failing .cloneRef).2) ∨
      ∃ id, e.target? ref = some id ∧
        e.cloneRef ref = (some e.references.length, ((e.failing .cloneRef).2.refer id).2) := by
  rcases fault : e.failing .cloneRef with ⟨_ | mode, e'⟩
  · have same : e'.references = e.references := congrArg (Engine.references ·.2) fault.symm
    have target : e'.target? ref = e.target? ref := by rw [Engine.target?, same, Engine.target?]
    simp only [Engine.cloneRef, fault, target]
    cases found : e.target? ref with
    | none => exact .inl rfl
    | some id => exact .inr ⟨id, rfl, by simp only [Engine.refer, same]⟩
  · exact .inl (by simp only [Engine.cloneRef, fault])

section

variable [Guarded R]
  (cloned : ∀ (s : HostState) (ref : ReferenceId), R s { s with engine := (s.engine.cloneRef ref).2 })

include cloned

theorem secondReference_moves (kind : ObjectKind) (object : HandleId) :
    Moves R (secondReference kind object) := by
  refine Moves.bind ?_ fun ref => ?_
  · exact withObject_moves fun _ _ ref => Moves.inEngine fun s => cloned s ref
  · cases ref with
    | none => exact Moves.throw _
    | some ref => exact Moves.pure ref

theorem send_moves (vm : VmId) (value : Value) : Moves R (send vm value) := by
  refine (checkOwner_moves vm value).bind fun _ => ?_
  cases value with
  | object kind h => exact (secondReference_moves cloned kind h).bind fun ref => Moves.pure _
  | error e =>
    refine Moves.get fun s => ?_
    cases errorMessage? s e with
    | none => exact Moves.throw _
    | some message => exact Moves.pure _
  | _ => exact Moves.pure _

end

theorem sendAll_moves [Passing R]
    (cloned : ∀ (s : HostState) (ref : ReferenceId), R s { s with engine := (s.engine.cloneRef ref).2 })
    (vm : VmId) (values : List Value) : Moves R (sendAll vm values) := by
  induction values with
  | nil => exact Moves.pure []
  | cons v vs ih =>
    refine (send_moves cloned vm v).bind fun first => ?_
    refine (ih.tryCatch fun e => (release_moves first).bind fun _ => Moves.throw e).bind fun list => ?_
    exact Moves.pure (first :: list)

theorem cloneRef_losesNothing (s : HostState) (ref : ReferenceId) :
    LosesNothing s { s with engine := (s.engine.cloneRef ref).2 } := by
  rcases cloneRef_cases s.engine ref with same | ⟨id, -, made⟩
  · simp only [LosesNothing, same]
    rfl
  · simp only [LosesNothing, made]
    rfl

theorem sendAll_losesNothing (vm : VmId) (values : List Value) :
    Moves LosesNothing (sendAll vm values) :=
  sendAll_moves cloneRef_losesNothing vm values

theorem receiveAll_leaked (list : RawList (Option ReferenceId)) (e : Engine) :
    (e.receiveAll list).2.leaked = e.leaked := by
  induction list generalizing e with
  | nil => rfl
  | cons c list ih =>
    have first : (e.receive c).2.leaked = e.leaked := by
      cases c with
      | object kind pointer => cases pointer <;> rfl
      | _ => rfl
    exact (ih (e.receive c).2).trans first

theorem handAll_leaked (ds : List Datum) (e : Engine) : (e.handAll ds).2.leaked = e.leaked := by
  induction ds generalizing e with
  | nil => rfl
  | cons d ds ih =>
    have first : (e.hand d).2.leaked = e.leaked := by
      cases d <;> rfl
    exact (ih (e.hand d).2).trans first

theorem runChunk_losesNothing (code : HostCode) (args : RawList (Option ReferenceId)) (name : String)
    (source : Bytes) (level : UInt8) :
    Moves LosesNothing (runBody code args (.chunk name source level)) := by
  refine (inEngine_losesNothing (receiveAll_leaked args)).bind fun _ => ?_
  refine (inEngine_losesNothing fun _ => rfl).bind fun ds => ?_
  exact (inEngine_losesNothing (handAll_leaked ds)).bind fun list => Moves.pure _

/-! ## Adding only -/

theorem send_onlyAdds (vm : VmId) (value : Value) : Moves OnlyAdds (send vm value) := by
  refine send_moves (fun s ref => ?_) vm value
  rcases cloneRef_cases s.engine ref with same | ⟨id, -, made⟩
  · rw [same]
    exact ⟨Nat.le_refl _, fun _ _ => rfl, rfl⟩
  · rw [made]
    refine ⟨?_, fun other old => (s.engine.failing .cloneRef).2.target?_refer id old, rfl⟩
    simp [Engine.refer, Engine.failing]

end Host
end ScriptHost

/-
The balance of references between host and engine: what is out is owned by an armed wrapper, or held
loose. Work of the host says what it takes of the loose references and what it leaves loose, also when
it fails (`Host.Trades`), and work that is put together trades what its parts trade.
-/
import ScriptHost.Proofs.Engine.Balance
import ScriptHost.Proofs.Host.Armed

namespace ScriptHost

/-- The references that are out are those of the armed wrappers and the loose ones. Every wrapper has a
destructor. -/
structure HostState.Balanced (s : HostState) (calls : CallbackId → Prop) (loose : List ReferenceId) :
    Prop where
  engine : s.engine.Balanced calls (s.armed ++ loose)
  owned : ∀ w ∈ s.wrappers, w.lock.kind.owned = true

namespace HostState.Balanced

variable {calls : CallbackId → Prop} {s : HostState} {loose : List ReferenceId}

theorem empty (faults : List Fault) : ({ engine := { faults } } : HostState).Balanced calls [] :=
  ⟨Engine.Balanced.empty faults, nofun⟩

theorem perm {loose' : List ReferenceId} (h : s.Balanced calls loose) (same : loose.Perm loose') :
    s.Balanced calls loose' :=
  ⟨h.engine.perm (same.append_left _), h.owned⟩

/-- A wrapper in the place of another leaves loose what the other owned, and takes what it owns. -/
theorem set_wrapper {h : HandleId} {w : Wrapper} (balanced : s.Balanced calls loose)
    (found : s.wrappers[h]? = some w) (w' : Wrapper)
    (owned : w'.lock.kind.owned = w.lock.kind.owned) {loose' : List ReferenceId}
    (traded : (w.lock.pointer.toList ++ loose).Perm (w'.lock.pointer.toList ++ loose')) :
    ({ s with wrappers := s.wrappers.set h w' } : HostState).Balanced calls loose' := by
  refine ⟨balanced.engine.perm ?_, fun v mem => ?_⟩
  · have moved := perm_pointersOf_set found w'
    simp only [List.perm_iff_count, List.count_append, HostState.armed] at moved traded ⊢
    intro ref
    have there := moved ref
    have here := traded ref
    omega
  · rcases List.mem_or_eq_of_mem_set mem with old | rfl
    · exact balanced.owned v old
    · rw [owned]
      exact balanced.owned w (List.mem_of_getElem? found)

/-- A new wrapper takes the reference it owns. -/
theorem wrap {w : Wrapper} (owned : w.lock.kind.owned = true)
    (balanced : s.Balanced calls (w.lock.pointer.toList ++ loose)) :
    ({ s with wrappers := s.wrappers ++ [w] } : HostState).Balanced calls loose := by
  refine ⟨?_, fun v mem => ?_⟩
  · have last : pointersOf [w] = w.lock.pointer.toList := by
      exact (filterMap_cons_toList _ w []).trans (List.append_nil _)
    simp only [HostState.armed, pointersOf_append, last, List.append_assoc]
    exact balanced.engine
  · rcases List.mem_append.mp mem with old | new
    · exact balanced.owned v old
    · obtain rfl := List.mem_singleton.mp new
      exact owned

/-- What a disarmed wrapper owned is loose. -/
theorem disarm {object : HandleId} {w : Wrapper} (h : s.Balanced calls loose)
    (found : s.wrappers[object]? = some w) :
    ({ s with wrappers := s.wrappers.set object { w with lock := w.lock.disarmed } } :
      HostState).Balanced calls (w.lock.pointer.toList ++ loose) :=
  h.set_wrapper found { w with lock := w.lock.disarmed } rfl (.refl _)

/-- A read guard owns nothing. -/
theorem giveBack_wrapper (h : s.Balanced calls loose) (object : HandleId) :
    ({ s with wrappers := s.wrappers.modify object fun w =>
      { w with lock := w.lock.giveBack } } : HostState).Balanced calls loose := by
  cases found : s.wrappers[object]? with
  | none =>
    rw [List.modify_eq_self (List.getElem?_eq_none_iff.mp found)]
    exact h
  | some w =>
    have : Inhabited Wrapper := ⟨w⟩
    rw [List.modify_eq_set, found]
    exact h.set_wrapper found { w with lock := w.lock.giveBack } rfl (.refl _)

end HostState.Balanced

namespace Host

variable {α β : Type} {taken left : List ReferenceId} {given : α → List ReferenceId}

/-- The loose references of `taken` go in. Those of `given` come out, or those of `left` in case of a
failure, whatever else is loose. -/
def Trades (calls : CallbackId → Prop) (taken : List ReferenceId) (work : Host α)
    (given : α → List ReferenceId) (left : List ReferenceId) : Prop :=
  ∀ s rest, s.Balanced calls (taken ++ rest) →
    match work s with
    | .ok a s => s.Balanced calls (given a ++ rest)
    | .error _ s => s.Balanced calls (left ++ rest)

/-- Work that leaves no more and no less loose than there was, also when it fails. -/
def Conserves (calls : CallbackId → Prop) (work : Host α) : Prop :=
  Trades calls [] work (fun _ => []) []

variable {calls : CallbackId → Prop}

namespace Trades

/-! ## Putting work together -/

theorem pure {a : α} (same : taken = given a) : Trades calls taken (Pure.pure a) given left := by
  subst same
  exact fun _ _ h => h

theorem throw {e : Error} : Trades calls left (MonadExcept.throw e) given left :=
  fun _ _ h => h

theorem bind {work : Host α} {next : α → Host β} {given' : β → List ReferenceId}
    (first : Trades calls taken work given left) (second : ∀ a, Trades calls (given a) (next a) given' left) :
    Trades calls taken (work >>= next) given' left := by
  intro s rest h
  have traded := first s rest h
  rw [bind_run]
  cases done : work s with
  | ok a s' =>
    rw [done] at traded
    exact second a s' rest traded
  | error e s' =>
    rw [done] at traded
    exact traded

/-- What was loose besides stays loose. -/
theorem frame {work : Host α} (traded : Trades calls taken work given left) (others : List ReferenceId) :
    Trades calls (taken ++ others) work (given · ++ others) (left ++ others) := by
  intro s rest h
  rw [List.append_assoc] at h
  have traded := traded s (others ++ rest) h
  cases done : work s with
  | ok a s' =>
    rw [done] at traded
    simpa only [List.append_assoc] using traded
  | error e s' =>
    rw [done] at traded
    simpa only [List.append_assoc] using traded

theorem perm {work : Host α} {taken' left' : List ReferenceId} {given' : α → List ReferenceId}
    (traded : Trades calls taken work given left) (takes : taken'.Perm taken)
    (gives : ∀ a, (given a).Perm (given' a)) (leaves : left.Perm left') :
    Trades calls taken' work given' left' := by
  intro s rest h
  have traded := traded s rest (h.perm (takes.append_right rest))
  cases done : work s with
  | ok a s' =>
    rw [done] at traded
    exact traded.perm ((gives a).append_right rest)
  | error e s' =>
    rw [done] at traded
    exact traded.perm (leaves.append_right rest)

/-- Work that never fails leaves whatever one likes when it fails. -/
theorem of_succeeds {work : Host α} {left' : List ReferenceId}
    (traded : Trades calls taken work given left) (succeeds : ∀ s, ∃ a s', work s = .ok a s') :
    Trades calls taken work given left' := by
  intro s rest h
  obtain ⟨a, s', done⟩ := succeeds s
  have traded := traded s rest h
  rw [done] at traded ⊢
  exact traded

theorem tryCatch {work : Host α} {handler : Error → Host α} {left' : List ReferenceId}
    (traded : Trades calls taken work given left) (handled : ∀ e, Trades calls left (handler e) given left') :
    Trades calls taken (tryCatch work handler) given left' := by
  intro s rest h
  have traded := traded s rest h
  rw [tryCatch_run]
  cases done : work s with
  | ok a s' =>
    rw [done] at traded
    exact traded
  | error e s' =>
    rw [done] at traded
    exact handled e s' rest traded

/-- To look at a balanced state changes nothing. -/
theorem get {next : HostState → Host α}
    (traded : ∀ s loose, s.Balanced calls loose → Trades calls taken (next s) given left) :
    Trades calls taken (MonadState.get >>= next) given left :=
  fun s rest h => traded s _ h s rest h

theorem inEngine {work : Engine → α × Engine} (traded : Engine.Trades calls taken work given) :
    Trades calls taken (inEngine work) given left := by
  intro s rest h
  refine ⟨?_, h.owned⟩
  have shuffle := List.perm_append_comm_assoc s.armed taken rest
  have moved := traded s.engine (s.armed ++ rest) (h.engine.perm shuffle)
  exact moved.perm (List.perm_append_comm_assoc _ _ _)

theorem tryInEngine {ε : Type} {failure : ε → Error} {work : Engine → Except ε α × Engine}
    (traded : Engine.Trades calls taken work (orLeft left given)) :
    Trades calls taken (tryInEngine failure work) given left := by
  refine bind (inEngine traded) fun result => ?_
  cases result with
  | ok a => exact pure rfl
  | error e => exact throw

theorem ofResult {result : Except Error α} :
    Trades calls (orLeft left given result) (ofResult result) given left := by
  cases result with
  | ok a => exact pure rfl
  | error e => exact throw

theorem attempt {work : Host α} {left' : List ReferenceId} (traded : Trades calls taken work given left) :
    Trades calls taken (attempt work) ((orLeft left given)) left' := by
  intro s rest h
  have traded := traded s rest h
  rw [attempt_run]
  cases done : work s with
  | ok a s' =>
    rw [done] at traded
    exact traded
  | error e s' =>
    rw [done] at traded
    exact traded

end Trades

namespace Conserves

theorem pure (a : α) : Conserves calls (Pure.pure a) :=
  Trades.pure rfl

theorem throw (e : Error) : Conserves calls (MonadExcept.throw e : Host α) :=
  Trades.throw

theorem bind {work : Host α} {next : α → Host β} (first : Conserves calls work)
    (second : ∀ a, Conserves calls (next a)) : Conserves calls (work >>= next) :=
  Trades.bind first second

/-- What was loose before stays loose. -/
theorem frame {work : Host α} (conserved : Conserves calls work) (loose : List ReferenceId) :
    Trades calls loose work (fun _ => loose) loose :=
  Trades.frame conserved loose

theorem get {next : HostState → Host α} (conserved : ∀ s, Conserves calls (next s)) :
    Conserves calls (MonadState.get >>= next) :=
  Trades.get fun s _ _ => conserved s

theorem ofResult (result : Except Error α) : Conserves calls (ofResult result) := by
  cases result with
  | ok a => exact pure a
  | error e => exact throw e

theorem attempt {work : Host α} (conserved : Conserves calls work) : Conserves calls (attempt work) := by
  refine (Trades.attempt conserved).perm (.refl _) (fun result => ?_) (.refl _)
  cases result <;> exact .refl _

theorem ignoringFailure {work : Host Unit} (conserved : Conserves calls work) :
    Conserves calls (ignoringFailure work) :=
  bind conserved.attempt fun _ => pure ()

theorem mapM {γ : Type} {f : γ → Host α} (conserved : ∀ c, Conserves calls (f c)) (cs : List γ) :
    Conserves calls (cs.mapM f) := by
  induction cs with
  | nil => exact pure []
  | cons c cs ih =>
    rw [List.mapM_cons]
    exact bind (conserved c) fun a => bind ih fun as => pure (a :: as)

/-- What touches neither wrappers nor engine changes nothing. -/
theorem of_frame {work : Host α}
    (framed : ∀ s, match work s with
      | .ok _ s' | .error _ s' => s'.engine = s.engine ∧ s'.wrappers = s.wrappers) :
    Conserves calls work := by
  have kept : ∀ {s s' : HostState} {loose}, s'.engine = s.engine ∧ s'.wrappers = s.wrappers →
      s.Balanced calls loose → s'.Balanced calls loose := by
    rintro s s' loose ⟨engine, wrappers⟩ h
    refine ⟨?_, ?_⟩
    · rw [engine, HostState.armed, wrappers]
      exact h.engine
    · rw [wrappers]
      exact h.owned
  intro s rest h
  have framed := framed s
  cases done : work s with
  | ok a s' =>
    rw [done] at framed
    exact kept framed h
  | error e s' =>
    rw [done] at framed
    exact kept framed h

end Conserves

/-! ## Work under guards -/

theorem enterVm_conserves (action : String) (vm : VmId) : Conserves calls (enterVm action vm) := by
  refine Conserves.of_frame fun s => ?_
  simp only [enterVm, bind_run, get_run]
  cases s.vms[vm]? with
  | none => exact ⟨rfl, rfl⟩
  | some v =>
    cases acquired : v.lock.acquire with
    | error e => simp only [acquired, throw_run, and_self]
    | ok entered => simp only [acquired, bind_run, set_run, pure_run, and_self]

theorem vmOf_conserves (object : HandleId) : Conserves calls (vmOf object) := by
  refine Conserves.get fun s => ?_
  cases s.wrappers[object]? with
  | none => exact Conserves.throw _
  | some w => exact Conserves.pure w.vm

theorem enterObject_conserves (object : HandleId) : Conserves calls (enterObject object) := by
  intro s rest h
  simp only [enterObject, bind_run, get_run]
  cases found : s.wrappers[object]? with
  | none => exact h
  | some w =>
    cases pointer : w.lock.pointer with
    | none =>
      simp only [Handle.acquire, pointer, ofResult_error, bind_run, throw_run]
      exact h
    | some ref =>
      simp only [Handle.acquire, pointer, ofResult_ok, bind_run, pure_run, set_run]
      rw [← pointer]
      exact h.set_wrapper found
        { w with lock := { w.lock with readers := w.lock.readers + 1 } } rfl (.refl _)

namespace Trades

theorem tryFinally {work : Host α} {closing : HostState → HostState}
    (traded : Trades calls taken work given left)
    (kept : ∀ {s : HostState} {loose}, s.Balanced calls loose → (closing s).Balanced calls loose) :
    Trades calls taken (tryFinally work (modify closing : Host PUnit)) given left := by
  intro s rest h
  have traded := traded s rest h
  rw [tryFinally_run]
  cases done : work s with
  | ok a s' =>
    rw [done] at traded
    exact kept traded
  | error e s' =>
    rw [done] at traded
    exact kept traded

theorem withVm {action : String} {vm : VmId} {work : MachineId → Host α}
    (traded : ∀ machine, Trades calls taken (work machine) given taken) :
    Trades calls taken (withVm action vm work) given taken := by
  refine bind ((enterVm_conserves action vm).frame taken) fun machine => tryFinally (traded machine) fun h => ?_
  exact ⟨h.engine, h.owned⟩

theorem withObject {action : String} {object : HandleId}
    {work : VmId → MachineId → ReferenceId → Host α}
    (traded : ∀ vm machine ref, Trades calls taken (work vm machine ref) given taken) :
    Trades calls taken (withObject action object work) given taken := by
  refine bind ((vmOf_conserves object).frame taken) fun vm => withVm fun machine => ?_
  refine bind ((enterObject_conserves object).frame taken) fun ref => ?_
  exact tryFinally (traded vm machine ref) fun h => h.giveBack_wrapper object

end Trades

/-! ## Wrappers -/

theorem wrap_trades (vm : VmId) (kind : ObjectKind) (ref : Option ReferenceId)
    (left : List ReferenceId) : Trades calls ref.toList (wrap vm kind ref) (fun _ => []) left := by
  intro s rest h
  cases ref with
  | none => exact h
  | some ref => exact h.wrap rfl

theorem wrapOrFail_trades (vm : VmId) (kind : ObjectKind) (what : String)
    (ref : Option ReferenceId) :
    Trades calls ref.toList (wrapOrFail vm kind what ref) (fun _ => []) [] := by
  refine (wrap_trades vm kind ref []).bind fun wrapped => ?_
  cases wrapped with
  | none => exact Trades.throw
  | some h => exact Trades.pure rfl

theorem newError_conserves (message : Bytes) : Conserves calls (newError message) :=
  Conserves.of_frame fun _ => ⟨rfl, rfl⟩

theorem closeObject_conserves (object : HandleId) : Conserves calls (closeObject object) := by
  intro s rest h
  rw [closeObject_run]
  cases found : s.wrappers[object]? with
  | none => exact h
  | some w =>
    dsimp only
    have owned := h.owned w (List.mem_of_getElem? found)
    have disarmed := h.disarm found
    by_cases free : w.lock.readers = 0
    · rw [if_pos free, Handle.toDestroy, if_pos owned]
      cases pointer : w.lock.pointer with
      | none =>
        rw [pointer] at disarmed
        exact disarmed
      | some ref =>
        rw [pointer] at disarmed
        have returned : Trades calls [ref] (inEngine fun e => ((), e.giveBack ref)) (fun _ => []) [] :=
          Trades.inEngine (Engine.giveBack_trades ref)
        exact returned _ rest disarmed
    · rw [if_neg free]
      exact h

theorem closeError_conserves (error : ErrorId) : Conserves calls (closeError error) := by
  refine Conserves.of_frame fun s => ?_
  simp only [closeError, bind_run, get_run]
  cases s.errors[error]? with
  | none => exact ⟨rfl, rfl⟩
  | some lock =>
    cases closed : lock.close .returns with
    | error e => simp only [closed, ofResult_error, bind_run, throw_run, and_self]
    | ok released =>
      simp only [closed, ofResult_ok, bind_run, pure_run, set_run]
      cases released.destroyed <;> exact ⟨rfl, rfl⟩

theorem close_conserves (value : Value) : Conserves calls (close value) := by
  cases value with
  | object kind h => exact closeObject_conserves h
  | error e => exact closeError_conserves e
  | _ => exact Conserves.pure ()

theorem closeAll_conserves (values : List Value) : Conserves calls (closeAll values) :=
  (Conserves.mapM (fun v => (close_conserves v).attempt) values).bind fun _ => Conserves.ofResult _

theorem disarm_trades (object : HandleId) : Trades calls [] (disarm object) (fun ref => [ref]) [] := by
  intro s rest h
  cases done : disarm object s with
  | ok ref s' =>
    obtain ⟨w, found, pointer, rfl⟩ := disarm_eq_ok done
    have disarmed := h.disarm found
    rw [pointer] at disarmed
    exact disarmed
  | error e s' =>
    obtain rfl := disarm_eq_error done
    exact h

end Host
end ScriptHost

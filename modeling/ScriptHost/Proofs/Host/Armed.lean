/-
The references that wrappers own. An armed wrapper owns one; to take it out of a wrapper and to put it
into another leaves the same references owned.
-/
import ScriptHost.Host.Object
import ScriptHost.Proofs.Host.Running

namespace ScriptHost

/-- The references that some wrappers own, in the order of the wrappers. -/
def pointersOf (wrappers : List Wrapper) : List ReferenceId :=
  wrappers.filterMap (·.lock.pointer)

/-- The references that the wrappers of the host own. -/
def HostState.armed (s : HostState) : List ReferenceId :=
  pointersOf s.wrappers

/-- What every wrapper owns, in the order of the wrappers. -/
def HostState.pointers (s : HostState) : List (Option ReferenceId) :=
  s.wrappers.map (·.lock.pointer)

@[simp] theorem pointersOf_append (before after : List Wrapper) :
    pointersOf (before ++ after) = pointersOf before ++ pointersOf after :=
  List.filterMap_append

/-! ## What the members of a list own -/

section

variable {α β : Type} {f : α → Option β}

theorem filterMap_cons_toList (f : α → Option β) (a : α) (l : List α) :
    (a :: l).filterMap f = (f a).toList ++ l.filterMap f := by
  rw [List.filterMap_cons]
  cases f a <;> rfl

/-- A member in the place of another owns what it owns instead. -/
theorem perm_filterMap_set {l : List α} {i : Nat} {a : α} (found : l[i]? = some a) (a' : α) :
    ((f a).toList ++ (l.set i a').filterMap f).Perm
      ((f a').toList ++ l.filterMap f) := by
  induction l generalizing i with
  | nil => simp at found
  | cons b l ih =>
    cases i with
    | zero =>
      obtain rfl : b = a := by simpa using found
      simp only [List.set_cons_zero, filterMap_cons_toList]
      exact List.perm_append_comm_assoc _ _ _
    | succ i =>
      have step := ih (i := i) (by simpa using found)
      simp only [List.set_cons_succ, filterMap_cons_toList]
      have first := List.perm_append_comm_assoc (f a).toList (f b).toList
        ((l.set i a').filterMap f)
      have last := List.perm_append_comm_assoc (f b).toList (f a').toList (l.filterMap f)
      exact (first.trans (step.append_left _)).trans last

/-- A member that changes owns the same. -/
theorem map_modify_of_same {γ : Type} {view : α → γ} {change : α → α}
    (same : ∀ a, view (change a) = view a) (l : List α) (i : Nat) :
    (l.modify i change).map view = l.map view := by
  induction l generalizing i with
  | nil => simp
  | cons a l ih =>
    cases i with
    | zero => exact congrArg (· :: l.map view) (same a)
    | succ i => exact congrArg (view a :: ·) (ih i)

end

/-- A wrapper in the place of another owns what it owns instead. -/
theorem perm_pointersOf_set {wrappers : List Wrapper} {h : HandleId} {w : Wrapper}
    (found : wrappers[h]? = some w) (w' : Wrapper) :
    (w.lock.pointer.toList ++ pointersOf (wrappers.set h w')).Perm
      (w'.lock.pointer.toList ++ pointersOf wrappers) :=
  perm_filterMap_set (f := fun w : Wrapper => w.lock.pointer) found w'

namespace HostState

variable {s t : HostState}

theorem armed_eq (s : HostState) : s.armed = s.pointers.filterMap id := by
  rw [pointers, List.filterMap_map]
  rfl

theorem mem_armed {ref : ReferenceId} : ref ∈ s.armed ↔ ∃ h : HandleId, s.pointers[h]? = some (some ref) := by
  rw [armed_eq, List.mem_filterMap]
  simp only [id_eq, exists_eq_right]
  exact List.mem_iff_getElem?

end HostState

namespace Host

theorem disarm_run (h : HandleId) (s : HostState) :
    disarm h s = match s.wrappers[h]? with
      | none => .error .disarmClosed s
      | some w => match w.lock.disarm with
        | .error e => .error e s
        | .ok (ref, lock) => .ok ref { s with wrappers := s.wrappers.set h { w with lock } } := by
  simp only [disarm, bind_run, get_run]
  cases s.wrappers[h]? with
  | none => rfl
  | some w =>
    cases given : w.lock.disarm with
    | error e => simp only [given, ofResult_error, bind_run, throw_run]
    | ok taken => simp only [given, ofResult_ok, bind_run, pure_run, set_run]

theorem closeObject_run (h : HandleId) (s : HostState) :
    closeObject h s = match s.wrappers[h]? with
      | none => .ok () s
      | some w =>
        if w.lock.readers = 0 then .ok () { s with
          wrappers := s.wrappers.set h { w with lock := w.lock.disarmed }
          engine := w.lock.toDestroy.toList.foldl Engine.giveBack s.engine }
        else .error (.recursiveLock "close") s := by
  simp only [closeObject, bind_run, get_run]
  cases s.wrappers[h]? with
  | none => rfl
  | some w =>
    by_cases free : w.lock.readers = 0
    · cases destroyed : w.lock.toDestroy with
      | none => simp [Handle.close, free, destroyed, bind_run]
      | some ref => simp [Handle.close, free, destroyed, bind_run]
    · simp [Handle.close, free, bind_run]

theorem closeError_run (e : ErrorId) (s : HostState) :
    closeError e s = match s.errors[e]? with
      | none => .ok () s
      | some l =>
        if l.readers = 0 then .ok () { s with
          errors := s.errors.set e l.disarmed
          freed := s.freed ++ (l.toDestroy.map fun _ => e).toList }
        else .error (.recursiveLock "close") s := by
  simp only [closeError, bind_run, get_run]
  cases s.errors[e]? with
  | none => rfl
  | some l =>
    by_cases free : l.readers = 0
    · cases destroyed : l.toDestroy with
      | none => simp [Handle.close, free, destroyed, bind_run]
      | some message => simp [Handle.close, free, destroyed, bind_run, HostState.freeMessage]
    · simp [Handle.close, free, bind_run]

/-- A wrapper that does not give its reference away stays as it is. -/
theorem disarm_eq_error {h : HandleId} {s s' : HostState} {e : Error}
    (failed : disarm h s = .error e s') : s' = s := by
  rw [disarm_run] at failed
  split at failed
  · cases failed
    rfl
  · split at failed <;> cases failed
    rfl

/-- A wrapper that gives its reference away stays behind without it. -/
theorem disarm_eq_ok {h : HandleId} {s s' : HostState} {ref : ReferenceId}
    (given : disarm h s = .ok ref s') :
    ∃ w, s.wrappers[h]? = some w ∧ w.lock.pointer = some ref ∧
      s' = { s with wrappers := s.wrappers.set h { w with lock := w.lock.disarmed } } := by
  rw [disarm_run] at given
  split at given
  · cases given
  · next w found =>
    refine ⟨w, found, ?_⟩
    unfold Handle.disarm at given
    by_cases free : w.lock.readers = 0
    · cases pointer : w.lock.pointer with
      | none => simp [free, pointer] at given
      | some ref' =>
        simp only [free, pointer, ne_eq, not_true_eq_false, if_false] at given
        cases given
        exact ⟨rfl, rfl⟩
    · simp [free] at given

end Host
end ScriptHost

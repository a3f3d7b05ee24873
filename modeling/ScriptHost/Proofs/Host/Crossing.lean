/-
What the engine makes of values that cross. It takes a value over as what it stands for, and gives the
reference back that came with it (`Engine.receive_of_datum`); it hands a value out as what stands for it
(`Engine.handAll_data`). Neither is anything to objects, or to references that there were (`Engine.Beside`).
Work on an object that is behind an open wrapper leaves the guards as they were
(`HostState.Behind.exists_guarded`), also where it ends with new wrappers (`HostState.unreadObject_wrapNew`).
-/
import ScriptHost.Proofs.Host.Meaning

namespace ScriptHost

namespace Engine

variable {e₀ e : Engine}

theorem deref?_of_target {ref : ReferenceId} {id : ObjectId} (target : e.target? ref = some id) :
    e.deref? ref = e.object? id := by
  rw [deref?, target, Option.bind_some]

/-! ## References come and go -/

/-- Nothing is other than it was but for new references, of which some may have been given back. -/
structure Beside (e e' : Engine) : Prop where
  objects : e'.objects = e.objects
  machines : e'.machines = e.machines
  faults : e'.faults = e.faults
  length_le : e.references.length ≤ e'.references.length
  targets : ∀ {ref id}, e.target? ref = some id → e'.target? ref = some id

theorem keyOf_congr {e' : Engine} (objects : e'.objects = e.objects) : e'.keyOf = e.keyOf := by
  funext d
  simp only [keyOf, object?, objects]

namespace Beside

theorem refl (e : Engine) : e.Beside e :=
  ⟨rfl, rfl, rfl, Nat.le_refl _, id⟩

theorem trans {e' : Engine} (first : e₀.Beside e) (second : e.Beside e') : e₀.Beside e' where
  objects := second.objects.trans first.objects
  machines := second.machines.trans first.machines
  faults := second.faults.trans first.faults
  length_le := Nat.le_trans first.length_le second.length_le
  targets leads := second.targets (first.targets leads)

theorem object? {e' : Engine} (beside : e.Beside e') (id : ObjectId) : e'.object? id = e.object? id := by
  rw [Engine.object?, beside.objects, Engine.object?]

theorem refer (e : Engine) (id : ObjectId) : e.Beside (e.refer id).2 where
  objects := rfl
  machines := rfl
  faults := rfl
  length_le := by simp [Engine.refer]
  targets leads := (target?_refer e id (lt_of_target? leads)).trans leads

/-- A reference that is new is given back. -/
theorem giveBack (beside : e₀.Beside e) {ref : ReferenceId} (new : e₀.references.length ≤ ref) :
    e₀.Beside (e.giveBack ref) where
  objects := beside.objects
  machines := beside.machines
  faults := beside.faults
  length_le := Nat.le_trans beside.length_le (Nat.le_of_eq List.length_set.symm)
  targets {ref' id} leads := by
    have other : ref ≠ ref' := fun same => absurd (lt_of_target? leads) (Nat.not_lt.mpr (same ▸ new))
    rw [Engine.giveBack, target?, List.getElem?_set_ne other]
    exact beside.targets leads

end Beside

/-! ## Taking over -/

/-- What a value stands for, and the references that came with it given back. -/
theorem receive_of_datum {c : Crossing} {d : Datum} (stands : e.datum? c = some d) :
    e.receive c = (d, c.carried.foldl Engine.giveBack e) := by
  cases c with
  | object kind pointer =>
    obtain ⟨id, leads, rfl⟩ := Option.map_eq_some_iff.mp stands
    obtain ⟨ref, rfl, target⟩ := Option.bind_eq_some_iff.mp leads
    simp [receive, target, RawValue.carried]
  | _ =>
    obtain rfl := Option.some.inj stands
    rfl

theorem target?_foldl_giveBack {refs : List ReferenceId} {ref : ReferenceId} (other : ref ∉ refs) :
    (refs.foldl Engine.giveBack e).target? ref = e.target? ref := by
  induction refs generalizing e with
  | nil => rfl
  | cons first rest ih =>
    rw [List.mem_cons, not_or] at other
    rw [List.foldl_cons, ih other.2, Engine.giveBack, target?, List.getElem?_set_ne (Ne.symm other.1), target?]

theorem Beside.foldl_giveBack (beside : e₀.Beside e) {refs : List ReferenceId}
    (new : ∀ ref ∈ refs, e₀.references.length ≤ ref) : e₀.Beside (refs.foldl Engine.giveBack e) := by
  induction refs generalizing e with
  | nil => exact beside
  | cons first rest ih =>
    exact ih (beside.giveBack (new first List.mem_cons_self)) fun ref mem =>
      new ref (List.mem_cons_of_mem _ mem)

/-! ## Handing out -/

/-- A value is handed out as one that stands for it, an object with a reference of its own. -/
theorem hand_datum (e : Engine) (d : Datum) :
    (e.hand d).2.datum? (e.hand d).1 = some d ∧ e.Beside (e.hand d).2 ∧
      ∀ ref ∈ (e.hand d).1.carried, e.references.length ≤ ref := by
  cases d with
  | object kind id =>
    refine ⟨?_, .refer e id, by simp [hand, refer, RawValue.carried]⟩
    simp [hand, datum?, refer, target?]
  | _ => exact ⟨rfl, .refl e, fun ref mem => absurd mem List.not_mem_nil⟩

theorem handAll_data (e : Engine) (ds : List Datum) :
    List.Forall₂ (fun c d => (e.handAll ds).2.datum? c = some d) (e.handAll ds).1 ds ∧
      e.Beside (e.handAll ds).2 ∧
      ∀ ref ∈ RawList.carried (e.handAll ds).1, e.references.length ≤ ref := by
  induction ds generalizing e with
  | nil => exact ⟨.nil, .refl e, fun ref mem => absurd mem List.not_mem_nil⟩
  | cons d ds ih =>
    obtain ⟨stands, beside, new⟩ := e.hand_datum d
    obtain ⟨stand, beside', new'⟩ := ih (e.hand d).2
    refine ⟨.cons (datum?_eq_of_targets stands fun ref _ id => beside'.targets) stand, beside.trans beside', ?_⟩
    intro ref mem
    rcases List.mem_append.mp mem with first | rest
    · exact new ref first
    · exact Nat.le_trans beside.length_le (new' ref rest)

end Engine

/-! ## Work under guards -/

theorem modify_append_of_lt {α : Type} {l : List α} {i : Nat} (lt : i < l.length) (l' : List α) (f : α → α) :
    (l ++ l').modify i f = l.modify i f ++ l' := by
  have there := List.getElem?_eq_getElem lt
  rw [modify_of_getElem? there, modify_of_getElem? ((List.getElem?_append_left lt).trans there),
    List.set_append_left _ _ lt]

namespace HostState

/-- A guard that was taken before new wrappers were made and given back after. -/
theorem unreadObject_wrapNew {s : HostState} {object : HandleId} (known : object < s.wrappers.length)
    (engine : Engine) (wrappers : List Wrapper) (errors : List (Handle Bytes)) :
    ({ s.readObject object with engine }.wrapNew wrappers errors).unreadObject object =
      { s with engine }.wrapNew wrappers errors := by
  have back := congrArg HostState.wrappers (s.unreadObject_readObject object engine)
  simp only [readObject, unreadObject, wrapNew] at back ⊢
  rw [modify_append_of_lt (by simpa using known), back]

theorem unreadVm_wrapNew (s : HostState) (vm : VmId) (engine : Engine) (wrappers : List Wrapper)
    (errors : List (Handle Bytes)) :
    ({ s.readVm vm with engine }.wrapNew wrappers errors).unreadVm vm =
      { s with engine }.wrapNew wrappers errors :=
  congrArg (·.wrapNew wrappers errors) (s.unreadVm_readVm vm engine)

theorem unread_read (s : HostState) (vm : VmId) (object : HandleId) (engine : Engine) :
    (({ (s.readVm vm).readObject object with engine } : HostState).unreadObject object).unreadVm vm =
      { s with engine } := by
  rw [unreadObject_readObject, unreadVm_readVm]

/-- An object behind an open wrapper of an open VM. -/
structure Behind (s : HostState) (vm : VmId) (object : HandleId) (id : ObjectId) : Prop where
  isFor : s.vmOf? object = some vm
  isOpen : s.machine? vm ≠ none
  leads : (s.reference? object).bind s.engine.target? = some id

/-- Work on such an object is done with a reference to it, and leaves the guards as they were. -/
theorem Behind.exists_guarded {s : HostState} {vm : VmId} {object : HandleId} {id : ObjectId}
    (behind : s.Behind vm object id) :
    ∃ machine ref, s.engine.target? ref = some id ∧ object < s.wrappers.length ∧
      ∀ {α : Type} (action : String) (work : VmId → MachineId → ReferenceId → Host α),
        Host.withObject action object work s = match work vm machine ref ((s.readVm vm).readObject object) with
          | .ok a t => .ok a ((t.unreadObject object).unreadVm vm)
          | .error e t => .error e ((t.unreadObject object).unreadVm vm) := by
  obtain ⟨machine, opened⟩ := Option.ne_none_iff_exists'.mp behind.isOpen
  obtain ⟨ref, armed, target⟩ := Option.bind_eq_some_iff.mp behind.leads
  obtain ⟨w, found, -⟩ := Option.bind_eq_some_iff.mp armed
  exact ⟨machine, ref, target, (List.getElem?_eq_some_iff.mp found).1,
    fun action work => Host.withObject_of_open behind.isFor opened armed work⟩

end HostState

/-! ## What is made -/

theorem Engine.object?_setObject {e : Engine} {id : ObjectId} {o : Object} (there : e.object? id = some o)
    (o' : Object) : (e.setObject id o').object? id = some o' := by
  obtain ⟨bound, -⟩ := List.getElem?_eq_some_iff.mp (Option.join_eq_some_iff.mp there)
  rw [object?, setObject, List.getElem?_set_self bound, Option.join_some]

/-- What an engine without failures to come makes for an open VM is behind a new wrapper. -/
theorem Host.create_run {s : HostState} {vm : VmId} (isOpen : s.machine? vm ≠ none)
    (faultless : s.engine.faults = []) (action what : String) (f : EngineFunction) (kind : ObjectKind) (o : Object) :
    ∃ t, (withVm action vm (fun _ => inEngine (·.unlessFailing f (·.create o))) >>= wrapOrFail vm kind what) s =
        .ok (.object kind s.wrappers.length) t ∧
      t.Behind vm s.wrappers.length s.engine.objects.length ∧
      t.engine.object? s.engine.objects.length = some o ∧ t.engine.faults = [] := by
  obtain ⟨machine, opened⟩ := Option.ne_none_iff_exists'.mp isOpen
  have made : s.engine.unlessFailing f (·.create o) =
      (some s.engine.references.length, (s.engine.create o).2) := by
    simp only [Engine.unlessFailing, failing_of_faultless faultless]
    rfl
  let t : HostState := { s with engine := (s.engine.create o).2 }
  refine ⟨t.wrapNew [⟨vm, .arm s.engine.references.length (.ofObject kind)⟩] [], ?_, ⟨?_, isOpen, ?_⟩, ?_, faultless⟩
  · rw [bind_run, withVm_inEngine_run opened, made]
    simp only [HostState.wrapNew, List.append_nil]
    rfl
  · simp [t, HostState.vmOf?, HostState.wrapNew]
  · simp [t, HostState.reference?, HostState.wrapNew, Handle.arm, Engine.create, Engine.refer, Engine.allocate,
      Engine.target?]
  · simp [t, HostState.wrapNew, Engine.create, Engine.refer, Engine.allocate, Engine.object?]

end ScriptHost

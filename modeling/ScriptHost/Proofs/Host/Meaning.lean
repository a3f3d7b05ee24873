/-
What values stand for to the engine (`HostState.datum?`, `Engine.datum?`). A value that is sent crosses as
what it stands for (`Host.sendAll_of_data`), and a value that is received stands for what crossed
(`Host.receiveAll_of_data`). Closing what was received is nothing to other values (`Host.closeAll_of_fresh`).
-/
import ScriptHost.Proofs.Host.Moves
import Mathlib.Data.List.Forall2

namespace ScriptHost

/-- What stands in a list after a change in one place is new, or stood there before. -/
theorem eq_or_of_getElem?_set {α : Type} {l : List α} {i j : Nat} {a b : α}
    (there : (l.set i a)[j]? = some b) : b = a ∨ l[j]? = some b := by
  rw [List.getElem?_set] at there
  split at there
  · split at there
    · exact .inl (Option.some.inj there).symm
    · cases there
  · exact .inr there

/-! ## What is meant -/

/-- What a crossing value stands for, nothing if it is an object without a live reference. -/
def Engine.datum? (e : Engine) : Crossing → Option Datum
  | .nil => some .nil
  | .boolean b => some (.boolean b)
  | .lightUserdata a => some (.lightUserdata a)
  | .integer n => some (.integer n)
  | .number bits => some (.number bits)
  | .vector x y z => some (.vector x y z)
  | .object kind pointer => (pointer.bind e.target?).map (.object kind)
  | .error m => some (.error m)
  | .other => some .other

namespace HostState

open Host

variable {s : HostState}

/-- What a value of the host stands for, nothing if it is closed. -/
def datum? (s : HostState) : Value → Option Datum
  | .nil => some .nil
  | .boolean b => some (.boolean b)
  | .lightUserdata a => some (.lightUserdata a)
  | .integer n => some (.integer n)
  | .number bits => some (.number bits)
  | .vector x y z => some (.vector x y z)
  | .object kind h => ((s.reference? h).bind s.engine.target?).map (.object kind)
  | .error e => (errorMessage? s e).map .error
  | .other => some .other

/-- New references to objects, in order. -/
def refer (s : HostState) (ids : List ObjectId) : HostState :=
  { s with engine := { s.engine with references := s.engine.references ++ ids.map some } }

/-- New wrappers and errors, in order. -/
def wrapNew (s : HostState) (wrappers : List Wrapper) (errors : List (Handle Bytes)) : HostState :=
  { s with wrappers := s.wrappers ++ wrappers, errors := s.errors ++ errors }

@[simp] theorem refer_nil (s : HostState) : s.refer [] = s := by
  simp [refer]

theorem refer_refer (s : HostState) (ids ids' : List ObjectId) :
    (s.refer ids).refer ids' = s.refer (ids ++ ids') := by
  simp [refer]

theorem target?_refer {ref : ReferenceId} {id : ObjectId} (leads : s.engine.target? ref = some id)
    (ids : List ObjectId) : (s.refer ids).engine.target? ref = some id := by
  have there := Option.join_eq_some_iff.mp leads
  have bound := (List.getElem?_eq_some_iff.mp there).1
  exact Option.join_eq_some_iff.mpr ((List.getElem?_append_left bound).trans there)

end HostState

theorem Engine.datum?_eq_of_targets {e e' : Engine} {c : Crossing} {d : Datum} (stands : e.datum? c = some d)
    (same : ∀ ref ∈ c.carried, ∀ id, e.target? ref = some id → e'.target? ref = some id) :
    e'.datum? c = some d := by
  cases c with
  | object kind pointer =>
    obtain ⟨id, leads, rfl⟩ := Option.map_eq_some_iff.mp stands
    obtain ⟨ref, rfl, target⟩ := Option.bind_eq_some_iff.mp leads
    simp only [Engine.datum?, Option.bind_some, same ref List.mem_cons_self id target, Option.map_some]
  | _ => exact stands

/-- What stands for something carries live references. -/
theorem Engine.live_of_data {e : Engine} {list : RawList (Option ReferenceId)} {ds : List Datum}
    (stand : List.Forall₂ (fun c d => e.datum? c = some d) list ds) :
    ∀ ref ∈ RawList.carried list, ∃ id, e.target? ref = some id := by
  induction stand with
  | nil => nofun
  | @cons c d list ds stands _ ih =>
    intro ref mem
    rcases List.mem_append.mp mem with first | rest
    · cases c with
      | object kind pointer =>
        obtain ⟨id, leads, -⟩ := Option.map_eq_some_iff.mp stands
        obtain ⟨ref', rfl, target⟩ := Option.bind_eq_some_iff.mp leads
        obtain rfl := List.mem_singleton.mp first
        exact ⟨id, target⟩
      | _ => cases first
    · exact ih ref rest

theorem Engine.data_of_targets {e e' : Engine} {list : RawList (Option ReferenceId)} {ds : List Datum}
    (stand : List.Forall₂ (fun c d => e.datum? c = some d) list ds)
    (same : ∀ ref ∈ RawList.carried list, ∀ id, e.target? ref = some id → e'.target? ref = some id) :
    List.Forall₂ (fun c d => e'.datum? c = some d) list ds := by
  induction stand with
  | nil => exact .nil
  | cons stands _ ih =>
    exact .cons (Engine.datum?_eq_of_targets stands fun ref mem => same ref (List.mem_append_left _ mem))
      (ih fun ref mem => same ref (List.mem_append_right _ mem))

theorem HostState.datum?_refer {s : HostState} {v : Value} {d : Datum} (stands : s.datum? v = some d)
    (ids : List ObjectId) : (s.refer ids).datum? v = some d := by
  cases v with
  | object kind h =>
    obtain ⟨id, leads, rfl⟩ := Option.map_eq_some_iff.mp stands
    obtain ⟨ref, armed, target⟩ := Option.bind_eq_some_iff.mp leads
    have armed' : (s.refer ids).reference? h = some ref := armed
    simp only [HostState.datum?, armed', Option.bind_some, target?_refer target ids, Option.map_some]
  | _ => exact stands

theorem HostState.datum?_wrapNew {s : HostState} {v : Value} {d : Datum} (stands : s.datum? v = some d)
    (wrappers : List Wrapper) (errors : List (Handle Bytes)) :
    (s.wrapNew wrappers errors).datum? v = some d := by
  cases v with
  | object kind h =>
    obtain ⟨id, leads, rfl⟩ := Option.map_eq_some_iff.mp stands
    obtain ⟨ref, armed, target⟩ := Option.bind_eq_some_iff.mp leads
    have armed' : (s.wrapNew wrappers errors).reference? h = some ref := by
      obtain ⟨w, found, pointer⟩ := Option.bind_eq_some_iff.mp armed
      have bound := (List.getElem?_eq_some_iff.mp found).1
      exact Option.bind_eq_some_iff.mpr ⟨w, (List.getElem?_append_left bound).trans found, pointer⟩
    simp only [datum?, armed', Option.bind_some]
    exact congrArg _ target
  | error e =>
    obtain ⟨message, open', rfl⟩ := Option.map_eq_some_iff.mp stands
    obtain ⟨h, found, pointer⟩ := Option.bind_eq_some_iff.mp open'
    have bound := (List.getElem?_eq_some_iff.mp found).1
    exact Option.map_eq_some_iff.mpr ⟨message, Option.bind_eq_some_iff.mpr
      ⟨h, (List.getElem?_append_left bound).trans found, pointer⟩, rfl⟩
  | _ => exact stands

namespace Host

variable {s : HostState} {vm : VmId}

/-! ## Sending -/

/-- No failures to come are left to count against. -/
theorem failing_of_faultless {e : Engine} (faultless : e.faults = []) (f : EngineFunction) :
    e.failing f = (none, e) := by
  cases e
  simp only at faultless
  subst faultless
  rfl

theorem cloneRef_of_target {e : Engine} {ref : ReferenceId} {id : ObjectId} (faultless : e.faults = [])
    (leads : e.target? ref = some id) : e.cloneRef ref = (some e.references.length, (e.refer id).2) := by
  simp only [Engine.cloneRef, failing_of_faultless faultless, leads]
  rfl

/-- A clone is null if the engine was told so. -/
theorem cloneRef_or_fails {e : Engine} {ref : ReferenceId} {id : ObjectId} (leads : e.target? ref = some id) :
    ∃ faults, e.cloneRef ref = (none, { e with faults }) ∨
      e.cloneRef ref = (some e.references.length, (({ e with faults } : Engine).refer id).2) := by
  rcases counted : e.failing .cloneRef with ⟨mode, e'⟩
  obtain rfl : { e with faults := (Engine.countCall .cloneRef e.faults).2 } = e' := congrArg Prod.snd counted
  refine ⟨(Engine.countCall .cloneRef e.faults).2, ?_⟩
  have leads' : ({ e with faults := (Engine.countCall .cloneRef e.faults).2 } : Engine).target? ref = some id := leads
  cases mode with
  | some mode => exact .inl (by simp only [Engine.cloneRef, counted])
  | none => exact .inr (by simp only [Engine.cloneRef, counted, leads']; rfl)

theorem checkOwner_of_owned {v : Value} (owned : ∀ o ∈ owner? s v, o = vm) : checkOwner vm v s = .ok () s := by
  simp only [checkOwner, bind_run, get_run]
  cases found : owner? s v with
  | none => rfl
  | some o => simp [owned o found]

theorem secondReference_of_target {kind : ObjectKind} {object : HandleId} {ref : ReferenceId} {id : ObjectId}
    (isFor : s.vmOf? object = some vm) (isOpen : s.machine? vm ≠ none) (faultless : s.engine.faults = [])
    (armed : s.reference? object = some ref) (leads : s.engine.target? ref = some id) :
    secondReference kind object s = .ok s.engine.references.length (s.refer [id]) := by
  obtain ⟨machine, opened⟩ := Option.ne_none_iff_exists'.mp isOpen
  rw [secondReference, bind_run, withObject_inEngine_run isFor opened armed,
    cloneRef_of_target faultless leads]
  rfl

theorem secondReference_or_fails (kind : ObjectKind) {object : HandleId} {ref : ReferenceId} {id : ObjectId}
    (isFor : s.vmOf? object = some vm) (isOpen : s.machine? vm ≠ none) (armed : s.reference? object = some ref)
    (leads : s.engine.target? ref = some id) :
    ∃ faults, let t : HostState := { s with engine := { s.engine with faults } }
      secondReference kind object s = .error (.nullPointer kind.name) t ∨
        secondReference kind object s = .ok s.engine.references.length (t.refer [id]) := by
  obtain ⟨machine, opened⟩ := Option.ne_none_iff_exists'.mp isOpen
  obtain ⟨faults, cloned⟩ := cloneRef_or_fails leads
  refine ⟨faults, cloned.imp (fun none => ?_) fun cloned => ?_⟩
  · rw [secondReference, bind_run, withObject_inEngine_run isFor opened armed, none]
    rfl
  · rw [secondReference, bind_run, withObject_inEngine_run isFor opened armed, cloned]
    rfl

/-- A value that is no object needs no reference. -/
theorem send_of_plain {v : Value} {d : Datum} (plain : v.object? = none) (stands : s.datum? v = some d) :
    ∃ c, send vm v s = .ok c s ∧ s.engine.datum? c = some d ∧ (∀ ref, ref ∉ c.carried) ∧ d.objectId? = none := by
  have owned : ∀ o ∈ owner? s v, o = vm := by
    rw [owner?, plain]
    nofun
  unfold send
  rw [bind_run, checkOwner_of_owned owned]
  cases v with
  | object kind h => cases plain
  | error e =>
    obtain ⟨message, found, rfl⟩ := Option.map_eq_some_iff.mp stands
    refine ⟨.error message, ?_, rfl, fun _ => List.not_mem_nil, rfl⟩
    simp only [bind_run, get_run, found]
    rfl
  | _ =>
    obtain rfl := Option.some.inj stands
    exact ⟨_, rfl, rfl, fun _ => List.not_mem_nil, rfl⟩

/-- An open object of a VM is behind an open wrapper for this VM. -/
theorem exists_reference_of_datum {kind : ObjectKind} {object : HandleId} {d : Datum}
    (owned : ∀ o ∈ owner? s (.object kind object), o = vm) (stands : s.datum? (.object kind object) = some d) :
    ∃ id ref, d = .object kind id ∧ s.vmOf? object = some vm ∧ s.reference? object = some ref ∧
      s.engine.target? ref = some id := by
  obtain ⟨id, leads, rfl⟩ := Option.map_eq_some_iff.mp stands
  obtain ⟨ref, armed, target⟩ := Option.bind_eq_some_iff.mp leads
  obtain ⟨w, found, -⟩ := Option.bind_eq_some_iff.mp armed
  have here : s.vmOf? object = some w.vm := by rw [HostState.vmOf?, found, Option.map_some]
  exact ⟨id, ref, rfl, owned w.vm here ▸ here, armed, target⟩

/-- An open value of a VM crosses as what it stands for. -/
theorem send_of_datum {v : Value} {d : Datum} (isOpen : s.machine? vm ≠ none)
    (faultless : s.engine.faults = []) (owned : ∀ o ∈ owner? s v, o = vm) (stands : s.datum? v = some d) :
    ∃ c, send vm v s = .ok c (s.refer d.objectId?.toList) ∧
      (s.refer d.objectId?.toList).engine.datum? c = some d ∧
      ∀ ref ∈ c.carried, s.engine.references.length ≤ ref := by
  cases v with
  | object kind h =>
    obtain ⟨id, ref, rfl, isFor, armed, target⟩ := exists_reference_of_datum owned stands
    refine ⟨.object kind (some s.engine.references.length), ?_, ?_, ?_⟩
    · simp only [send, bind_run, checkOwner_of_owned owned,
        secondReference_of_target isFor isOpen faultless armed target]
      rfl
    · simp [Engine.datum?, Engine.target?, HostState.refer, RawValue.objectId?]
    · simp [RawValue.carried]
  | _ =>
    obtain ⟨c, sent, crosses, nothing, plain⟩ := send_of_plain rfl stands
    rw [plain, Option.toList_none, s.refer_nil]
    exact ⟨c, sent, crosses, fun ref mem => absurd mem (nothing ref)⟩

/-- The engine may have been told that no second reference can be made. -/
theorem send_or_fails {v : Value} {d : Datum} (isOpen : s.machine? vm ≠ none) (owned : ∀ o ∈ owner? s v, o = vm)
    (stands : s.datum? v = some d) :
    ∃ faults, let t : HostState := { s with engine := { s.engine with faults } }
      send vm v s = .error (.nullPointer v.kind.name) t ∨
        ∃ c, send vm v s = .ok c (t.refer d.objectId?.toList) ∧
          (t.refer d.objectId?.toList).engine.datum? c = some d ∧
          ∀ ref ∈ c.carried, s.engine.references.length ≤ ref := by
  cases v with
  | object kind h =>
    obtain ⟨id, ref, rfl, isFor, armed, target⟩ := exists_reference_of_datum owned stands
    obtain ⟨faults, made⟩ := secondReference_or_fails kind isFor isOpen armed target
    refine ⟨faults, made.imp (fun failed => ?_) fun made =>
      ⟨.object kind (some s.engine.references.length), ?_, ?_, ?_⟩⟩
    · simp only [send, bind_run, checkOwner_of_owned owned, failed]
      rfl
    · simp only [send, bind_run, checkOwner_of_owned owned, made]
      rfl
    · simp [Engine.datum?, Engine.target?, HostState.refer, RawValue.objectId?]
    · simp [RawValue.carried]
  | _ =>
    obtain ⟨c, sent, crosses, nothing, plain⟩ := send_of_plain rfl stands
    refine ⟨s.engine.faults, .inr ?_⟩
    rw [plain, Option.toList_none, HostState.refer_nil]
    exact ⟨c, sent, crosses, fun ref mem => absurd mem (nothing ref)⟩

theorem sendAll_of_data {vs : List Value} {ds : List Datum} (isOpen : s.machine? vm ≠ none)
    (faultless : s.engine.faults = []) (owned : ∀ v ∈ vs, ∀ o ∈ owner? s v, o = vm)
    (stand : List.Forall₂ (fun v d => s.datum? v = some d) vs ds) :
    ∃ list ids, sendAll vm vs s = .ok list (s.refer ids) ∧
      List.Forall₂ (fun c d => (s.refer ids).engine.datum? c = some d) list ds ∧
      ∀ ref ∈ RawList.carried list, s.engine.references.length ≤ ref := by
  induction vs generalizing s ds with
  | nil =>
    cases stand
    exact ⟨[], [], by rw [s.refer_nil]; rfl, .nil, nofun⟩
  | cons v vs ih =>
    cases stand with
    | @cons _ d _ ds stands stand =>
      obtain ⟨c, sent, crosses, new⟩ :=
        send_of_datum isOpen faultless (owned v List.mem_cons_self) stands
      have later : List.Forall₂ (fun v d' => (s.refer d.objectId?.toList).datum? v = some d') vs ds :=
        stand.imp fun v d' stands => HostState.datum?_refer stands _
      obtain ⟨list, ids, others, cross, new'⟩ := @ih (s.refer d.objectId?.toList) ds isOpen faultless
        (fun v mem => owned v (List.mem_cons_of_mem _ mem)) later
      rw [HostState.refer_refer] at others cross
      refine ⟨c :: list, d.objectId?.toList ++ ids, ?_, .cons ?_ cross, fun ref mem => ?_⟩
      · simp only [sendAll, bind_run, sent, tryCatch_run, others, pure_run]
      · rw [← HostState.refer_refer]
        exact Engine.datum?_eq_of_targets crosses fun ref _ id leads => HostState.target?_refer leads ids
      · rcases List.mem_append.mp mem with first | rest
        · exact new ref first
        · exact Nat.le_trans (by simp [HostState.refer]) (new' ref rest)

/-! ## Receiving -/

/-- Values that are behind new wrappers, which are for a VM and own some references, and behind new handles
of errors. -/
structure New (vm : VmId) (refs : List ReferenceId) (s : HostState) (vs : List Value)
    (wrappers : List Wrapper) (errors : List (Handle Bytes)) : Prop where
  objectIds : vs.filterMap Value.object? = List.range' s.wrappers.length wrappers.length
  errorIds : vs.filterMap Value.error? = List.range' s.errors.length errors.length
  made : ∀ w ∈ wrappers, w.vm = vm ∧ w.lock.readers = 0 ∧ ∀ ref ∈ w.lock.pointer, ref ∈ refs
  unread : ∀ h ∈ errors, h.readers = 0

theorem New.append {refs refs' : List ReferenceId} {vs vs' : List Value} {wrappers wrappers' : List Wrapper}
    {errors errors' : List (Handle Bytes)} (first : New vm refs s vs wrappers errors)
    (second : New vm refs' (s.wrapNew wrappers errors) vs' wrappers' errors') :
    New vm (refs ++ refs') s (vs ++ vs') (wrappers ++ wrappers') (errors ++ errors') where
  objectIds := by
    rw [List.filterMap_append, first.objectIds, second.objectIds]
    simp [HostState.wrapNew]
  errorIds := by
    rw [List.filterMap_append, first.errorIds, second.errorIds]
    simp [HostState.wrapNew]
  made w mem := by
    rcases List.mem_append.mp mem with old | new
    · obtain ⟨isFor, unread, owns⟩ := first.made w old
      exact ⟨isFor, unread, fun ref mem => List.mem_append_left _ (owns ref mem)⟩
    · obtain ⟨isFor, unread, owns⟩ := second.made w new
      exact ⟨isFor, unread, fun ref mem => List.mem_append_right _ (owns ref mem)⟩
  unread h mem := (List.mem_append.mp mem).elim (first.unread h) (second.unread h)

section New

variable {refs : List ReferenceId} {vs : List Value} {wrappers : List Wrapper} {errors : List (Handle Bytes)}

theorem New.objects_ge (new : New vm refs s vs wrappers errors) :
    ∀ v ∈ vs, ∀ h ∈ v.object?, s.wrappers.length ≤ h := by
  intro v mem h named
  have among : h ∈ vs.filterMap Value.object? := List.mem_filterMap.mpr ⟨v, mem, named⟩
  rw [new.objectIds] at among
  exact (List.mem_range'_1.mp among).1

theorem New.errors_ge (new : New vm refs s vs wrappers errors) :
    ∀ v ∈ vs, ∀ e ∈ v.error?, s.errors.length ≤ e := by
  intro v mem e named
  have among : e ∈ vs.filterMap Value.error? := List.mem_filterMap.mpr ⟨v, mem, named⟩
  rw [new.errorIds] at among
  exact (List.mem_range'_1.mp among).1

/-- New wrappers are for the VM that they were made for. -/
theorem New.vmOf? (new : New vm refs s vs wrappers errors) :
    ∀ v ∈ vs, ∀ h ∈ v.object?, (s.wrapNew wrappers errors).vmOf? h = some vm := by
  intro v mem h named
  have among : h ∈ vs.filterMap Value.object? := List.mem_filterMap.mpr ⟨v, mem, named⟩
  rw [new.objectIds] at among
  obtain ⟨above, below⟩ := List.mem_range'_1.mp among
  have there := List.getElem?_eq_getElem (Nat.sub_lt_left_of_lt_add above below)
  rw [HostState.vmOf?, HostState.wrapNew, List.getElem?_append_right above, there, Option.map_some,
    (new.made _ (List.mem_of_getElem? there)).1]

theorem New.owned (new : New vm refs s vs wrappers errors) :
    ∀ v ∈ vs, ∀ o ∈ owner? (s.wrapNew wrappers errors) v, o = vm := by
  intro v mem o owner
  obtain ⟨h, named, isFor⟩ := Option.bind_eq_some_iff.mp owner
  exact Option.some.inj (isFor.symm.trans (new.vmOf? v mem h named))

end New

/-- What crosses is held as what it stands for. -/
theorem receive_of_datum {c : Crossing} {d : Datum} (stands : s.engine.datum? c = some d) :
    ∃ v wrappers errors, receive vm c s = .ok v (s.wrapNew wrappers errors) ∧
      (s.wrapNew wrappers errors).datum? v = some d ∧ New vm c.carried s [v] wrappers errors := by
  have plain : ∀ v : Value, v.object? = none → v.error? = none →
      New vm c.carried s [v] [] [] := fun v noObject noError =>
    ⟨by simp [noObject], by simp [noError], nofun, nofun⟩
  have same : s.wrapNew [] [] = s := by simp [HostState.wrapNew]
  cases c with
  | object kind pointer =>
    obtain ⟨id, leads, rfl⟩ := Option.map_eq_some_iff.mp stands
    obtain ⟨ref, rfl, target⟩ := Option.bind_eq_some_iff.mp leads
    refine ⟨.object kind s.wrappers.length, [⟨vm, .arm ref (.ofObject kind)⟩], [], ?_, ?_, ?_⟩
    · simp only [HostState.wrapNew, List.append_nil]
      rfl
    · have armed : (s.wrapNew [⟨vm, .arm ref (.ofObject kind)⟩] []).reference? s.wrappers.length =
          some ref := by
        simp [HostState.reference?, HostState.wrapNew, Handle.arm]
      simp only [HostState.datum?, armed, Option.bind_some]
      exact congrArg _ target
    · exact ⟨by simp [Value.object?], by simp [Value.error?], by simp [Handle.arm, RawValue.carried], nofun⟩
  | error message =>
    obtain rfl := Option.some.inj stands
    refine ⟨.error s.errors.length, [], [.arm message .error], ?_, ?_, ?_⟩
    · simp only [HostState.wrapNew, List.append_nil]
      rfl
    · simp [HostState.datum?, errorMessage?, HostState.wrapNew, Handle.arm]
    · exact ⟨by simp [Value.object?], by simp [Value.error?], nofun, by simp [Handle.arm]⟩
  | _ =>
    obtain rfl := Option.some.inj stands
    exact ⟨_, [], [], by rw [same]; rfl, by rw [same]; rfl, plain _ rfl rfl⟩

theorem receiveAll_of_data {list : RawList (Option ReferenceId)} {ds : List Datum}
    (stand : List.Forall₂ (fun c d => s.engine.datum? c = some d) list ds) :
    ∃ vs wrappers errors, receiveAll vm list s = .ok vs (s.wrapNew wrappers errors) ∧
      List.Forall₂ (fun v d => (s.wrapNew wrappers errors).datum? v = some d) vs ds ∧
      New vm (RawList.carried list) s vs wrappers errors := by
  induction list generalizing s ds with
  | nil =>
    cases stand
    have same : s.wrapNew [] [] = s := by simp [HostState.wrapNew]
    exact ⟨[], [], [], by rw [same]; rfl, .nil, rfl, rfl, nofun, nofun⟩
  | cons c list ih =>
    cases stand with
    | cons stands stand =>
      obtain ⟨v, ws, es, received, holds, new⟩ := @receive_of_datum s vm _ _ stands
      obtain ⟨vs, ws', es', others, hold, new'⟩ := @ih (s.wrapNew ws es) _ stand
      have both : (s.wrapNew ws es).wrapNew ws' es' = s.wrapNew (ws ++ ws') (es ++ es') := by
        simp [HostState.wrapNew]
      rw [both] at others hold
      refine ⟨v :: vs, ws ++ ws', es ++ es', ?_, .cons ?_ hold, new.append new'⟩
      · rw [receiveAll] at others ⊢
        rw [List.mapM_cons]
        exact bind_eq_ok.mpr ⟨v, _, received, bind_eq_ok.mpr ⟨vs, _, others, rfl⟩⟩
      · rw [← both]
        exact HostState.datum?_wrapNew holds ws' es'

/-! ## Closing what is new -/

/-- From some wrapper and from some error on nothing is read, and the wrappers own no references but some. -/
structure Fresh (object : HandleId) (error : ErrorId) (refs : List ReferenceId) (s : HostState) : Prop where
  wrappers : ∀ {h : HandleId} {w : Wrapper}, object ≤ h → s.wrappers[h]? = some w →
    w.lock.readers = 0 ∧ ∀ ref ∈ w.lock.pointer, ref ∈ refs
  errors : ∀ {e : ErrorId} {h : Handle Bytes}, error ≤ e → s.errors[e]? = some h → h.readers = 0

/-- Nothing happens to VMs, to wrappers and errors below some, and to references but some. -/
structure Spares (object : HandleId) (error : ErrorId) (refs : List ReferenceId) (s t : HostState) : Prop where
  vms : t.vms = s.vms
  length_wrappers : s.wrappers.length ≤ t.wrappers.length
  wrappers : ∀ h < object, t.wrappers[h]? = s.wrappers[h]?
  errors : ∀ e < error, t.errors[e]? = s.errors[e]?
  targets : ∀ ref ∉ refs, ∀ id, s.engine.target? ref = some id → t.engine.target? ref = some id

variable {object : HandleId} {error : ErrorId} {refs : List ReferenceId} {t u : HostState}

theorem New.fresh {vs : List Value} {wrappers : List Wrapper} {errors : List (Handle Bytes)}
    (new : New vm refs s vs wrappers errors) :
    Fresh s.wrappers.length s.errors.length refs (s.wrapNew wrappers errors) where
  wrappers above found := by
    rw [HostState.wrapNew, List.getElem?_append_right above] at found
    exact (new.made _ (List.mem_of_getElem? found)).2
  errors above found := by
    rw [HostState.wrapNew, List.getElem?_append_right above] at found
    exact new.unread _ (List.mem_of_getElem? found)

namespace Spares

theorem refl (s : HostState) : Spares object error refs s s :=
  ⟨rfl, Nat.le_refl _, fun _ _ => rfl, fun _ _ => rfl, fun _ _ _ => id⟩

theorem trans (first : Spares object error refs s t) (second : Spares object error refs t u) :
    Spares object error refs s u where
  vms := second.vms.trans first.vms
  length_wrappers := Nat.le_trans first.length_wrappers second.length_wrappers
  wrappers h below := (second.wrappers h below).trans (first.wrappers h below)
  errors e below := (second.errors e below).trans (first.errors e below)
  targets ref other id leads := second.targets ref other id (first.targets ref other id leads)

theorem wrapNew (s : HostState) (wrappers : List Wrapper) (errors : List (Handle Bytes)) :
    Spares s.wrappers.length s.errors.length refs s (s.wrapNew wrappers errors) :=
  ⟨rfl, by simp [HostState.wrapNew], fun _ below => List.getElem?_append_left below,
    fun _ below => List.getElem?_append_left below, fun _ _ _ => id⟩

theorem refer (s : HostState) (ids : List ObjectId) : Spares object error refs s (s.refer ids) :=
  ⟨rfl, Nat.le_refl _, fun _ _ => rfl, fun _ _ => rfl, fun _ _ _ leads => HostState.target?_refer leads ids⟩

/-- What is spared stands for what it did. -/
theorem datum? (spares : Spares s.wrappers.length s.errors.length refs s t) {v : Value} {d : Datum}
    (stands : s.datum? v = some d) (others : ∀ h ∈ v.object?, ∀ ref ∈ s.reference? h, ref ∉ refs) :
    t.datum? v = some d := by
  cases v with
  | object kind h =>
    obtain ⟨id, leads, rfl⟩ := Option.map_eq_some_iff.mp stands
    obtain ⟨ref, armed, target⟩ := Option.bind_eq_some_iff.mp leads
    obtain ⟨w, found, -⟩ := Option.bind_eq_some_iff.mp armed
    have same : t.reference? h = s.reference? h :=
      congrArg (·.bind (·.lock.pointer)) (spares.wrappers h (List.getElem?_eq_some_iff.mp found).1)
    simp only [HostState.datum?, same, armed, Option.bind_some,
      spares.targets ref (others h rfl ref armed) id target, Option.map_some]
  | error e =>
    obtain ⟨message, isOpen, -⟩ := Option.map_eq_some_iff.mp stands
    obtain ⟨h, found, -⟩ := Option.bind_eq_some_iff.mp isOpen
    have same : errorMessage? t e = errorMessage? s e :=
      congrArg (·.bind (·.pointer)) (spares.errors e (List.getElem?_eq_some_iff.mp found).1)
    exact (congrArg (Option.map RawValue.error) same).trans stands
  | _ => exact stands

end Spares

theorem closeObject_of_fresh (fresh : Fresh object error refs s) {h : HandleId} (new : object ≤ h) :
    ∃ t, closeObject h s = .ok () t ∧ Spares object error refs s t ∧ Fresh object error refs t := by
  rw [closeObject_run]
  cases found : s.wrappers[h]? with
  | none => exact ⟨s, rfl, .refl s, fresh⟩
  | some w =>
    dsimp only
    obtain ⟨unread, owned⟩ := fresh.wrappers new found
    have kept : ∀ t : HostState, t.wrappers = s.wrappers.set h { w with lock := w.lock.disarmed } →
        t.errors = s.errors → Fresh object error refs t := by
      refine fun t wrappers errors => ⟨fun above there => ?_, fun above there => ?_⟩
      · rw [wrappers] at there
        rcases eq_or_of_getElem?_set there with rfl | old
        · exact ⟨unread, nofun⟩
        · exact fresh.wrappers above old
      · rw [errors] at there
        exact fresh.errors above there
    have spared : ∀ h' < object, (s.wrappers.set h { w with lock := w.lock.disarmed })[h']? = s.wrappers[h']? :=
      fun h' below => List.getElem?_set_ne (Nat.ne_of_gt (Nat.lt_of_lt_of_le below new))
    rw [if_pos unread]
    cases destroyed : w.lock.toDestroy with
    | none =>
      exact ⟨_, rfl, ⟨rfl, Nat.le_of_eq List.length_set.symm, spared, fun _ _ => rfl, fun _ _ _ => id⟩,
        kept _ rfl rfl⟩
    | some ref =>
      have ended : ref ∈ refs := by
        simp only [Handle.toDestroy, Option.ite_none_right_eq_some] at destroyed
        exact owned ref destroyed.2
      refine ⟨_, rfl, ⟨rfl, Nat.le_of_eq List.length_set.symm, spared, fun _ _ => rfl,
        fun ref' other id leads => ?_⟩, kept _ rfl rfl⟩
      have apart : ref ≠ ref' := fun same => other (same ▸ ended)
      exact (congrArg Option.join (List.getElem?_set_ne apart)).trans leads

theorem closeError_of_fresh (fresh : Fresh object error refs s) {e : ErrorId} (new : error ≤ e) :
    ∃ t, closeError e s = .ok () t ∧ Spares object error refs s t ∧ Fresh object error refs t := by
  rw [closeError_run]
  cases found : s.errors[e]? with
  | none => exact ⟨s, rfl, .refl s, fresh⟩
  | some h =>
    have unread := fresh.errors new found
    dsimp only
    rw [if_pos unread]
    refine ⟨_, rfl, ⟨rfl, Nat.le_refl _, fun _ _ => rfl, fun e' below => ?_, fun _ _ _ => id⟩, fresh.wrappers,
      fun above there => ?_⟩
    · exact List.getElem?_set_ne (Nat.ne_of_gt (Nat.lt_of_lt_of_le below new))
    · rcases eq_or_of_getElem?_set there with rfl | old
      · exact unread
      · exact fresh.errors above old

theorem close_of_fresh (fresh : Fresh object error refs s) {v : Value} (objects : ∀ h ∈ v.object?, object ≤ h)
    (errors : ∀ e ∈ v.error?, error ≤ e) :
    ∃ t, close v s = .ok () t ∧ Spares object error refs s t ∧ Fresh object error refs t := by
  cases v with
  | object kind h => exact closeObject_of_fresh fresh (objects h rfl)
  | error e => exact closeError_of_fresh fresh (errors e rfl)
  | _ => exact ⟨s, rfl, .refl s, fresh⟩

/-- New values that nobody reads can be closed, and others are spared. -/
theorem closeAll_of_fresh (fresh : Fresh object error refs s) {vs : List Value}
    (objects : ∀ v ∈ vs, ∀ h ∈ v.object?, object ≤ h) (errors : ∀ v ∈ vs, ∀ e ∈ v.error?, error ≤ e) :
    ∃ t, closeAll vs s = .ok () t ∧ Spares object error refs s t := by
  have closed : ∃ t, vs.mapM (fun v => attempt (close v)) s = .ok (vs.map fun _ => .ok ()) t ∧
      Spares object error refs s t := by
    induction vs generalizing s with
    | nil => exact ⟨s, rfl, .refl s⟩
    | cons v vs ih =>
      obtain ⟨t, first, spares, fresh'⟩ := close_of_fresh fresh (objects v List.mem_cons_self)
        (errors v List.mem_cons_self)
      obtain ⟨u, others, spares'⟩ := ih fresh' (fun v mem => objects v (List.mem_cons_of_mem _ mem))
        fun v mem => errors v (List.mem_cons_of_mem _ mem)
      refine ⟨u, ?_, spares.trans spares'⟩
      rw [List.mapM_cons]
      exact bind_eq_ok.mpr ⟨_, t, attempt_eq_ok.mpr first, bind_eq_ok.mpr ⟨_, u, others, rfl⟩⟩
  obtain ⟨t, done, spares⟩ := closed
  refine ⟨t, ?_, spares⟩
  rw [closeAll, bind_run, done]
  simp [Error.together]

end Host
end ScriptHost

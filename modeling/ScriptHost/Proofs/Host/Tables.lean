/-
What the functions of a table do and answer, in terms of the entries that the engine keeps for it: on a table
without metatable, behind an open wrapper of an open VM, with an engine that was not told to fail
(`Host.Table.Ready`), and with open values (`Host.Table.Usable`) they all succeed. Where there are metatables, a
question for a field ends with what the lookup comes to (`Host.Table.get_ends`). What was open stays open and stands
for what it did, and no other object is touched (`HostState.StaysBut`).
-/
import ScriptHost.Proofs.Engine.Entries
import ScriptHost.Proofs.Engine.Lookup
import ScriptHost.Proofs.Host.Crossing
import ScriptHost.Proofs.Host.RoundTrip
import ScriptHost.Proofs.Text.CString

namespace ScriptHost

open Host

/-! ## Tables in the engine -/

namespace Engine

variable {e₀ e : Engine} {table : ReferenceId} {id : ObjectId} {entries : Entries} {c c' : Crossing} {d d' : Datum}

theorem deref?_of_beside (beside : e₀.Beside e) (target : e₀.target? table = some id) :
    e.deref? table = e₀.object? id := by
  rw [deref?_of_target (beside.targets target), beside.object?]

theorem tableSet_of_data (beside : e₀.Beside e) (target : e₀.target? table = some id)
    (there : e₀.object? id = some (.table entries none)) (crosses : e.datum? c = some d)
    (crosses' : e.datum? c' = some d') (new : ∀ ref ∈ c.carried, e₀.references.length ≤ ref)
    (new' : ∀ ref ∈ c'.carried, e₀.references.length ≤ ref) (apart : ∀ ref ∈ c'.carried, ref ∉ c.carried)
    (isKey : d ≠ .nil) :
    ∃ e', e₀.Beside e' ∧ e.tableSet table c c' =
      (.ok (), e'.setObject id (.table (Entries.set e₀.keyOf entries d d') none)) := by
  have taken := receive_of_datum crosses
  have still : (c.carried.foldl giveBack e).datum? c' = some d' :=
    datum?_eq_of_targets crosses' fun ref mem id leads => (target?_foldl_giveBack (apart ref mem)).trans leads
  have taken' := receive_of_datum still
  have beside' := (beside.foldl_giveBack new).foldl_giveBack new'
  refine ⟨_, beside', ?_⟩
  simp only [tableSet, taken, taken', beside'.targets target, deref?_of_beside beside' target, there,
    if_neg isKey, keyOf_congr beside'.objects]

theorem respond_congr (objects : e.objects = e₀.objects) (id : ObjectId) (key : Option Key) :
    e.respond id key = e₀.respond id key := by
  simp only [respond, object?, objects, keyOf_congr objects]

/-- To lookups references are nothing. -/
theorem lookup_congr (objects : e.objects = e₀.objects) (fuel : Nat) (id : ObjectId) (key : Option Key) :
    e.lookup fuel id key = e₀.lookup fuel id key := by
  induction fuel generalizing id key with
  | zero => rfl
  | succ fuel ih => simp only [lookup_succ, respond_congr objects, ih]

/-- A table without metatable has nothing but its entries. -/
theorem finds_of_bare (there : e.object? id = some (.table entries none)) (key : Option Key) :
    e.Finds id key (.value (Entries.get e.keyOf entries key)) := by
  refine .here ?_
  simp only [respond, there, Option.elim_none]
  split
  · next none => rw [none]
  · rfl

/-- A table answers what the lookup comes to. -/
theorem tableGet_of_datum (beside : e₀.Beside e) (target : e₀.target? table = some id) (crosses : e.datum? c = some d)
    (new : ∀ ref ∈ c.carried, e₀.references.length ≤ ref) :
    ∃ e', e₀.Beside e' ∧ e.tableGet table c = match e₀.lookup e₀.lookupFuel id (e₀.keyOf d) with
      | some (.value d') => (.ok (e'.hand d').1, (e'.hand d').2)
      | some .notTable => (.error .notTable, e')
      | none => (.error .endless, e') := by
  have taken := receive_of_datum crosses
  have beside' := beside.foldl_giveBack new
  refine ⟨_, beside', ?_⟩
  have found := lookup_congr beside'.objects e₀.lookupFuel id (e₀.keyOf d)
  have fuel : (c.carried.foldl giveBack e).lookupFuel = e₀.lookupFuel := by rw [lookupFuel, beside'.objects, lookupFuel]
  rcases comesTo : e₀.lookup e₀.lookupFuel id (e₀.keyOf d) with _ | _ | _ <;> rw [comesTo] at found <;>
    simp only [tableGet, taken, beside'.targets target, keyOf_congr beside'.objects, fuel, found]

theorem tablePairs_of_faultless (faultless : e.faults = []) (target : e.target? table = some id)
    (there : e.object? id = some (.table entries none)) :
    ∃ list e', e.tablePairs table = (list, .ok (), e') ∧ e.Beside e' ∧
      List.Forall₂ (fun c d => e'.datum? c = some d) list (entries.flatMap fun (k, v) => [k, v]) ∧
      ∀ ref ∈ RawList.carried list, e.references.length ≤ ref := by
  have found : e.deref? table = some (.table entries none) := (deref?_of_beside (.refl e) target).trans there
  obtain ⟨stand, handed, new⟩ := e.handAll_data (entries.flatMap fun (k, v) => [k, v])
  refine ⟨_, _, ?_, handed, stand, new⟩
  simp only [tablePairs, failing_of_faultless faultless, found]

end Engine

/-! ## What stays -/

namespace HostState

variable {s t u : HostState} {id : ObjectId}

/-- What was open is open, and but for one object the engine has what it had. -/
structure StaysBut (id : ObjectId) (s t : HostState) : Prop where
  data : ∀ {v d}, s.datum? v = some d → t.datum? v = some d
  isFor : ∀ {object vm}, s.vmOf? object = some vm → t.vmOf? object = some vm
  machines : ∀ vm, t.machine? vm = s.machine? vm
  faults : t.engine.faults = s.engine.faults
  objects : ∀ other, other ≠ id → t.engine.object? other = s.engine.object? other

theorem datum?_of_targets {engine : Engine}
    (targets : ∀ {ref id}, s.engine.target? ref = some id → engine.target? ref = some id) {v : Value} {d : Datum}
    (stands : s.datum? v = some d) : ({ s with engine } : HostState).datum? v = some d := by
  cases v with
  | object kind h =>
    obtain ⟨id, leads, rfl⟩ := Option.map_eq_some_iff.mp stands
    obtain ⟨ref, armed, target⟩ := Option.bind_eq_some_iff.mp leads
    have armed' : ({ s with engine } : HostState).reference? h = some ref := armed
    simp only [datum?, armed', Option.bind_some, targets target, Option.map_some]
  | _ => exact stands

namespace StaysBut

theorem trans (first : StaysBut id s t) (second : StaysBut id t u) : StaysBut id s u where
  data stands := second.data (first.data stands)
  isFor isFor := second.isFor (first.isFor isFor)
  machines vm := (second.machines vm).trans (first.machines vm)
  faults := second.faults.trans first.faults
  objects other apart := (second.objects other apart).trans (first.objects other apart)

theorem wrapNew (s : HostState) (wrappers : List Wrapper) (errors : List (Handle Bytes)) :
    StaysBut id s (s.wrapNew wrappers errors) where
  data stands := datum?_wrapNew stands wrappers errors
  isFor {object vm} isFor := by
    obtain ⟨w, found, same⟩ := Option.map_eq_some_iff.mp isFor
    have bound := (List.getElem?_eq_some_iff.mp found).1
    exact Option.map_eq_some_iff.mpr ⟨w, (List.getElem?_append_left bound).trans found, same⟩
  machines _ := rfl
  faults := rfl
  objects _ _ := rfl

theorem beside {engine : Engine} (beside : s.engine.Beside engine) (id : ObjectId) :
    StaysBut id s { s with engine } where
  data := datum?_of_targets beside.targets
  isFor isFor := isFor
  machines _ := rfl
  faults := beside.faults
  objects _ _ := beside.object? _

theorem setObject (s : HostState) (o : Object) : StaysBut id s { s with engine := s.engine.setObject id o } where
  data := datum?_of_targets fun leads => leads
  isFor isFor := isFor
  machines _ := rfl
  faults := rfl
  objects _ apart := congrArg Option.join (List.getElem?_set_ne (Ne.symm apart))

end StaysBut

/-- Objects are what they were, and so are failures to come. -/
def SameObjects (s t : HostState) : Prop :=
  t.engine.objects = s.engine.objects ∧ t.engine.faults = s.engine.faults

instance : Releasing SameObjects where
  still engine _ := ⟨by rw [engine], by rw [engine]⟩
  trans first second := ⟨second.1.trans first.1, second.2.trans first.2⟩
  unowned engine := ⟨by rw [engine], by rw [engine]⟩
  returned engine := by
    rw [SameObjects, engine]
    exact ⟨rfl, rfl⟩

/-- What is spared stays. -/
theorem StaysBut.of_spares {engine : Engine} {refs : List ReferenceId} (beside : s.engine.Beside engine)
    (owned : ∀ ref ∈ refs, s.engine.references.length ≤ ref)
    (spares : Spares s.wrappers.length s.errors.length refs { s with engine } t)
    (same : SameObjects { s with engine } t) : StaysBut id s t where
  data {v d} stands := by
    refine spares.datum? (datum?_of_targets beside.targets stands) fun h named ref armed given => ?_
    cases v with
    | object kind h' =>
      cases named
      obtain ⟨id, leads, -⟩ := Option.map_eq_some_iff.mp stands
      obtain ⟨ref', armed', target⟩ := Option.bind_eq_some_iff.mp leads
      obtain rfl : ref' = ref := Option.some.inj (armed'.symm.trans armed)
      exact absurd (Engine.lt_of_target? target) (Nat.not_lt.mpr (owned ref' given))
    | _ => cases named
  isFor {object vm} isFor := by
    obtain ⟨w, found, -⟩ := Option.map_eq_some_iff.mp isFor
    have bound := (List.getElem?_eq_some_iff.mp found).1
    rw [vmOf?, spares.wrappers object bound]
    exact isFor
  machines vm := by
    rw [machine?, spares.vms]
    rfl
  faults := same.2.trans beside.faults
  objects other _ := by
    rw [Engine.object?, same.1]
    exact beside.object? other

end HostState

namespace Host.Table

variable {s t : HostState} {vm : VmId} {table : HandleId} {id : ObjectId} {entries : Entries}

/-- A table of an open VM behind an open wrapper, and an engine that was not told to fail. -/
structure Ready (vm : VmId) (table : HandleId) (id : ObjectId) (s : HostState) : Prop
    extends s.Behind vm table id where
  faultless : s.engine.faults = []

/-- An open value of a VM, or one without a VM, and what it stands for. -/
structure Usable (vm : VmId) (s : HostState) (v : Value) (d : Datum) : Prop where
  owned : ∀ o ∈ owner? s v, o = vm
  stands : s.datum? v = some d

instance : Decidable (Ready vm table id s) :=
  decidable_of_iff ((s.vmOf? table = some vm ∧ s.machine? vm ≠ none ∧
      (s.reference? table).bind s.engine.target? = some id) ∧ s.engine.faults = [])
    ⟨fun ⟨⟨isFor, isOpen, leads⟩, faultless⟩ => ⟨⟨isFor, isOpen, leads⟩, faultless⟩,
      fun ready => ⟨⟨ready.isFor, ready.isOpen, ready.leads⟩, ready.faultless⟩⟩

instance {v : Value} {d : Datum} : Decidable (Usable vm s v d) :=
  decidable_of_iff ((∀ o ∈ owner? s v, o = vm) ∧ s.datum? v = some d)
    ⟨fun ⟨owned, stands⟩ => ⟨owned, stands⟩, fun usable => ⟨usable.owned, usable.stands⟩⟩

theorem Ready.staysBut (ready : Ready vm table id s) (stays : s.StaysBut id t) : Ready vm table id t where
  isFor := stays.isFor ready.isFor
  isOpen := stays.machines vm ▸ ready.isOpen
  leads := by
    have stands : s.datum? (.object .table table) = some (.object .table id) :=
      congrArg (Option.map (RawValue.object .table)) ready.leads
    obtain ⟨id', leads, same⟩ := Option.map_eq_some_iff.mp (stays.data stands)
    cases same
    exact leads
  faultless := stays.faults.trans ready.faultless

theorem Usable.staysBut {v : Value} {d : Datum} (usable : Usable vm s v d) (stays : s.StaysBut id t) :
    Usable vm t v d where
  owned o owner := by
    obtain ⟨h, named, isFor⟩ := Option.bind_eq_some_iff.mp owner
    obtain ⟨o', isFor'⟩ : ∃ o', s.vmOf? h = some o' := by
      cases v with
      | object kind h' =>
        obtain ⟨id', leads, -⟩ := Option.map_eq_some_iff.mp usable.stands
        obtain ⟨ref, armed, -⟩ := Option.bind_eq_some_iff.mp leads
        obtain ⟨w, found, -⟩ := Option.bind_eq_some_iff.mp armed
        cases named
        exact ⟨w.vm, Option.map_eq_some_iff.mpr ⟨w, found, rfl⟩⟩
      | _ => cases named
    obtain rfl := Option.some.inj ((stays.isFor isFor').symm.trans isFor)
    exact usable.owned o' (Option.bind_eq_some_iff.mpr ⟨h, named, isFor'⟩)
  stands := stays.data usable.stands

theorem Usable.alike {v : Value} {d : Datum} (usable : Usable vm s v d) (alike : s.Alike t)
    (errors : t.errors = s.errors) : Usable vm t v d where
  owned o owner := by
    have same : owner? t v = owner? s v := congrArg v.object?.bind (funext alike.vmOf?)
    exact usable.owned o (same ▸ owner)
  stands := (alike.datum? errors v).trans usable.stands

/-- What is new and stands for something can be used. -/
theorem usable_of_new {refs : List ReferenceId} {vs : List Value} {ds : List Datum} {wrappers : List Wrapper}
    {errors : List (Handle Bytes)} (new : New vm refs s vs wrappers errors)
    (stand : List.Forall₂ (fun v d => (s.wrapNew wrappers errors).datum? v = some d) vs ds) :
    List.Forall₂ (Usable vm (s.wrapNew wrappers errors)) vs ds := by
  rw [List.forall₂_iff_get] at stand ⊢
  exact ⟨stand.1, fun i h h' => ⟨new.owned _ (List.get_mem _ _), stand.2 i h h'⟩⟩

/-! ## Setting -/

theorem targets_refer (s : HostState) (ids : List ObjectId) : s.engine.Beside (s.refer ids).engine where
  objects := rfl
  machines := rfl
  faults := rfl
  length_le := by simp [HostState.refer]
  targets leads := HostState.target?_refer leads ids

/-- A usable value arrives in the engine as what it stands for. -/
theorem send_of_usable {v : Value} {d : Datum} (isOpen : s.machine? vm ≠ none)
    (faultless : s.engine.faults = []) (usable : Usable vm s v d) :
    ∃ c engine, send vm v s = .ok c { s with engine } ∧ s.engine.Beside engine ∧
      engine.datum? c = some d ∧ ∀ ref ∈ c.carried, s.engine.references.length ≤ ref := by
  obtain ⟨c, sent, crosses, new⟩ := send_of_datum isOpen faultless usable.owned usable.stands
  exact ⟨c, _, sent, targets_refer s _, crosses, new⟩

/-- A ready table is set to what the entries are with the value under the key. -/
theorem set_run (ready : Ready vm table id s) (there : s.engine.object? id = some (.table entries none))
    {key value : Value} {d d' : Datum} (usable : Usable vm s key d) (usable' : Usable vm s value d')
    (isKey : d ≠ .nil) :
    ∃ engine, s.engine.Beside engine ∧ Table.set table key value s = .ok () { s with
      engine := engine.setObject id (.table (Entries.set s.engine.keyOf entries d d') none) } := by
  obtain ⟨machine, ref, target, -, guarded⟩ := ready.exists_guarded
  let s₁ := (s.readVm vm).readObject table
  have guards : s.Alike s₁ := (HostState.Alike.readVm _ _).trans (.readObject _ _)
  have opened : s₁.machine? vm ≠ none := guards.machine? vm ▸ ready.isOpen
  obtain ⟨c, e₂, sent, beside, crosses, new⟩ :=
    send_of_usable opened ready.faultless (usable.alike guards rfl)
  have usable₂ : Usable vm { s₁ with engine := e₂ } value d' :=
    (usable'.alike guards rfl).staysBut (.beside beside id)
  obtain ⟨c', e₃, sent', beside', crosses', new'⟩ :=
    send_of_usable (s := { s₁ with engine := e₂ }) opened (beside.faults.trans ready.faultless) usable₂
  have crosses₃ : e₃.datum? c = some d := Engine.datum?_eq_of_targets crosses fun ref _ id => beside'.targets
  have apart : ∀ ref ∈ c'.carried, ref ∉ c.carried := by
    intro ref mem' mem
    obtain ⟨id', target'⟩ := Engine.live_of_data (.cons crosses .nil) ref (List.mem_append_left _ mem)
    exact absurd (Engine.lt_of_target? target') (Nat.not_lt.mpr (new' ref mem'))
  obtain ⟨e₄, beside₄, done⟩ := Engine.tableSet_of_data (beside.trans beside') target there crosses₃ crosses' new
    (fun ref mem => Nat.le_trans beside.length_le (new' ref mem)) apart isKey
  refine ⟨e₄, beside₄, ?_⟩
  have sent₁ : send vm key ((s.readVm vm).readObject table) = .ok c { s₁ with engine := e₂ } := sent
  rw [Table.set, guarded]
  simp only [bind_run, sent₁, tryCatch_run, sent', tryInEngine, inEngine_run, done, pure_run]
  exact congrArg _ (HostState.unread_read ..)

/-! ## Asking -/

/-- What is received under the guards is held without them. -/
theorem unguarded {engine : Engine} {refs : List ReferenceId} {vs : List Value} {ds : List Datum}
    {wrappers : List Wrapper} {errors : List (Handle Bytes)} (known : table < s.wrappers.length)
    (stand : List.Forall₂ (fun v d =>
      (({ (s.readVm vm).readObject table with engine } : HostState).wrapNew wrappers errors).datum? v = some d) vs ds)
    (new : New vm refs { (s.readVm vm).readObject table with engine } vs wrappers errors) :
    ((({ (s.readVm vm).readObject table with engine } : HostState).wrapNew wrappers errors).unreadObject
        table).unreadVm vm = ({ s with engine } : HostState).wrapNew wrappers errors ∧
      List.Forall₂ (fun v d => (({ s with engine } : HostState).wrapNew wrappers errors).datum? v = some d) vs ds ∧
      New vm refs { s with engine } vs wrappers errors := by
  have left : ((({ (s.readVm vm).readObject table with engine } : HostState).wrapNew wrappers
      errors).unreadObject table).unreadVm vm = ({ s with engine } : HostState).wrapNew wrappers errors := by
    rw [HostState.unreadObject_wrapNew (s := s.readVm vm) known, HostState.unreadVm_wrapNew]
  have alike := (HostState.Alike.unreadObject
    (({ (s.readVm vm).readObject table with engine } : HostState).wrapNew wrappers errors) table).trans
    (.unreadVm _ vm)
  refine ⟨left, stand.imp fun v d stands => ?_, ?_⟩
  · rw [← left, alike.datum? rfl]
    exact stands
  · exact ⟨by simpa [HostState.readObject, HostState.readVm] using new.objectIds, new.errorIds, new.made, new.unread⟩

/-- How a question for a field ends, by what the lookup comes to. Nothing is changed but that the answer is new. -/
def Ends (vm : VmId) (id : ObjectId) (s : HostState) (result : EStateM.Result Error HostState Value) :
    Option Engine.Found → Prop
  | some (.value d) => ∃ v t, result = .ok v t ∧ s.StaysBut id t ∧ t.engine.objects = s.engine.objects ∧ Usable vm t v d
  | some .notTable => ∃ t, result = .error (.native "attempt to index a non-table value") t ∧ s.StaysBut id t ∧
    t.engine.objects = s.engine.objects
  | none => ∃ t, result = .error (.abort .endless) t ∧ s.StaysBut id t ∧ t.engine.objects = s.engine.objects

/-- A key that has arrived is looked up. -/
theorem get_of_sent {key : Value} {d : Datum} {c : Crossing} (behind : s.Behind vm table id) (faults : List Fault)
    (engine : Engine)
    (sent : send vm key ((s.readVm vm).readObject table) = .ok c { (s.readVm vm).readObject table with engine })
    (beside : Engine.Beside { s.engine with faults } engine) (crosses : engine.datum? c = some d)
    (new : ∀ ref ∈ c.carried, s.engine.references.length ≤ ref) :
    Ends vm id { s with engine := { s.engine with faults } } (Table.get table key s)
      (s.engine.lookup s.engine.lookupFuel id (s.engine.keyOf d)) := by
  obtain ⟨machine, ref, target, known, guarded⟩ := behind.exists_guarded
  let s₀ : HostState := { s with engine := { s.engine with faults } }
  have target₀ : s₀.engine.target? ref = some id := target
  obtain ⟨e₃, beside', answered⟩ := Engine.tableGet_of_datum beside target₀ crosses new
  have stays := HostState.StaysBut.beside (s := s₀) beside' id
  have fails : ∀ failure : Engine.FieldFailure, engine.tableGet ref c = (.error failure, e₃) →
      Table.get table key s = .error (.ofField failure) { s with engine := e₃ } := by
    intro failure answered
    rw [Table.get, guarded]
    simp only [bind_run, sent, tryInEngine_run, answered]
    exact congrArg _ (HostState.unread_read ..)
  have looksInto : Error.ofField .notTable = .native "attempt to index a non-table value" :=
    congrArg Error.native (CString.text_ofText_of_notMem (by decide))
  have same : s₀.engine.lookup s₀.engine.lookupFuel id (s₀.engine.keyOf d) =
      s.engine.lookup s.engine.lookupFuel id (s.engine.keyOf d) :=
    @Engine.lookup_congr s.engine s₀.engine rfl _ _ _
  rw [← same]
  cases found : s₀.engine.lookup s₀.engine.lookupFuel id (s₀.engine.keyOf d) with
  | none =>
    rw [found] at answered
    exact ⟨_, fails _ answered, stays, beside'.objects⟩
  | some found' =>
    rw [found] at answered
    cases found' with
    | notTable => exact ⟨_, looksInto ▸ fails _ answered, stays, beside'.objects⟩
    | value d' =>
      obtain ⟨stands, handed, -⟩ := e₃.hand_datum d'
      let s₁ : HostState := { (s.readVm vm).readObject table with engine := (e₃.hand d').2 }
      obtain ⟨v, ws, es, received, stands', new'⟩ := @receive_of_datum s₁ vm _ _ stands
      obtain ⟨left, stand, new''⟩ := unguarded known (.cons stands' .nil) new'
      obtain ⟨usable', -⟩ := List.forall₂_cons.mp (usable_of_new new'' stand)
      have beside₃ := beside'.trans handed
      refine ⟨v, ({ s with engine := (e₃.hand d').2 } : HostState).wrapNew ws es, ?_,
        (HostState.StaysBut.beside (s := s₀) beside₃ id).trans (.wrapNew _ ws es), beside₃.objects, usable'⟩
      rw [Table.get, guarded]
      simp only [bind_run, sent, tryInEngine, inEngine_run, answered, pure_run]
      rw [received]
      exact congrArg _ left

/-- A ready table is asked for what the lookup comes to. -/
theorem get_ends (ready : Ready vm table id s) {key : Value} {d : Datum} (usable : Usable vm s key d) :
    Ends vm id s (Table.get table key s) (s.engine.lookup s.engine.lookupFuel id (s.engine.keyOf d)) := by
  let s₁ := (s.readVm vm).readObject table
  have guards : s.Alike s₁ := (HostState.Alike.readVm _ _).trans (.readObject _ _)
  have opened : s₁.machine? vm ≠ none := guards.machine? vm ▸ ready.isOpen
  obtain ⟨c, engine, sent, beside, crosses, new⟩ := send_of_usable opened ready.faultless (usable.alike guards rfl)
  exact get_of_sent ready.toBehind s.engine.faults engine sent beside crosses new

/-- Whatever the engine was told, the key is looked up if it arrives. -/
theorem get_ends_or_fails (behind : s.Behind vm table id) {key : Value} {d : Datum} (usable : Usable vm s key d) :
    ∃ faults, let t : HostState := { s with engine := { s.engine with faults } }
      Table.get table key s = .error (.nullPointer key.kind.name) t ∨
        Ends vm id t (Table.get table key s) (s.engine.lookup s.engine.lookupFuel id (s.engine.keyOf d)) := by
  obtain ⟨machine, ref, -, -, guarded⟩ := behind.exists_guarded
  let s₁ := (s.readVm vm).readObject table
  have guards : s.Alike s₁ := (HostState.Alike.readVm _ _).trans (.readObject _ _)
  have opened : s₁.machine? vm ≠ none := guards.machine? vm ▸ behind.isOpen
  have usable₁ : Usable vm s₁ key d := usable.alike guards rfl
  obtain ⟨faults, failed | ⟨c, sent, crosses, new⟩⟩ := send_or_fails opened usable₁.owned usable₁.stands
  · refine ⟨faults, .inl ?_⟩
    have failed₁ : send vm key ((s.readVm vm).readObject table) = _ := failed
    rw [Table.get, guarded, bind_run, failed₁]
    exact congrArg _ (HostState.unread_read ..)
  · let t : HostState := { s₁ with engine := { s.engine with faults } }
    refine ⟨faults, .inr ?_⟩
    exact get_of_sent behind faults _ sent (targets_refer t d.objectId?.toList) crosses new

/-- A table without metatable is asked for what its entries have. -/
theorem get_run (ready : Ready vm table id s) (there : s.engine.object? id = some (.table entries none))
    {key : Value} {d : Datum} (usable : Usable vm s key d) :
    ∃ v t, Table.get table key s = .ok v t ∧ s.StaysBut id t ∧ t.engine.objects = s.engine.objects ∧
      Usable vm t v (Entries.get s.engine.keyOf entries (s.engine.keyOf d)) := by
  have ends := get_ends ready usable
  rwa [Engine.finds_iff_lookup.mp (Engine.finds_of_bare there _)] at ends

theorem length_run (ready : Ready vm table id s) (there : s.engine.object? id = some (.table entries none)) :
    Table.length table s = .ok (Entries.length s.engine.keyOf entries) s := by
  obtain ⟨machine, ref, target, -, guarded⟩ := ready.exists_guarded
  have found : s.engine.deref? ref = some (.table entries none) :=
    (Engine.deref?_of_beside (.refl _) target).trans there
  have counted : s.engine.tableLength ref = Entries.length s.engine.keyOf entries := by
    simp only [Engine.tableLength, found]
  rw [Table.length, guarded]
  show EStateM.Result.ok (s.engine.tableLength ref) _ = _
  rw [counted]
  exact congrArg _ (HostState.unread_read ..)

/-! ## All pairs -/

theorem forall₂_pairUp {R : Value → Datum → Prop} {vs : List Value} {entries : Entries}
    (stand : List.Forall₂ R vs (entries.flatMap fun (k, v) => [k, v])) :
    List.Forall₂ (fun pair entry => R pair.1 entry.1 ∧ R pair.2 entry.2) (pairUp vs) entries := by
  induction entries generalizing vs with
  | nil =>
    cases stand
    exact .nil
  | cons entry entries ih =>
    cases stand with
    | cons key stand =>
      cases stand with
      | cons value stand => exact .cons ⟨key, value⟩ (ih stand)

theorem mem_of_mem_pairUp {vs : List Value} {pair : Value × Value} (mem : pair ∈ pairUp vs) :
    pair.1 ∈ vs ∧ pair.2 ∈ vs := by
  fun_induction pairUp vs with
  | case1 k v rest ih =>
    rcases List.mem_cons.mp mem with rfl | later
    · exact ⟨List.mem_cons_self, List.mem_cons_of_mem _ List.mem_cons_self⟩
    · exact (ih later).imp (fun mem => .tail _ (.tail _ mem)) fun mem => .tail _ (.tail _ mem)
  | case2 => cases mem

/-- The pairs of a ready table are new, two values for every entry. -/
theorem pairs_run (ready : Ready vm table id s) (there : s.engine.object? id = some (.table entries none)) :
    ∃ vs engine refs wrappers errors,
      Table.pairs table s = .ok (pairUp vs) (({ s with engine } : HostState).wrapNew wrappers errors) ∧
      s.engine.Beside engine ∧ (∀ ref ∈ refs, s.engine.references.length ≤ ref) ∧
      New vm refs { s with engine } vs wrappers errors ∧
      List.Forall₂ (fun v d => (({ s with engine } : HostState).wrapNew wrappers errors).datum? v = some d) vs
        (entries.flatMap fun (k, v) => [k, v]) := by
  obtain ⟨machine, ref, target, known, guarded⟩ := ready.exists_guarded
  let s₁ := (s.readVm vm).readObject table
  obtain ⟨list, engine, given, beside, stand, owned⟩ :=
    Engine.tablePairs_of_faultless ready.faultless target there
  obtain ⟨vs, ws, es, received, stand', new⟩ := @receiveAll_of_data { s₁ with engine } vm _ _ stand
  obtain ⟨left, stand'', new'⟩ := unguarded known stand' new
  refine ⟨vs, engine, _, ws, es, ?_, beside, owned, new', stand''⟩
  rw [Table.pairs, guarded]
  have given₁ : ((s.readVm vm).readObject table).engine.tablePairs ref = (list, .ok (), engine) := given
  have received₁ : receiveAll vm list { (s.readVm vm).readObject table with engine } = .ok vs _ := received
  simp only [bind_run, inEngine_run, given₁, received₁, pure_run]
  exact congrArg _ left

/-! ### Closing them again -/

theorem closePairs_of_fresh {object : HandleId} {error : ErrorId} {refs : List ReferenceId}
    (fresh : Fresh object error refs s) {pairs : List (Value × Value)}
    (objects : ∀ pair ∈ pairs, ∀ v ∈ [pair.1, pair.2], ∀ h ∈ v.object?, object ≤ h)
    (errors : ∀ pair ∈ pairs, ∀ v ∈ [pair.1, pair.2], ∀ e ∈ v.error?, error ≤ e) :
    ∃ t, closePairs pairs s = .ok () t ∧ Spares object error refs s t := by
  induction pairs generalizing s with
  | nil => exact ⟨s, rfl, .refl s⟩
  | cons pair pairs ih =>
    have first := objects pair List.mem_cons_self
    have first' := errors pair List.mem_cons_self
    obtain ⟨t, key, spares, fresh⟩ := close_of_fresh fresh (first pair.1 (by simp)) (first' pair.1 (by simp))
    obtain ⟨u, value, spares', fresh⟩ := close_of_fresh fresh (first pair.2 (by simp)) (first' pair.2 (by simp))
    obtain ⟨last, others, spares''⟩ := ih fresh (fun pair mem => objects pair (List.mem_cons_of_mem _ mem))
      fun pair mem => errors pair (List.mem_cons_of_mem _ mem)
    refine ⟨last, ?_, (spares.trans spares').trans spares''⟩
    exact bind_eq_ok.mpr ⟨(), t, key, bind_eq_ok.mpr ⟨(), u, value, others⟩⟩

/-- The question leaves what was open, since only its own pairs are closed. -/
theorem isEmpty_run (ready : Ready vm table id s) (there : s.engine.object? id = some (.table entries none)) :
    ∃ t, Table.isEmpty table s = .ok (List.isEmpty entries) t ∧ s.StaysBut id t ∧
      t.engine.objects = s.engine.objects := by
  obtain ⟨vs, engine, refs, ws, es, found, beside, owned, new, stand⟩ := pairs_run ready there
  have among : ∀ pair ∈ pairUp vs, ∀ v ∈ [pair.1, pair.2], v ∈ vs := by
    intro pair mem v part
    obtain ⟨key, value⟩ := mem_of_mem_pairUp mem
    simp only [List.mem_cons, List.not_mem_nil, or_false] at part
    rcases part with rfl | rfl
    · exact key
    · exact value
  obtain ⟨t, closed, spares⟩ := closePairs_of_fresh new.fresh
    (fun pair mem v part => new.objects_ge v (among pair mem v part))
    (fun pair mem v part => new.errors_ge v (among pair mem v part))
  have same : HostState.SameObjects (({ s with engine } : HostState).wrapNew ws es) t :=
    (closePairs_moves (pairUp vs)).of_ok closed
  have empty : (pairUp vs).isEmpty = List.isEmpty entries := by
    have counted := (forall₂_pairUp stand).length_eq
    rw [Bool.eq_iff_iff, List.isEmpty_iff_length_eq_zero, List.isEmpty_iff_length_eq_zero, counted]
  refine ⟨t, ?_, ?_, same.1.trans beside.objects⟩
  · rw [Table.isEmpty, ← empty]
    exact bind_eq_ok.mpr ⟨_, _, found, bind_eq_ok.mpr ⟨(), t, closed, rfl⟩⟩
  · exact .of_spares beside owned ((Spares.wrapNew _ ws es).trans spares) same

end Host.Table

end ScriptHost

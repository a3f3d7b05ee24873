/-
What the functions of the engine do to what it keeps, as long as it is sound: whatever a reference, a
machine or another object keeps alive is there (`Engine.Sound`). A reference leads where it led until it is
given back, an object stays what it is until it is freed, no number is used twice, and the engine stays
sound (`Engine.Evolves`).
-/
import ScriptHost.Engine.Functions
import ScriptHost.Proofs.Engine.Growth

namespace ScriptHost

/-- What of an object never changes: all but the entries of a table and the bytes of a buffer. -/
def Object.outline : Object → Object
  | table .. => emptyTable
  | buffer _ => buffer []
  | o => o

theorem Object.eq_of_outline_eq_userdata {o : Object} {p : PayloadId}
    (same : o.outline = .userdata p) : o = .userdata p := by
  cases o with
  | userdata p' => exact same
  | _ => cases same

theorem Object.eq_of_outline_eq_function {o : Object} {body : FunctionBody}
    {environment : Option ObjectId} (same : o.outline = .function body environment) :
    o = .function body environment := by
  cases o with
  | function body' environment' => exact same
  | _ => cases same

theorem Object.mem_held_table {entries : Entries} {metatable : Option ObjectId} {id : ObjectId} :
    id ∈ (table entries metatable).held ↔
      (∃ entry ∈ entries, id ∈ entry.1.objectId? ∨ id ∈ entry.2.objectId?) ∨ id ∈ metatable := by
  simp [held]

namespace Entries

/-- What is found in a table stands in it. -/
theorem get_eq_nil_or_mem (keyOf : Datum → Option Key) (entries : Entries) (key : Option Key) :
    get keyOf entries key = .nil ∨ ∃ k, (k, get keyOf entries key) ∈ entries := by
  unfold get
  cases found : entries.find? (isUnder keyOf key) with
  | none => exact .inl rfl
  | some entry => exact .inr ⟨entry.1, List.mem_of_find?_eq_some found⟩

/-- What stands in a table was there before, or was set. -/
theorem mem_or_eq_of_mem_set {keyOf : Datum → Option Key} {entries : Entries} {key value : Datum}
    {entry : Datum × Datum} (mem : entry ∈ set keyOf entries key value) :
    entry ∈ entries ∨ entry = (key, value) := by
  unfold set at mem
  dsimp only at mem
  split at mem
  · exact .inl (List.mem_filter.mp mem).1
  · rcases List.mem_append.mp mem with others | new
    · exact .inl (List.mem_filter.mp others).1
    · exact .inr (List.mem_singleton.mp new)

end Entries

namespace Engine

/-! ## Soundness -/

/-- An object is there. -/
def Has (e : Engine) (id : ObjectId) : Prop :=
  e.object? id ≠ none

/-- The object that a value names is there. -/
def Knows (e : Engine) (d : Datum) : Prop :=
  ∀ id ∈ d.objectId?, e.Has id

/-- What is kept alive is there. -/
def Sound (e : Engine) : Prop :=
  ∀ id ∈ e.heldObjects, e.Has id

theorem mem_heldObjects {e : Engine} {id : ObjectId} :
    id ∈ e.heldObjects ↔ some id ∈ e.references ∨ (∃ m, some m ∈ e.machines ∧ m.globals = id) ∨
      ∃ o, some o ∈ e.objects ∧ id ∈ o.held := by
  simp only [heldObjects, List.mem_append, List.mem_filterMap, List.mem_map, List.mem_flatMap, id_eq,
    exists_eq_right, or_assoc]

theorem mem_of_object? {e : Engine} {id : ObjectId} {o : Object} (found : e.object? id = some o) :
    some o ∈ e.objects :=
  List.mem_of_getElem? (Option.join_eq_some_iff.mp found)

theorem mem_of_target? {e : Engine} {ref : ReferenceId} {id : ObjectId}
    (leads : e.target? ref = some id) : some id ∈ e.references :=
  List.mem_of_getElem? (Option.join_eq_some_iff.mp leads)

theorem mem_of_machine? {e : Engine} {id : MachineId} {m : Machine} (found : e.machine? id = some m) :
    some m ∈ e.machines :=
  List.mem_of_getElem? (Option.join_eq_some_iff.mp found)

theorem has_of_object? {e : Engine} {id : ObjectId} {o : Object} (found : e.object? id = some o) :
    e.Has id := by
  rw [Has, found]
  nofun

theorem object?_of_deref? {e : Engine} {ref : ReferenceId} {id : ObjectId} {o : Object}
    (leads : e.target? ref = some id) (found : e.deref? ref = some o) : e.object? id = some o := by
  rwa [deref?, leads, Option.bind_some] at found

namespace Sound

variable {e : Engine}

theorem has_target (sound : e.Sound) {ref : ReferenceId} {id : ObjectId}
    (leads : e.target? ref = some id) : e.Has id :=
  sound id (mem_heldObjects.mpr (.inl (mem_of_target? leads)))

theorem has_globals (sound : e.Sound) {id : MachineId} {m : Machine} (found : e.machine? id = some m) :
    e.Has m.globals :=
  sound _ (mem_heldObjects.mpr (.inr (.inl ⟨m, mem_of_machine? found, rfl⟩)))

theorem has_held (sound : e.Sound) {id held : ObjectId} {o : Object} (found : e.object? id = some o)
    (keeps : held ∈ o.held) : e.Has held :=
  sound held (mem_heldObjects.mpr (.inr (.inr ⟨o, mem_of_object? found, keeps⟩)))

theorem knows_entry (sound : e.Sound) {id : ObjectId} {entries : Entries} {metatable : Option ObjectId}
    (found : e.object? id = some (.table entries metatable)) {entry : Datum × Datum}
    (mem : entry ∈ entries) : e.Knows entry.1 ∧ e.Knows entry.2 :=
  ⟨fun _ named => sound.has_held found (Object.mem_held_table.mpr (.inl ⟨entry, mem, .inl named⟩)),
    fun _ named => sound.has_held found (Object.mem_held_table.mpr (.inl ⟨entry, mem, .inr named⟩))⟩

/-- A live reference leads to an object that is there. -/
theorem exists_deref? (sound : e.Sound) {ref : ReferenceId} {id : ObjectId}
    (leads : e.target? ref = some id) : ∃ o, e.object? id = some o ∧ e.deref? ref = some o := by
  obtain ⟨o, found⟩ := Option.ne_none_iff_exists'.mp (sound.has_target leads)
  exact ⟨o, found, by rw [deref?, leads, Option.bind_some, found]⟩

end Sound

/-- What a chunk answers with is made for it. -/
theorem knows_chunkResults (e : Engine) (name : String) (code : Bytes) (level : UInt8) :
    ∀ d ∈ (e.chunkResults name code level).1, (e.chunkResults name code level).2.Knows d := by
  have later : ¬ e.objects.length + 1 < e.objects.length := by omega
  simp [Engine.chunkResults, Engine.allocate, Knows, RawValue.objectId?, Has, object?,
    List.getElem?_append, later]

/-! ## Evolving -/

/-- What work inside the engine does to it, but to start and to end machines, and to free objects.
Whether it may make userdata is said by `makes`. -/
structure Evolves (makes : Prop) (e e' : Engine) : Prop where
  references : Grows (Fades id) (fun _ => True) e.references e'.references
  objects : Grows (Fades Object.outline) (fun o => makes ∨ ∀ p, o ≠ some (.userdata p)) e.objects
    e'.objects
  stay : ∀ id, e.Has id → e'.Has id
  machines : e'.machines.length = e.machines.length
  stopped : e'.stopped = e.stopped
  sound : e'.Sound

variable {makes : Prop} {e e' e'' : Engine}

theorem fresh_of_fades {x y : Option Object} (fresh : makes ∨ ∀ p, x ≠ some (.userdata p))
    (faded : Fades Object.outline x y) : makes ∨ ∀ p, y ≠ some (.userdata p) := by
  refine fresh.imp_right fun other p => ?_
  rintro rfl
  obtain ⟨o, rfl, same⟩ := faded.of_some
  exact other p (congrArg some (Object.eq_of_outline_eq_userdata same))

namespace Evolves

theorem refl (sound : e.Sound) : Evolves makes e e :=
  ⟨.refl _, .refl _, fun _ => id, rfl, rfl, sound⟩

theorem trans (first : Evolves makes e e') (second : Evolves makes e' e'') : Evolves makes e e'' :=
  ⟨first.references.trans (fun _ _ => trivial) second.references,
    first.objects.trans fresh_of_fades second.objects, fun id there => second.stay id (first.stay id there),
    second.machines.trans first.machines, second.stopped.trans first.stopped, second.sound⟩

/-- Nothing but references and failures to come is different. -/
theorem of_references (sound : e.Sound)
    (references : Grows (Fades id) (fun _ => True) e.references e'.references)
    (objects : e'.objects = e.objects) (machines : e'.machines = e.machines)
    (stopped : e'.stopped = e.stopped)
    (held : ∀ id, some id ∈ e'.references → some id ∈ e.references ∨ e.Has id) :
    Evolves makes e e' := by
  have stay : ∀ id, e.Has id → e'.Has id := fun id there => by rwa [Has, object?, objects]
  refine ⟨references, objects ▸ .refl _, stay, by rw [machines], stopped, fun id mem => stay id ?_⟩
  rw [mem_heldObjects, objects, machines] at mem
  rcases mem with referred | others
  · exact (held id referred).elim (fun old => sound id (mem_heldObjects.mpr (.inl old))) fun there => there
  · exact sound id (mem_heldObjects.mpr (.inr others))

/-- Nothing but objects is different, and none goes. -/
theorem of_objects (sound : e.Sound)
    (objects : Grows (Fades Object.outline) (fun o => makes ∨ ∀ p, o ≠ some (.userdata p)) e.objects
      e'.objects)
    (references : e'.references = e.references) (machines : e'.machines = e.machines)
    (stopped : e'.stopped = e.stopped) (stay : ∀ id, e.Has id → e'.Has id)
    (held : ∀ o, some o ∈ e'.objects → some o ∈ e.objects ∨ ∀ id ∈ o.held, e.Has id) :
    Evolves makes e e' := by
  refine ⟨references ▸ .refl _, objects, stay, by rw [machines], stopped, fun id mem => stay id ?_⟩
  rw [mem_heldObjects, references, machines] at mem
  rcases mem with referred | machine | ⟨o, there, keeps⟩
  · exact sound id (mem_heldObjects.mpr (.inl referred))
  · exact sound id (mem_heldObjects.mpr (.inr (.inl machine)))
  · rcases held o there with old | known
    · exact sound id (mem_heldObjects.mpr (.inr (.inr ⟨o, old, keeps⟩)))
    · exact known id keeps

/-- Nothing but failures to come and what was lost is different. -/
theorem of_same (sound : e.Sound) (references : e'.references = e.references)
    (objects : e'.objects = e.objects) (machines : e'.machines = e.machines)
    (stopped : e'.stopped = e.stopped) : Evolves makes e e' :=
  of_references sound (references ▸ .refl _) objects machines stopped fun _ mem => .inl (references ▸ mem)

end Evolves

namespace Sound

/-! ## The parts of the functions -/

theorem failing (sound : e.Sound) (f : EngineFunction) : Evolves makes e (e.failing f).2 :=
  .of_same sound rfl rfl rfl rfl

theorem arm (sound : e.Sound) (fault : Fault) : Evolves makes e (e.arm fault) :=
  .of_same sound rfl rfl rfl rfl

theorem freeList (sound : e.Sound) (list : RawList (Option ReferenceId)) :
    Evolves makes e (e.freeList list) :=
  .of_same sound rfl rfl rfl rfl

theorem refer (sound : e.Sound) {id : ObjectId} (there : e.Has id) : Evolves makes e (e.refer id).2 := by
  refine .of_references sound (.append _ fun _ _ => trivial) rfl rfl rfl fun other mem => ?_
  rcases List.mem_append.mp mem with old | new
  · exact .inl old
  · obtain rfl := Option.some.inj (List.mem_singleton.mp new)
    exact .inr there

theorem giveBack (sound : e.Sound) (ref : ReferenceId) : Evolves makes e (e.giveBack ref) := by
  refine .of_references sound ?_ rfl rfl rfl fun id mem => ?_
  · cases found : e.references[ref]? with
    | none =>
      show Grows _ _ _ (e.references.set ref none)
      rw [List.set_eq_of_length_le (List.getElem?_eq_none_iff.mp found)]
      exact .refl _
    | some x => exact .set found (.inl rfl)
  · rcases List.mem_or_eq_of_mem_set mem with old | gone
    · exact .inl old
    · cases gone

theorem allocate (sound : e.Sound) {o : Object} (made : makes ∨ ∀ p, o ≠ .userdata p)
    (known : ∀ id ∈ o.held, e.Has id) : Evolves makes e (e.allocate o).2 := by
  refine .of_objects sound (.append _ fun o' mem => ?_) rfl rfl rfl (fun id there => ?_) fun o' mem => ?_
  · obtain rfl := List.mem_singleton.mp mem
    exact made.imp_right fun other p same => other p (Option.some.inj same)
  · obtain ⟨o', found⟩ := Option.ne_none_iff_exists'.mp there
    have bound := (List.getElem?_eq_some_iff.mp (Option.join_eq_some_iff.mp found)).1
    rwa [Has, object?, Engine.allocate, List.getElem?_append_left bound]
  · rcases List.mem_append.mp mem with old | new
    · exact .inl old
    · obtain rfl := Option.some.inj (List.mem_singleton.mp new)
      exact .inr known

theorem setObject (sound : e.Sound) {id : ObjectId} {o o' : Object} (found : e.object? id = some o)
    (same : o'.outline = o.outline) (known : ∀ id ∈ o'.held, e.Has id) :
    Evolves makes e (e.setObject id o') := by
  have there := Option.join_eq_some_iff.mp found
  have bound := (List.getElem?_eq_some_iff.mp there).1
  refine .of_objects sound (.set there (.inr (congrArg some same))) rfl rfl rfl (fun other has => ?_)
    fun o'' mem => ?_
  · by_cases equal : id = other
    · subst equal
      simp [Has, object?, Engine.setObject, bound]
    · rwa [Has, object?, Engine.setObject, List.getElem?_set_ne equal]
  · rcases List.mem_or_eq_of_mem_set mem with old | new
    · exact .inl old
    · obtain rfl := Option.some.inj new
      exact .inr known

theorem setMachine (sound : e.Sound) {id : MachineId} {m m' : Machine} (found : e.machine? id = some m)
    (same : m'.globals = m.globals) : Evolves makes e (e.setMachine id m') := by
  refine ⟨.refl _, .refl _, fun _ there => there, List.length_set, rfl, fun held mem => ?_⟩
  refine sound held ?_
  rw [mem_heldObjects] at mem ⊢
  refine mem.imp_right (Or.imp_left ?_)
  rintro ⟨m'', there, rfl⟩
  rcases List.mem_or_eq_of_mem_set there with old | new
  · exact ⟨m'', old, rfl⟩
  · obtain rfl := Option.some.inj new
    exact ⟨m, mem_of_machine? found, same.symm⟩

/-- What was made is there, so a reference to it keeps the engine sound. -/
theorem create (sound : e.Sound) {o : Object} (made : makes ∨ ∀ p, o ≠ .userdata p)
    (known : ∀ id ∈ o.held, e.Has id) : Evolves makes e (e.create o).2 := by
  have allocated : Evolves makes e (e.allocate o).2 := sound.allocate made known
  refine allocated.trans (allocated.sound.refer ?_)
  simp [Has, object?, Engine.allocate]

/-! ## Objects -/

theorem unlessFailing (sound : e.Sound) (f : EngineFunction) {act : Engine → ReferenceId × Engine}
    (evolves : ∀ e : Engine, e.Sound → Evolves makes e (act e).2) :
    Evolves makes e (e.unlessFailing f act).2 := by
  have counted : Evolves makes e (e.failing f).2 := sound.failing f
  rcases fault : e.failing f with ⟨_ | mode, e'⟩ <;> rw [fault] at counted <;>
    simp only [Engine.unlessFailing, fault]
  · exact counted.trans (evolves e' counted.sound)
  · exact counted

theorem cloneRef (sound : e.Sound) (ref : ReferenceId) : Evolves makes e (e.cloneRef ref).2 := by
  have counted : Evolves makes e (e.failing .cloneRef).2 := sound.failing _
  rcases fault : e.failing .cloneRef with ⟨_ | mode, e'⟩ <;> rw [fault] at counted <;>
    simp only [Engine.cloneRef, fault]
  · cases leads : e'.target? ref with
    | none => exact counted
    | some id => exact counted.trans (counted.sound.refer (counted.sound.has_target leads))
  · exact counted

theorem globals (sound : e.Sound) (machine : MachineId) : Evolves makes e (e.globals machine).2 := by
  have counted : Evolves makes e (e.failing .globals).2 := sound.failing _
  rcases fault : e.failing .globals with ⟨_ | mode, e'⟩ <;> rw [fault] at counted <;>
    simp only [Engine.globals, fault]
  · cases found : e'.machine? machine with
    | none => exact counted
    | some m => exact counted.trans (counted.sound.refer (counted.sound.has_globals found))
  · exact counted

theorem stringBytes (sound : e.Sound) (ref : ReferenceId) : Evolves makes e (e.stringBytes ref).2 := by
  have counted : Evolves makes e (e.failing .stringBytes).2 := sound.failing _
  rcases fault : e.failing .stringBytes with ⟨_ | mode, e'⟩ <;> rw [fault] at counted <;>
    simp only [Engine.stringBytes, fault]
  · split <;> exact counted
  · exact counted

theorem userdataPayload (sound : e.Sound) (ref : ReferenceId) :
    Evolves makes e (e.userdataPayload ref).2 := by
  have counted : Evolves makes e (e.failing .userdataPayload).2 := sound.failing _
  rcases fault : e.failing .userdataPayload with ⟨_ | mode, e'⟩ <;> rw [fault] at counted <;>
    simp only [Engine.userdataPayload, fault]
  · split <;> exact counted
  · exact counted

/-! ## Values that cross -/

theorem receive (sound : e.Sound) (c : Crossing) : Evolves makes e (e.receive c).2 := by
  cases c with
  | object kind pointer =>
    cases pointer with
    | none => exact .refl sound
    | some ref => exact sound.giveBack ref
  | _ => exact .refl sound

theorem knows_receive (sound : e.Sound) (c : Crossing) : e.Knows (e.receive c).1 := by
  cases c with
  | object kind pointer =>
    cases pointer with
    | none => nofun
    | some ref =>
      show e.Knows ((e.target? ref).elim .nil (.object kind))
      cases leads : e.target? ref with
      | none => nofun
      | some id =>
        intro other named
        obtain rfl := Option.some.inj named
        exact sound.has_target leads
  | _ => nofun

theorem receiveAll (sound : e.Sound) (list : RawList (Option ReferenceId)) :
    Evolves makes e (e.receiveAll list).2 := by
  induction list generalizing e with
  | nil => exact .refl sound
  | cons c list ih =>
    have first : Evolves makes e (e.receive c).2 := sound.receive c
    exact first.trans (ih first.sound)

theorem hand (sound : e.Sound) {d : Datum} (known : e.Knows d) : Evolves makes e (e.hand d).2 := by
  cases d with
  | object kind id => exact sound.refer (known id rfl)
  | _ => exact .refl sound

theorem handAll (sound : e.Sound) {ds : List Datum} (known : ∀ d ∈ ds, e.Knows d) :
    Evolves makes e (e.handAll ds).2 := by
  induction ds generalizing e with
  | nil => exact .refl sound
  | cons d ds ih =>
    have first : Evolves makes e (e.hand d).2 := sound.hand (known d List.mem_cons_self)
    refine first.trans (ih first.sound fun d' mem id named => first.stay id ?_)
    exact known d' (List.mem_cons_of_mem _ mem) id named

/-! ## Tables -/

theorem knows_lookup (sound : e.Sound) {fuel : Nat} {id : ObjectId} {key : Option Key} {v : Datum}
    (found : e.lookup fuel id key = some (.value v)) : e.Knows v := by
  induction fuel generalizing id key with
  | zero => cases found
  | succ fuel ih =>
    rw [lookup] at found
    split at found
    · next entries metatable there =>
      dsimp only at found
      split at found
      · split at found
        · cases found
          nofun
        · split at found
          · cases found
          · exact ih found
          · cases found
            nofun
      · cases found
        rcases Entries.get_eq_nil_or_mem e.keyOf entries key with missing | ⟨k, mem⟩
        · contradiction
        · exact (sound.knows_entry there mem).2
    · cases found

theorem tableGet (sound : e.Sound) (table : ReferenceId) (key : Crossing) :
    Evolves makes e (e.tableGet table key).2 := by
  have received : Evolves makes e (e.receive key).2 := sound.receive key
  simp only [Engine.tableGet]
  cases (e.receive key).2.target? table with
  | none => exact received
  | some id =>
    dsimp only
    split
    · next v found => exact received.trans (received.sound.hand (received.sound.knows_lookup found))
    · exact received
    · exact received

theorem tableSet (sound : e.Sound) (table : ReferenceId) (key value : Crossing) :
    Evolves makes e (e.tableSet table key value).2 := by
  have first : Evolves makes e (e.receive key).2 := sound.receive key
  have second : Evolves makes (e.receive key).2 ((e.receive key).2.receive value).2 :=
    first.sound.receive value
  simp only [Engine.tableSet]
  split
  · next id entries metatable leads found =>
    have there := object?_of_deref? leads found
    split
    · exact first.trans second
    · refine (first.trans second).trans (second.sound.setObject there rfl fun held mem => ?_)
      rcases Object.mem_held_table.mp mem with ⟨entry, stands, named⟩ | named
      · rcases Entries.mem_or_eq_of_mem_set stands with old | rfl
        · have known := second.sound.knows_entry there old
          exact named.elim (known.1 held) (known.2 held)
        · rcases named with ofKey | ofValue
          · exact second.stay held (first.stay held (sound.knows_receive key held ofKey))
          · exact second.stay held (first.sound.knows_receive value held ofValue)
      · exact second.sound.has_held there (Object.mem_held_table.mpr (.inr named))
  · exact first.trans second

theorem tablePairs (sound : e.Sound) (table : ReferenceId) :
    Evolves makes e (e.tablePairs table).2.2 := by
  have counted : Evolves makes e (e.failing .tablePairs).2 := sound.failing _
  simp only [Engine.tablePairs]
  split
  · next entries metatable found =>
    obtain ⟨id, leads, there⟩ := Option.bind_eq_some_iff.mp found
    have handed : Evolves makes e
        ((e.failing .tablePairs).2.handAll (entries.flatMap fun entry => [entry.1, entry.2])).2 := by
      refine counted.trans (counted.sound.handAll fun d mem => ?_)
      obtain ⟨entry, stands, among⟩ := List.mem_flatMap.mp mem
      have known := counted.sound.knows_entry there stands
      rcases List.mem_cons.mp among with rfl | last
      · exact known.1
      · obtain rfl := List.mem_singleton.mp last
        exact known.2
    split <;> exact handed
  · exact counted

theorem tableMetatable (sound : e.Sound) (table : ReferenceId) :
    Evolves makes e (e.tableMetatable table).2 := by
  simp only [Engine.tableMetatable]
  split
  · next entries mt found =>
    obtain ⟨id, -, there⟩ := Option.bind_eq_some_iff.mp found
    exact sound.refer (sound.has_held there (Object.mem_held_table.mpr (.inr rfl)))
  · exact .refl sound

/-- An optional reference is given back. -/
theorem elim_giveBack (sound : e.Sound) (ref : Option ReferenceId) :
    Evolves makes e (ref.elim e e.giveBack) := by
  cases ref with
  | none => exact .refl sound
  | some ref => exact sound.giveBack ref

/-- What an optional reference leads to is there. -/
theorem has_target? (sound : e.Sound) {ref : Option ReferenceId} {id : ObjectId}
    (leads : ref.bind e.target? = some id) : e.Has id := by
  obtain ⟨ref, -, leads⟩ := Option.bind_eq_some_iff.mp leads
  exact sound.has_target leads

theorem tableSetMetatable (sound : e.Sound) (table : ReferenceId) (metatable : Option ReferenceId) :
    Evolves makes e (e.tableSetMetatable table metatable).2 := by
  have received : Evolves makes e (metatable.elim e e.giveBack) := sound.elim_giveBack metatable
  have set : ∀ {id entries old},
      (metatable.elim e e.giveBack).object? id = some (.table entries old) →
      Evolves makes e
        ((metatable.elim e e.giveBack).setObject id (.table entries (metatable.bind e.target?))) := by
    intro id entries old there
    refine received.trans (received.sound.setObject there rfl fun held mem => ?_)
    rcases Object.mem_held_table.mp mem with entry | named
    · exact received.sound.has_held there (Object.mem_held_table.mpr (.inl entry))
    · exact received.stay held (sound.has_target? named)
  simp only [Engine.tableSetMetatable]
  split
  · next id entries old leads found =>
    have there := object?_of_deref? leads found
    split
    · exact set there
    · exact set there
    · exact received
  · exact received

/-! ## Chunks, settings and buffers -/

theorem loadChunk (sound : e.Sound) (machine : MachineId) (chunk : RawChunk) :
    Evolves makes e (e.loadChunk machine chunk).2.2 := by
  have counted : Evolves makes e (e.failing .loadChunk).2 := sound.failing _
  have second : Evolves makes (e.failing .loadChunk).2
      (chunk.environment.elim (e.failing .loadChunk).2 (e.failing .loadChunk).2.giveBack) :=
    counted.sound.elim_giveBack chunk.environment
  have received := counted.trans second
  simp only [Engine.loadChunk]
  split
  · exact received
  · split
    · exact received
    · refine received.trans (second.sound.create (.inr nofun) fun held mem => ?_)
      exact second.stay held (counted.sound.has_target? (Option.mem_toList.mp mem))

theorem chunkResults (sound : e.Sound) (name : String) (code : Bytes) (level : UInt8) :
    Evolves makes e (e.chunkResults name code level).2 := by
  have first : Evolves makes e (e.allocate (.string (Utf8.ofString name))).2 :=
    sound.allocate (.inr nofun) nofun
  exact first.trans (first.sound.allocate (.inr nofun) nofun)

theorem functionEnvironment (sound : e.Sound) (function : ReferenceId) :
    Evolves makes e (e.functionEnvironment function).2 := by
  simp only [Engine.functionEnvironment]
  split
  · next body environment found =>
    obtain ⟨id, -, there⟩ := Option.bind_eq_some_iff.mp found
    exact sound.refer (sound.has_held there (Option.mem_toList.mpr rfl))
  · exact .refl sound

theorem setCompiler (sound : e.Sound) (machine : MachineId) (record : CompilerRecord) :
    Evolves makes e (e.setCompiler machine record) := by
  unfold Engine.setCompiler
  split
  · exact .refl sound
  · next m found => exact sound.setMachine found rfl

theorem setInterrupt (sound : e.Sound) (machine : MachineId) (callback : Option CallbackId) :
    Evolves makes e (e.setInterrupt machine callback) := by
  unfold Engine.setInterrupt
  split
  · exact .refl sound
  · next m found => exact sound.setMachine found rfl

theorem bufferWrite (sound : e.Sound) (buffer : ReferenceId) (offset : Nat) (data : Bytes) :
    Evolves makes e (e.bufferWrite buffer offset data).2 := by
  unfold Engine.bufferWrite
  split
  · next id bytes leads found =>
    cases rangePanic? offset data.length bytes.length with
    | none => exact sound.setObject (object?_of_deref? leads found) rfl nofun
    | some p => exact .refl sound
  · exact .refl sound

/-! ## Machines -/

/-- A machine that starts keeps alive what was made for it. -/
theorem start (sound : e.Sound) : e.start.2.Sound := by
  have allocated : Evolves False e (e.allocate .emptyTable).2 := sound.allocate (.inr nofun) nofun
  intro id mem
  rw [mem_heldObjects] at mem
  rcases mem with referred | ⟨m, there, rfl⟩ | keeps
  · exact allocated.sound id (mem_heldObjects.mpr (.inl referred))
  · rcases List.mem_append.mp there with old | new
    · exact allocated.sound _ (mem_heldObjects.mpr (.inr (.inl ⟨m, old, rfl⟩)))
    · obtain rfl := Option.some.inj (List.mem_singleton.mp new)
      simp [Has, object?, Engine.start, Engine.allocate]
  · exact allocated.sound id (mem_heldObjects.mpr (.inr (.inr keeps)))

/-- A machine that ends keeps nothing alive. -/
theorem stop (sound : e.Sound) (machine : MachineId) : (e.stop machine).Sound := by
  intro id mem
  refine sound id (mem_heldObjects.mpr ((mem_heldObjects.mp mem).imp_right (Or.imp_left ?_)))
  rintro ⟨m, there, rfl⟩
  rcases List.mem_or_eq_of_mem_set there with old | gone
  · exact ⟨m, old, rfl⟩
  · cases gone

theorem foldl_stop (sound : e.Sound) (ended : List MachineId) : (ended.foldl Engine.stop e).Sound := by
  induction ended generalizing e with
  | nil => exact sound
  | cons machine ended ih => exact ih (sound.stop machine)

end Sound

/-- Ending machines is nothing to references and objects. -/
theorem foldl_stop (ended : List MachineId) (e : Engine) :
    (ended.foldl stop e).references = e.references ∧ (ended.foldl stop e).objects = e.objects ∧
      (ended.foldl stop e).machines.length = e.machines.length ∧
      (ended.foldl stop e).stopped = ended.reverse ++ e.stopped := by
  induction ended generalizing e with
  | nil => exact ⟨rfl, rfl, rfl, rfl⟩
  | cons machine ended ih =>
    obtain ⟨references, objects, machines, stopped⟩ := ih (e.stop machine)
    refine ⟨references, objects, machines.trans List.length_set, ?_⟩
    rw [List.foldl_cons, stopped, List.reverse_cons, List.append_assoc]
    rfl

end Engine
end ScriptHost

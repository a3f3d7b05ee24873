/-
The balance of the engine's references: each one it handed out is either out there once, and leads to
an object, or was given back once, or was lost once with a list that was freed. Every function of the
engine says what it takes of the references that are out and what it hands out for them
(`Engine.Trades`).
-/
import ScriptHost.Engine.Functions

namespace ScriptHost

/-! ## What crosses -/

@[simp] theorem RawList.carried_cons (c : Crossing) (list : RawList (Option ReferenceId)) :
    RawList.carried (c :: list) = c.carried ++ RawList.carried list := rfl

@[simp] theorem RawList.carried_append (list list' : RawList (Option ReferenceId)) :
    RawList.carried (list ++ list') = RawList.carried list ++ RawList.carried list' :=
  List.flatMap_append

/-- The references there are after something that may fail. -/
def orLeft {ε α : Type} (left : List ReferenceId) (given : α → List ReferenceId) :
    Except ε α → List ReferenceId
  | .ok a => given a
  | .error _ => left

namespace Engine

/-! ## Balance -/

/-- Every reference that was handed out is out, or was lost with a list, or was given back, and is so
once; unless it was given back it leads to an object or to where one was. The engine has no callbacks but
`calls`, and without a callback nothing is lost. -/
structure Balanced (e : Engine) (calls : CallbackId → Prop) (out : List ReferenceId) : Prop where
  accounted : (out ++ (e.leaked ++ e.returned)).Perm (List.range e.references.length)
  live : ∀ ref ∈ out, e.target? ref ≠ none
  lost : ∀ ref ∈ e.leaked, e.target? ref ≠ none
  gone : ∀ ref ∈ e.returned, e.target? ref = none
  functions : ∀ o, some o ∈ e.objects → ∀ c ∈ o.callback?, calls c
  interrupts : ∀ m, some m ∈ e.machines → ∀ c ∈ m.interrupt, calls c
  leaks : (∀ c, ¬ calls c) → e.leaked = []

theorem lt_of_target? {e : Engine} {ref : ReferenceId} {id : ObjectId}
    (there : e.target? ref = some id) : ref < e.references.length :=
  (List.getElem?_eq_some_iff.mp (Option.join_eq_some_iff.mp there)).1

/-- A new reference changes nothing about those there were. -/
theorem target?_refer (e : Engine) (id : ObjectId) {ref : ReferenceId}
    (old : ref < e.references.length) : (e.refer id).2.target? ref = e.target? ref := by
  simp only [target?, refer, List.getElem?_append_left old]

/-- No callback at all. -/
abbrev NoCall : CallbackId → Prop := fun _ => False

theorem calls_of_quiet {calls : CallbackId → Prop} {o : Object} (quiet : o.callback? = none) :
    ∀ c ∈ o.callback?, calls c := by
  rw [quiet]
  nofun

namespace Balanced

variable {calls : CallbackId → Prop} {e : Engine} {out : List ReferenceId} {ref : ReferenceId}

theorem perm {out' : List ReferenceId} (h : e.Balanced calls out) (same : out.Perm out') :
    e.Balanced calls out' :=
  { h with
    accounted := (same.symm.append_right _).trans h.accounted
    live := fun ref mem => h.live ref (same.mem_iff.mpr mem) }

theorem empty (faults : List Fault) : ({ faults } : Engine).Balanced calls [] where
  accounted := .refl _
  live _ mem := nomatch mem
  lost _ mem := nomatch mem
  gone _ mem := nomatch mem
  functions _ mem := nomatch mem
  interrupts _ mem := nomatch mem
  leaks _ := rfl

theorem leaked_eq_nil (h : e.Balanced NoCall out) : e.leaked = [] :=
  h.leaks fun _ => id

/-- Without callbacks every reference is out or was given back, and is so once. -/
theorem once (h : e.Balanced NoCall out) :
    (out ++ e.returned).Perm (List.range e.references.length) := by
  have accounted := h.accounted
  rwa [h.leaked_eq_nil, List.nil_append] at accounted

/-- Nothing but references counts, as long as no other callback comes in. -/
theorem of_references {e' : Engine} (h : e.Balanced calls out)
    (references : e'.references = e.references) (returned : e'.returned = e.returned)
    (leaked : e'.leaked = e.leaked)
    (functions : ∀ o, some o ∈ e'.objects → some o ∈ e.objects ∨ ∀ c ∈ o.callback?, calls c)
    (interrupts : ∀ m, some m ∈ e'.machines → some m ∈ e.machines ∨ ∀ c ∈ m.interrupt, calls c) :
    e'.Balanced calls out where
  accounted := by
    rw [references, returned, leaked]
    exact h.accounted
  live ref mem := by
    rw [target?, references]
    exact h.live ref mem
  lost ref mem := by
    rw [target?, references]
    exact h.lost ref (leaked ▸ mem)
  gone ref mem := by
    rw [target?, references]
    exact h.gone ref (returned ▸ mem)
  functions o mem := (functions o mem).elim (h.functions o) id
  interrupts m mem := (interrupts m mem).elim (h.interrupts m) id
  leaks none := leaked.trans (h.leaks none)

theorem lt_of_mem (h : e.Balanced calls out) (mem : ref ∈ out ++ (e.leaked ++ e.returned)) :
    ref < e.references.length :=
  List.mem_range.mp (h.accounted.mem_iff.mp mem)

theorem nodup (h : e.Balanced calls out) : (out ++ (e.leaked ++ e.returned)).Nodup :=
  h.accounted.nodup_iff.mpr List.nodup_range

/-- Each reference was given back once, unless it is out or was lost. -/
theorem count_returned (h : e.Balanced calls out) (known : ref < e.references.length) :
    e.returned.count ref = if ref ∈ out ++ e.leaked then 0 else 1 := by
  have once : ((out ++ e.leaked) ++ e.returned).count ref = 1 := by
    rw [List.append_assoc, h.accounted.count_eq, List.count_range, if_pos known]
  rw [List.count_append] at once
  split
  · next still =>
    have := List.count_pos_iff.mpr still
    omega
  · next gone => rwa [List.count_eq_zero.mpr gone, Nat.zero_add] at once

/-- The references that were not given back are those that are out, or were lost. -/
theorem target?_ne_none (h : e.Balanced calls out) :
    e.target? ref ≠ none ↔ ref ∈ out ∨ ref ∈ e.leaked := by
  constructor
  · intro there
    obtain ⟨id, leads⟩ := Option.ne_none_iff_exists'.mp there
    have mem := h.accounted.mem_iff.mpr (List.mem_range.mpr (lt_of_target? leads))
    rcases List.mem_append.mp mem with mem | mem
    · exact .inl mem
    · rcases List.mem_append.mp mem with mem | mem
      · exact .inr mem
      · exact absurd (h.gone ref mem) there
  · rintro (mem | mem)
    · exact h.live ref mem
    · exact h.lost ref mem

theorem callback?_of_deref? (h : e.Balanced calls out) {o : Object} (found : e.deref? ref = some o) :
    ∀ c ∈ o.callback?, calls c := by
  obtain ⟨id, -, found⟩ := Option.bind_eq_some_iff.mp found
  exact h.functions o (List.mem_of_getElem? (Option.join_eq_some_iff.mp found))

theorem interrupt_of_machine? (h : e.Balanced calls out) {id : MachineId} {m : Machine}
    (found : e.machine? id = some m) : ∀ c ∈ m.interrupt, calls c :=
  h.interrupts m (List.mem_of_getElem? (Option.join_eq_some_iff.mp found))

/-- The references to an object that were not given back are those that are out, or were lost. -/
theorem count_references (h : e.Balanced calls out) (id : ObjectId) :
    e.references.count (some id) =
      (out ++ e.leaked).countP fun ref => e.target? ref = some id := by
  have targets : e.references = (List.range e.references.length).map e.target? := by
    refine List.ext_getElem (by simp) fun ref bound _ => ?_
    simp [target?, bound]
  have none_gone : e.returned.countP (fun ref => e.target? ref = some id) = 0 := by
    refine List.countP_eq_zero.mpr fun ref mem => ?_
    simp [h.gone ref mem]
  have all : e.references.count (some id) =
      (List.range e.references.length).countP fun ref => e.target? ref = some id := by
    rw [targets, List.count, List.countP_map, ← targets]
    exact List.countP_congr fun ref _ => by simp
  rw [all, ← h.accounted.countP_eq, ← List.append_assoc, List.countP_append, none_gone, Nat.add_zero]

/-- A new reference is out. -/
theorem refer (h : e.Balanced calls out) (id : ObjectId) :
    (e.refer id).2.Balanced calls ((e.refer id).1 :: out) := by
  have target : ∀ ref < e.references.length, (e.refer id).2.target? ref = e.target? ref :=
    fun ref => e.target?_refer id
  have before : ∀ ref ∈ out ++ (e.leaked ++ e.returned), ref < e.references.length :=
    fun _ => h.lt_of_mem
  refine ⟨?_, fun ref mem => ?_, fun ref mem => ?_, fun ref mem => ?_, h.functions, h.interrupts,
    h.leaks⟩
  · have last : List.range (e.refer id).2.references.length =
        List.range e.references.length ++ [e.references.length] := by
      simp [Engine.refer, List.range_succ]
    rw [last]
    exact (List.perm_append_singleton _ _).symm.trans (h.accounted.append_right _)
  · rcases List.mem_cons.mp mem with rfl | mem
    · simp [target?, Engine.refer]
    · rw [target ref (before ref (List.mem_append_left _ mem))]
      exact h.live ref mem
  · rw [target ref (before ref (List.mem_append_right _ (List.mem_append_left _ mem)))]
    exact h.lost ref mem
  · rw [target ref (before ref (List.mem_append_right _ (List.mem_append_right _ mem)))]
    exact h.gone ref mem

/-- A reference that was out is given back. -/
theorem giveBack (h : e.Balanced calls (ref :: out)) : (e.giveBack ref).Balanced calls out := by
  have nodup : (ref :: (out ++ (e.leaked ++ e.returned))).Nodup := h.nodup
  have target : ∀ other ≠ ref, (e.giveBack ref).target? other = e.target? other := by
    intro other differs
    simp only [target?, Engine.giveBack, List.getElem?_set_ne differs.symm]
  have differs : ∀ other ∈ out ++ (e.leaked ++ e.returned), other ≠ ref := by
    rintro other mem rfl
    exact (List.nodup_cons.mp nodup).1 mem
  refine ⟨?_, fun other mem => ?_, fun other mem => ?_, fun other mem => ?_, h.functions,
    h.interrupts, h.leaks⟩
  · simp only [Engine.giveBack, List.length_set]
    have moved : (e.leaked ++ ref :: e.returned).Perm (ref :: (e.leaked ++ e.returned)) :=
      List.perm_middle
    exact ((moved.append_left out).trans List.perm_middle).trans h.accounted
  · rw [target other (differs other (List.mem_append_left _ mem))]
    exact h.live other (List.mem_cons_of_mem _ mem)
  · rw [target other (differs other (List.mem_append_right _ (List.mem_append_left _ mem)))]
    exact h.lost other mem
  · rcases List.mem_cons.mp mem with rfl | before
    · have bound := h.lt_of_mem (List.mem_append_left _ List.mem_cons_self)
      simp [target?, Engine.giveBack, bound]
    · rw [target other (differs other (List.mem_append_right _ (List.mem_append_right _ before)))]
      exact h.gone other before

/-- A list that is freed loses what it carries. -/
theorem freeList {list : RawList (Option ReferenceId)} {c : CallbackId} (call : calls c)
    (h : e.Balanced calls (RawList.carried list ++ out)) : (e.freeList list).Balanced calls out := by
  refine ⟨?_, fun ref mem => h.live ref (List.mem_append_right _ mem), fun ref mem => ?_, h.gone,
    h.functions, h.interrupts, fun none => absurd call (none c)⟩
  · have accounted := h.accounted
    rw [List.append_assoc] at accounted
    rw [show (e.freeList list).leaked = RawList.carried list ++ e.leaked from rfl, List.append_assoc]
    exact (List.perm_append_comm_assoc _ _ _).trans accounted
  · rcases List.mem_append.mp mem with new | before
    · exact h.live ref (List.mem_append_left _ new)
    · exact h.lost ref before

theorem failing (h : e.Balanced calls out) (f : EngineFunction) : (e.failing f).2.Balanced calls out :=
  h.of_references rfl rfl rfl (fun _ => .inl) (fun _ => .inl)

theorem arm (h : e.Balanced calls out) (fault : Fault) : (e.arm fault).Balanced calls out :=
  h.of_references rfl rfl rfl (fun _ => .inl) (fun _ => .inl)

theorem allocate (h : e.Balanced calls out) {o : Object} (known : ∀ c ∈ o.callback?, calls c) :
    (e.allocate o).2.Balanced calls out := by
  refine h.of_references rfl rfl rfl (fun o' mem => ?_) (fun _ => .inl)
  rcases List.mem_append.mp mem with old | new
  · exact .inl old
  · obtain rfl : o' = o := by simpa using new
    exact .inr known

theorem setObject (h : e.Balanced calls out) {o : Object} (known : ∀ c ∈ o.callback?, calls c)
    (id : ObjectId) : (e.setObject id o).Balanced calls out := by
  refine h.of_references rfl rfl rfl (fun o' mem => ?_) (fun _ => .inl)
  rcases List.mem_or_eq_of_mem_set mem with old | new
  · exact .inl old
  · obtain rfl : o' = o := Option.some.inj new
    exact .inr known

theorem start (h : e.Balanced calls out) : e.start.2.Balanced calls out := by
  have allocated : (e.allocate .emptyTable).2.Balanced calls out := h.allocate (calls_of_quiet rfl)
  refine allocated.of_references rfl rfl rfl (fun _ => .inl) (fun m mem => ?_)
  rcases List.mem_append.mp mem with old | new
  · exact .inl old
  · obtain rfl := Option.some.inj (List.mem_singleton.mp new)
    exact .inr nofun

theorem stop (h : e.Balanced calls out) (id : MachineId) : (e.stop id).Balanced calls out := by
  refine h.of_references rfl rfl rfl (fun _ => .inl) (fun m mem => ?_)
  rcases List.mem_or_eq_of_mem_set mem with old | new
  · exact .inl old
  · cases new

theorem freeUnheld (h : e.Balanced calls out) : e.freeUnheld.Balanced calls out := by
  refine h.of_references rfl rfl rfl (fun o mem => ?_) (fun _ => .inl)
  obtain ⟨id, bound, freed⟩ := List.mem_mapIdx.mp mem
  split at freed
  · exact .inl (freed ▸ List.getElem_mem bound)
  · cases freed

end Balanced

/-! ## Trades -/

/-- The references of `taken` go into the engine, and those of `given` come out for them, whatever else
is out. -/
def Trades {α : Type} (calls : CallbackId → Prop) (taken : List ReferenceId)
    (work : Engine → α × Engine) (given : α → List ReferenceId) : Prop :=
  ∀ e out, e.Balanced calls (taken ++ out) → (work e).2.Balanced calls (given (work e).1 ++ out)

variable {calls : CallbackId → Prop}

theorem giveBack_trades (ref : ReferenceId) :
    Trades calls [ref] (fun e => ((), e.giveBack ref)) fun _ => [] :=
  fun _ _ h => h.giveBack

theorem create_trades {o : Object} (known : ∀ c ∈ o.callback?, calls c) :
    Trades calls [] (·.create o) fun ref => [ref] :=
  fun _ _ h => (h.allocate known).refer _

theorem unlessFailing_trades (f : EngineFunction) {act : Engine → ReferenceId × Engine}
    (traded : Trades calls [] act fun ref => [ref]) :
    Trades calls [] (·.unlessFailing f act) fun ref => ref.toList := by
  intro e out h
  have counted := h.failing f
  rcases fault : e.failing f with ⟨_ | mode, e'⟩ <;> rw [fault] at counted <;>
    simp only [unlessFailing, fault]
  · exact traded e' out counted
  · exact counted

theorem cloneRef_trades (ref : ReferenceId) :
    Trades calls [] (·.cloneRef ref) fun ref => ref.toList := by
  intro e out h
  have counted := h.failing .cloneRef
  rcases fault : e.failing .cloneRef with ⟨_ | mode, e'⟩ <;> rw [fault] at counted <;>
    simp only [cloneRef, fault]
  · cases e'.target? ref with
    | none => exact counted
    | some id => exact counted.refer id
  · exact counted

theorem globals_trades (machine : MachineId) :
    Trades calls [] (·.globals machine) fun ref => ref.toList := by
  intro e out h
  have counted := h.failing .globals
  rcases fault : e.failing .globals with ⟨_ | mode, e'⟩ <;> rw [fault] at counted <;>
    simp only [globals, fault]
  · cases e'.machine? machine with
    | none => exact counted
    | some m => exact counted.refer m.globals
  · exact counted

/-! ### Values that cross -/

theorem receive_trades (c : Crossing) : Trades calls c.carried (·.receive c) fun _ => [] := by
  intro e out h
  cases c with
  | object kind pointer =>
    cases pointer with
    | none => exact h
    | some ref => exact h.giveBack
  | _ => exact h

theorem receiveAll_trades (list : RawList (Option ReferenceId)) :
    Trades calls (RawList.carried list) (·.receiveAll list) fun _ => [] := by
  induction list with
  | nil => exact fun _ _ h => h
  | cons c list ih =>
    intro e out h
    rw [RawList.carried_cons, List.append_assoc] at h
    exact ih _ _ (receive_trades c _ _ h)

theorem hand_trades (d : Datum) : Trades calls [] (·.hand d) RawValue.carried := by
  intro e out h
  cases d with
  | object kind id => exact h.refer id
  | _ => exact h

theorem handAll_trades (ds : List Datum) : Trades calls [] (·.handAll ds) RawList.carried := by
  induction ds with
  | nil => exact fun _ _ h => h
  | cons d ds ih =>
    intro e out h
    have first := hand_trades d e out h
    have rest := ih (e.hand d).2 _ first
    have both : RawList.carried (e.handAll (d :: ds)).1 =
        (e.hand d).1.carried ++ RawList.carried ((e.hand d).2.handAll ds).1 := rfl
    show (e.handAll (d :: ds)).2.Balanced calls (RawList.carried (e.handAll (d :: ds)).1 ++ out)
    rw [both, List.append_assoc]
    exact rest.perm (List.perm_append_comm_assoc _ _ _)

/-! ### Tables -/

theorem tableGet_trades (table : ReferenceId) (key : Crossing) :
    Trades calls key.carried (·.tableGet table key) (orLeft [] RawValue.carried) := by
  intro e out h
  have received := receive_trades key e out h
  simp only [tableGet]
  cases (e.receive key).2.target? table with
  | none => exact received
  | some id =>
    dsimp only
    split
    · exact hand_trades _ _ _ received
    · exact received
    · exact received

theorem tableSet_trades (table : ReferenceId) (key value : Crossing) :
    Trades calls (key.carried ++ value.carried) (·.tableSet table key value)
      (orLeft [] fun _ => []) := by
  intro e out h
  rw [List.append_assoc] at h
  have received := receive_trades value _ _ (receive_trades key e _ h)
  simp only [tableSet]
  split
  · split
    · exact received
    · exact received.setObject (calls_of_quiet rfl) _
  · exact received

theorem tablePairs_trades (table : ReferenceId) :
    Trades calls []
      (fun e =>
        let pushed := e.tablePairs table
        ((pushed.1, pushed.2.1), pushed.2.2))
      fun pushed => RawList.carried pushed.1 := by
  intro e out h
  have counted := h.failing .tablePairs
  simp only [tablePairs]
  split
  · have handed := fun ds => handAll_trades ds _ _ counted
    split
    · exact handed _
    · simp only [RawList.carried_append]
      have odd : RawList.carried [.boolean true] = [] := rfl
      rw [odd, List.append_nil]
      exact handed _
    · exact handed _
  · exact counted

theorem tableMetatable_trades (table : ReferenceId) :
    Trades calls [] (·.tableMetatable table) fun ref => ref.toList := by
  intro e out h
  simp only [tableMetatable]
  split
  · exact h.refer _
  · exact h

/-- An optional reference is given back. -/
theorem elim_giveBack_trades (ref : Option ReferenceId) :
    Trades calls ref.toList (fun e => ((), ref.elim e e.giveBack)) fun _ => [] := by
  intro e out h
  cases ref with
  | none => exact h
  | some ref => exact h.giveBack

theorem tableSetMetatable_trades (table : ReferenceId) (metatable : Option ReferenceId) :
    Trades calls metatable.toList (·.tableSetMetatable table metatable) (orLeft [] fun _ => []) := by
  intro e out h
  have received := elim_giveBack_trades metatable e out h
  simp only [tableSetMetatable]
  split
  · split
    · exact received.setObject (calls_of_quiet rfl) _
    · exact received.setObject (calls_of_quiet rfl) _
    · exact received
  · exact received

/-! ### Chunks -/

theorem loadChunk_trades (machine : MachineId) (chunk : RawChunk) :
    Trades calls chunk.environment.toList
      (fun e =>
        let loaded := e.loadChunk machine chunk
        ((loaded.1, loaded.2.1), loaded.2.2))
      fun loaded => loaded.1.toList := by
  intro e out h
  have counted : (e.failing .loadChunk).2.Balanced calls (chunk.environment.toList ++ out) := h.failing _
  have received := elim_giveBack_trades chunk.environment _ out counted
  simp only [loadChunk]
  split
  · exact received
  · split
    · exact received
    · exact create_trades (o := .function (.chunk _ _ _) _) (calls_of_quiet rfl) _ _ received

theorem chunkResults_trades (name : String) (code : Bytes) (level : UInt8) :
    Trades calls [] (·.chunkResults name code level) fun _ => [] :=
  fun _ _ h => (h.allocate (o := .string _) (calls_of_quiet rfl)).allocate (o := .string _)
    (calls_of_quiet rfl)

theorem functionEnvironment_trades (function : ReferenceId) :
    Trades calls [] (·.functionEnvironment function) fun ref => ref.toList := by
  intro e out h
  simp only [functionEnvironment]
  split
  · exact h.refer _
  · exact h

end Engine
end ScriptHost

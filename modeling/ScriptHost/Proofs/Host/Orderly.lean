/-
What is in order while uses are under way (`Usage.Orderly`): the state is valid and balanced, what is used
is open, and as many guards and borrows are noted as there are uses. Every step keeps this
(`Usage.Step.orderly`), so that it holds of all that can be reached (`Usage.Reachable.orderly`).
-/
import ScriptHost.Proofs.Host.LettingGo
import ScriptHost.Proofs.Host.Usage

namespace ScriptHost

open Engine (AnyCall)

namespace HostState

variable {makes : Prop} {s t : HostState} {loose : List ReferenceId}

/-! ## Guards and borrows that are noted -/

def vmReaders (s : HostState) (vm : VmId) : Nat :=
  (s.vms[vm]?).elim 0 (·.lock.readers)

def objectReaders (s : HostState) (object : HandleId) : Nat :=
  (s.wrappers[object]?).elim 0 (·.lock.readers)

def borrowing (s : HostState) (p : PayloadId) : Borrowing :=
  (s.payloads[p]?).elim (.shared 0) (·.borrowing)

/-- Every payload is in one object at most, for which it was made before. -/
structure Placed (s : HostState) : Prop where
  once : ∀ {p : PayloadId} {id id' : ObjectId}, s.engine.object? id = some (.userdata p) →
    s.engine.object? id' = some (.userdata p) → id = id'
  made : ∀ {p : PayloadId} {id : ObjectId}, s.engine.object? id = some (.userdata p) →
    p < s.payloads.length

theorem mem_armed_of_reference? {object : HandleId} {ref : ReferenceId}
    (armed : s.reference? object = some ref) : ref ∈ s.armed := by
  obtain ⟨w, found, pointer⟩ := Option.bind_eq_some_iff.mp armed
  exact List.mem_filterMap.mpr ⟨w, List.mem_of_getElem? found, pointer⟩

/-- No two wrappers are armed with one reference. -/
theorem reference?_inj (distinct : s.armed.Nodup) {a b : HandleId} {ref : ReferenceId}
    (armed : s.reference? a = some ref) (armed' : s.reference? b = some ref) : a = b := by
  have apart := List.pairwise_iff_getElem.mp (List.pairwise_filterMap.mp distinct)
  obtain ⟨w, found, pointer⟩ := Option.bind_eq_some_iff.mp armed
  obtain ⟨w', found', pointer'⟩ := Option.bind_eq_some_iff.mp armed'
  obtain ⟨bound, rfl⟩ := List.getElem?_eq_some_iff.mp found
  obtain ⟨bound', rfl⟩ := List.getElem?_eq_some_iff.mp found'
  rcases Nat.lt_trichotomy a b with less | same | more
  · exact absurd rfl (apart a b bound bound' less ref pointer ref pointer')
  · exact same
  · exact absurd rfl (apart b a bound' bound more ref pointer' ref pointer)

theorem Balanced.nodup_armed {calls : CallbackId → Prop} (balanced : s.Balanced calls loose) : s.armed.Nodup :=
  (List.nodup_append.mp (List.nodup_append.mp balanced.engine.nodup).1).1

/-- The reference of an armed wrapper was not given back. -/
theorem Balanced.live_of_reference? {calls : CallbackId → Prop} (balanced : s.Balanced calls loose)
    {object : HandleId} {ref : ReferenceId} (armed : s.reference? object = some ref) :
    s.engine.target? ref ≠ none :=
  balanced.engine.live ref (List.mem_append_left _ (mem_armed_of_reference? armed))

/-! ## After work that gives back its guards -/

namespace Evolves

theorem vmReaders (evolves : s.Evolves makes t) (vm : VmId) : t.vmReaders vm = s.vmReaders vm :=
  evolves.vms.elim_eq (fun follows => follows.lock.readers) id vm

theorem objectReaders (evolves : s.Evolves makes t) (object : HandleId) :
    t.objectReaders object = s.objectReaders object :=
  evolves.wrappers.elim_eq (fun follows => follows.lock.readers) id object

theorem borrowing (evolves : s.Evolves makes t) (p : PayloadId) : t.borrowing p = s.borrowing p :=
  evolves.payloads.elim_eq (fun follows => follows.borrowing) id p

/-- A VM that is read stays open. -/
theorem machine?_of_read (evolves : s.Evolves makes t) {vm : VmId} (read : s.vmReaders vm ≠ 0) :
    t.machine? vm = s.machine? vm := by
  cases found : s.vms[vm]? with
  | none => simp [HostState.vmReaders, found] at read
  | some v =>
    obtain ⟨v', there, follows⟩ := evolves.vms.old found
    rw [machine?, machine?, found, there]
    exact follows.lock.pointer_of_readers (by simpa [HostState.vmReaders, found] using read)

/-- A wrapper that is read stays armed. -/
theorem reference?_of_read (evolves : s.Evolves makes t) {object : HandleId}
    (read : s.objectReaders object ≠ 0) : t.reference? object = s.reference? object := by
  cases found : s.wrappers[object]? with
  | none => simp [HostState.objectReaders, found] at read
  | some w =>
    obtain ⟨w', there, follows⟩ := evolves.wrappers.old found
    rw [reference?, reference?, found, there]
    exact follows.lock.pointer_of_readers (by simpa [HostState.objectReaders, found] using read)

/-- A VM has the machine that it had, or is closed. -/
theorem machine?_or (evolves : s.Evolves makes t) {vm : VmId} (known : vm < s.vms.length) :
    t.machine? vm = s.machine? vm ∨ t.machine? vm = none := by
  have found := List.getElem?_eq_getElem known
  obtain ⟨v', there, follows⟩ := evolves.vms.old found
  rw [machine?, machine?, there, found]
  exact follows.lock.pointer.imp_right And.left

/-- A wrapper has the reference that it had, or is closed. -/
theorem reference?_or (evolves : s.Evolves makes t) {object : HandleId} (known : object < s.wrappers.length) :
    t.reference? object = s.reference? object ∨ t.reference? object = none := by
  have found := List.getElem?_eq_getElem known
  obtain ⟨w', there, follows⟩ := evolves.wrappers.old found
  rw [reference?, reference?, there, found]
  exact follows.lock.pointer.imp_right And.left

theorem vmOf?_of_some (evolves : s.Evolves makes t) {object : HandleId} {vm : VmId}
    (isFor : s.vmOf? object = some vm) : t.vmOf? object = some vm := by
  obtain ⟨w, found, rfl⟩ := Option.map_eq_some_iff.mp isFor
  obtain ⟨w', there, follows⟩ := evolves.wrappers.old found
  rw [vmOf?, there, Option.map_some, follows.vm]

theorem target?_of_live (evolves : s.Evolves makes t) {ref : ReferenceId} {id : ObjectId}
    (leads : s.engine.target? ref = some id) (live : t.engine.target? ref ≠ none) :
    t.engine.target? ref = some id := by
  obtain ⟨id', leads', rfl⟩ := evolves.references.of_live leads live
  exact leads'

/-- What was given back stays so. -/
theorem target?_of_gone (evolves : s.Evolves makes t) {ref : ReferenceId}
    (known : ref < s.engine.references.length) (gone : s.engine.target? ref = none) :
    t.engine.target? ref = none :=
  evolves.references.of_gone known gone

/-- A userdata is still there while a wrapper is armed that leads to it. -/
theorem deref?_userdata (evolves : s.Evolves makes t) (balanced : t.Balanced AnyCall loose)
    {object : HandleId} {ref : ReferenceId} {p : PayloadId} (armed : t.reference? object = some ref)
    (found : s.engine.deref? ref = some (.userdata p)) :
    t.engine.deref? ref = some (.userdata p) := by
  obtain ⟨id, leads, there⟩ := Option.bind_eq_some_iff.mp found
  have leads' := evolves.target?_of_live leads (balanced.live_of_reference? armed)
  obtain ⟨o, there', outline⟩ := evolves.objects.of_live there (evolves.valid.sound.has_target leads')
  rw [Engine.deref?, leads', Option.bind_some, ← Object.eq_of_outline_eq_userdata outline]
  exact there'

/-- Without new userdata no payload comes into another object. -/
theorem object?_userdata (evolves : s.Evolves False t) {id : ObjectId} {p : PayloadId}
    (there : t.engine.object? id = some (.userdata p)) : s.engine.object? id = some (.userdata p) := by
  rcases evolves.objects.before (Option.join_eq_some_iff.mp there) with ⟨x, old, faded⟩ | ⟨-, other⟩
  · obtain ⟨o, rfl, outline⟩ := faded.of_some
    rw [Engine.object?, old, Option.join_some, Object.eq_of_outline_eq_userdata outline]
  · exact absurd rfl (other.resolve_left not_false p)

theorem placed (evolves : s.Evolves False t) (placed : s.Placed) : t.Placed where
  once there there' := placed.once (evolves.object?_userdata there) (evolves.object?_userdata there')
  made there :=
    Nat.lt_of_lt_of_le (placed.made (evolves.object?_userdata there)) evolves.payloads.length_le

end Evolves

/-! ## When only guards and borrows change -/

/-- What counts of a wrapper besides its guards. -/
def lookWrapper (w : Wrapper) : VmId × HandleKind × Option ReferenceId :=
  (w.vm, w.lock.kind, w.lock.pointer)

/-- The same but for guards and what payloads hold. -/
structure Alike (s t : HostState) : Prop where
  engine : t.engine = s.engine
  vms : t.vms.map Valid.look = s.vms.map Valid.look
  wrappers : t.wrappers.map lookWrapper = s.wrappers.map lookWrapper
  callbacks : t.callbacks = s.callbacks
  payloads : t.payloads.map (·.data.type) = s.payloads.map (·.data.type)

namespace Alike

theorem readVm (s : HostState) (vm : VmId) : s.Alike (s.readVm vm) :=
  ⟨rfl, map_modify_of_same (fun _ => by rfl) _ _, rfl, rfl, rfl⟩

theorem unreadVm (s : HostState) (vm : VmId) : s.Alike (s.unreadVm vm) :=
  ⟨rfl, map_modify_of_same (fun _ => by rfl) _ _, rfl, rfl, rfl⟩

theorem readObject (s : HostState) (object : HandleId) : s.Alike (s.readObject object) :=
  ⟨rfl, rfl, map_modify_of_same (fun _ => by rfl) _ _, rfl, rfl⟩

theorem unreadObject (s : HostState) (object : HandleId) : s.Alike (s.unreadObject object) :=
  ⟨rfl, rfl, map_modify_of_same (fun _ => by rfl) _ _, rfl, rfl⟩

theorem lend (s : HostState) (userdata : HandleId) (p : PayloadId) (borrowing : Borrowing) :
    s.Alike (s.lend userdata p borrowing) :=
  ⟨rfl, rfl, (Alike.readObject s userdata).wrappers, rfl, map_modify_of_same (fun _ => by rfl) _ _⟩

theorem trans {u : HostState} (first : s.Alike t) (second : t.Alike u) : s.Alike u :=
  ⟨second.engine.trans first.engine, second.vms.trans first.vms, second.wrappers.trans first.wrappers,
    second.callbacks.trans first.callbacks, second.payloads.trans first.payloads⟩

theorem machine? (alike : s.Alike t) (vm : VmId) : t.machine? vm = s.machine? vm := by
  have seen : ∀ s : HostState, s.machine? vm = ((s.vms.map Valid.look)[vm]?).bind (·.1) := fun s => by
    rw [List.getElem?_map, Option.bind_map]
    rfl
  rw [seen, seen, alike.vms]

theorem reference? (alike : s.Alike t) (object : HandleId) :
    t.reference? object = s.reference? object := by
  have seen : ∀ s : HostState,
      s.reference? object = ((s.wrappers.map lookWrapper)[object]?).bind (·.2.2) := fun s => by
    rw [List.getElem?_map, Option.bind_map]
    rfl
  rw [seen, seen, alike.wrappers]

theorem vmOf? (alike : s.Alike t) (object : HandleId) : t.vmOf? object = s.vmOf? object := by
  have seen : ∀ s : HostState, s.vmOf? object = ((s.wrappers.map lookWrapper)[object]?).map (·.1) :=
    fun s => by
      rw [List.getElem?_map, Option.map_map]
      rfl
  rw [seen, seen, alike.wrappers]

theorem valid (alike : s.Alike t) (valid : s.Valid) : t.Valid :=
  valid.congr alike.engine alike.vms

theorem length_payloads (alike : s.Alike t) : t.payloads.length = s.payloads.length := by
  simpa only [List.length_map] using congrArg List.length alike.payloads

theorem placed (alike : s.Alike t) (placed : s.Placed) : t.Placed :=
  ⟨fun there there' => placed.once (alike.engine ▸ there) (alike.engine ▸ there'), fun there =>
    alike.length_payloads ▸ placed.made (alike.engine ▸ there)⟩

theorem balanced {calls : CallbackId → Prop} (alike : s.Alike t) (balanced : s.Balanced calls loose) :
    t.Balanced calls loose := by
  have armed : ∀ s : HostState, s.armed = (s.wrappers.map lookWrapper).filterMap (·.2.2) := fun s => by
    rw [List.filterMap_map, Function.comp_def]
    rfl
  refine ⟨?_, fun w mem => ?_⟩
  · rw [alike.engine, armed, alike.wrappers, ← armed]
    exact balanced.engine
  · have there : lookWrapper w ∈ s.wrappers.map lookWrapper := alike.wrappers ▸ List.mem_map_of_mem mem
    obtain ⟨w', mem', same⟩ := List.mem_map.mp there
    have kind : w'.lock.kind = w.lock.kind := congrArg (·.2.1) same
    rw [← kind]
    exact balanced.owned w' mem'

end Alike

/-! ## Counts -/

theorem vmReaders_readVm {vm : VmId} (isOpen : s.machine? vm ≠ none) (v : VmId) :
    (s.readVm vm).vmReaders v = s.vmReaders v + if vm = v then 1 else 0 := by
  simp only [vmReaders, readVm, List.getElem?_modify]
  by_cases same : vm = v
  · subst same
    cases found : s.vms[vm]? with
    | none => simp [machine?, found] at isOpen
    | some w => simp [Handle.read]
  · simp [same]

theorem vmReaders_unreadVm (s : HostState) (vm v : VmId) :
    (s.unreadVm vm).vmReaders v = s.vmReaders v - if vm = v then 1 else 0 := by
  simp only [vmReaders, unreadVm, List.getElem?_modify]
  by_cases same : vm = v
  · subst same
    cases s.vms[vm]? <;> simp [Handle.giveBack]
  · simp [same]

theorem objectReaders_readObject {object : HandleId} (armed : s.reference? object ≠ none) (h : HandleId) :
    (s.readObject object).objectReaders h = s.objectReaders h + if object = h then 1 else 0 := by
  simp only [objectReaders, readObject, List.getElem?_modify]
  by_cases same : object = h
  · subst same
    cases found : s.wrappers[object]? with
    | none => simp [reference?, found] at armed
    | some w => simp [Handle.read]
  · simp [same]

theorem objectReaders_unreadObject (s : HostState) (object h : HandleId) :
    (s.unreadObject object).objectReaders h = s.objectReaders h - if object = h then 1 else 0 := by
  simp only [objectReaders, unreadObject, List.getElem?_modify]
  by_cases same : object = h
  · subst same
    cases s.wrappers[object]? <;> simp [Handle.giveBack]
  · simp [same]

theorem borrowing_lend {p : PayloadId} (known : p < s.payloads.length) (userdata : HandleId)
    (borrowing : Borrowing) (q : PayloadId) :
    (s.lend userdata p borrowing).borrowing q = if p = q then borrowing else s.borrowing q := by
  simp only [HostState.borrowing, lend, List.getElem?_modify]
  by_cases same : p = q
  · subst same
    simp [List.getElem?_eq_getElem known]
  · rw [if_neg same]
    cases s.payloads[q]? <;> simp [same]

end HostState

/-- Of a member's occurrences one is gone when it is erased. -/
theorem countP_eq_erase_add {α : Type} [DecidableEq α] (p : α → Bool) {l : List α} {a : α} (mem : a ∈ l) :
    l.countP p = (l.erase a).countP p + if p a then 1 else 0 := by
  rw [(List.perm_cons_erase mem).countP_eq, List.countP_cons]

namespace Borrowing

/-- What is noted when so many borrows are under way. -/
def Counts (shared exclusive : Nat) : Borrowing → Prop
  | .shared n => n = shared ∧ exclusive = 0
  | .exclusive => shared = 0 ∧ exclusive = 1

variable {b b' : Borrowing} {shared alone : Nat} {exclusive : Bool}

theorem Counts.add (counts : b.Counts shared alone) (added : b.add exclusive = .ok b') :
    b'.Counts (shared + if exclusive then 0 else 1) (alone + if exclusive then 1 else 0) := by
  cases b with
  | exclusive => cases added
  | shared n =>
    obtain ⟨rfl, rfl⟩ := counts
    cases exclusive with
    | false =>
      cases added
      exact ⟨rfl, rfl⟩
    | true =>
      simp only [Borrowing.add] at added
      by_cases free : n = 0
      · subst free
        cases added
        exact ⟨rfl, rfl⟩
      · simp [free] at added

theorem Counts.remove
    (counts : b.Counts (shared + if exclusive then 0 else 1) (alone + if exclusive then 1 else 0)) :
    b.remove.Counts shared alone := by
  cases b with
  | exclusive =>
    cases exclusive with
    | false => simp [Counts] at counts
    | true => simpa [Counts, Borrowing.remove, eq_comm] using counts
  | shared n =>
    cases exclusive with
    | false =>
      obtain ⟨rfl, none⟩ := counts
      exact ⟨rfl, none⟩
    | true => simp [Counts] at counts

end Borrowing

/-! ## New userdata -/

namespace HostState

open Host

variable {s t : HostState}

/-- A payload is made, and after that an object for it. -/
structure MakesUserdata (s t : HostState) : Prop where
  payloads : t.payloads.length = s.payloads.length + 1
  objects : t.engine.objects = s.engine.objects ∨
    t.engine.objects = s.engine.objects ++ [some (.userdata s.payloads.length)]

namespace MakesUserdata

theorem before (makes : s.MakesUserdata t) {id : ObjectId} {p : PayloadId}
    (there : t.engine.object? id = some (.userdata p)) : s.engine.object? id = some (.userdata p) ∨
      id = s.engine.objects.length ∧ p = s.payloads.length := by
  rw [Engine.object?] at there ⊢
  rcases makes.objects with same | made
  · rw [same] at there
    exact .inl there
  · rw [made] at there
    rcases Nat.lt_or_ge id s.engine.objects.length with old | new
    · rw [List.getElem?_append_left old] at there
      exact .inl there
    · rw [List.getElem?_append_right new, List.getElem?_singleton] at there
      split at there
      · next first =>
        have named : s.payloads.length = p := by simpa using there
        exact .inr ⟨Nat.le_antisymm (Nat.sub_eq_zero_iff_le.mp first) new, named.symm⟩
      · cases there

theorem placed (makes : s.MakesUserdata t) (placed : s.Placed) : t.Placed := by
  refine ⟨fun {p id id'} there there' => ?_, fun {p id} there => ?_⟩
  · rcases makes.before there with old | ⟨rfl, rfl⟩ <;> rcases makes.before there' with old' | ⟨rfl, same⟩
    · exact placed.once old old'
    · exact absurd (placed.made old) (same ▸ Nat.lt_irrefl _)
    · exact absurd (placed.made old') (Nat.lt_irrefl _)
    · rfl
  · rw [makes.payloads]
    rcases makes.before there with old | ⟨-, rfl⟩
    · exact Nat.lt_succ_of_lt (placed.made old)
    · exact Nat.lt_succ_self _

end MakesUserdata

theorem createUserdata_makes (s : HostState) (vm : VmId) (data : PayloadData) :
    s.MakesUserdata (after (Command.perform (.ask (.createUserdata vm data))) s) := by
  let made : HostState := { s with payloads := s.payloads ++ [⟨data, .shared 0⟩] }
  have reached : after (Command.perform (.ask (.createUserdata vm data))) s =
      after (createUserdata vm s.payloads.length) made := by
    show after (do
      let _ ← Request.perform .idle (.createUserdata vm data)
      return ([] : List ReferenceId)) s = _
    rw [after_bind_pure]
    show after (newPayload data >>= fun payload => do
      return Reply.value (← createUserdata vm payload)) s = _
    rw [after_bind_of_ok (rfl : newPayload data s = .ok s.payloads.length made), after_bind_pure]
  have wrapped : ∀ (ref : Option ReferenceId) (t : HostState),
      (after (wrapOrFail vm .userdata "userdata" ref) t).engine = t.engine ∧
        (after (wrapOrFail vm .userdata "userdata" ref) t).payloads = t.payloads := fun ref t => by
    cases ref <;> exact ⟨rfl, rfl⟩
  rw [reached]
  unfold createUserdata
  cases isOpen : made.machine? vm with
  | none =>
    rw [after_bind_of_error (withVm_of_closed isOpen _)]
    exact ⟨List.length_append, .inl rfl⟩
  | some machine =>
    rw [after_bind_of_ok (withVm_inEngine_run isOpen _)]
    obtain ⟨engine, payloads⟩ := wrapped _ _
    refine ⟨by rw [payloads]; exact List.length_append, ?_⟩
    rw [engine]
    rcases fault : made.engine.failing .createUserdata with ⟨_ | mode, e⟩ <;>
      simp only [Engine.createUserdata, Engine.unlessFailing, fault] <;>
      obtain rfl := congrArg Prod.snd fault
    · exact .inr rfl
    · exact .inl rfl

end HostState

/-! ## Uses -/

namespace Use

open HostState (Alike)

/-- What is used is open, and the userdata that is borrowed has the payload. -/
def Holds (s : HostState) : Use → Prop
  | vm v => s.machine? v ≠ none
  | object v h => s.machine? v ≠ none ∧ s.vmOf? h = some v ∧ s.reference? h ≠ none
  | borrow b => ∃ ref, s.reference? b.object = some ref ∧
    s.engine.deref? ref = some (.userdata b.payload)

theorem Holds.alike {s t : HostState} {use : Use} (holds : use.Holds s) (alike : s.Alike t) :
    use.Holds t := by
  cases use with
  | vm v => rwa [Holds, alike.machine?]
  | object v h => rwa [Holds, alike.machine?, alike.vmOf?, alike.reference?]
  | borrow b => rwa [Holds, alike.reference?, alike.engine]

theorem leave_alike (use : Use) (s : HostState) : s.Alike (Host.after use.leave s) := by
  cases use with
  | vm v => exact .unreadVm s v
  | object v h => exact (Alike.unreadObject s h).trans (.unreadVm _ v)
  | borrow b =>
    exact ⟨rfl, rfl, (Alike.unreadObject s b.object).wrappers, rfl,
      map_modify_of_same (fun _ => by rfl) _ _⟩

end Use

namespace Usage

open Host
open HostState (Alike Placed Evolves)

/-- How many borrows of a payload are under way. -/
def borrows (u : Usage) (p : PayloadId) (exclusive : Bool) : Nat :=
  u.uses.countP fun use => use.payload? = some (p, exclusive)

/-- What is in order at all times. -/
structure Orderly (u : Usage) : Prop where
  valid : u.host.Valid
  balanced : u.host.Balanced AnyCall u.loose
  placed : u.host.Placed
  holds : ∀ use ∈ u.uses, use.Holds u.host
  vmReaders : ∀ vm, u.host.vmReaders vm = u.uses.countP fun use => use.vm? = some vm
  objectReaders : ∀ h, u.host.objectReaders h = u.uses.countP fun use => use.object? = some h
  borrows : ∀ p, (u.host.borrowing p).Counts (u.borrows p false) (u.borrows p true)

theorem Orderly.start (faults : List Fault) : Orderly ⟨{ engine := { faults } }, [], []⟩ where
  valid := .start faults
  balanced := .empty faults
  placed := ⟨nofun, nofun⟩
  holds := nofun
  vmReaders _ := rfl
  objectReaders _ := rfl
  borrows _ := ⟨rfl, rfl⟩

namespace Orderly

variable {u : Usage} {t : HostState} {makes : Prop} {loose : List ReferenceId} {use : Use}

theorem vmReaders_ne_zero (orderly : u.Orderly) {vm : VmId} (under : use ∈ u.uses)
    (keeps : use.vm? = some vm) : u.host.vmReaders vm ≠ 0 := by
  rw [orderly.vmReaders]
  exact Nat.ne_of_gt (List.countP_pos_iff.mpr ⟨use, under, decide_eq_true keeps⟩)

theorem objectReaders_ne_zero (orderly : u.Orderly) {h : HandleId} (under : use ∈ u.uses)
    (keeps : use.object? = some h) : u.host.objectReaders h ≠ 0 := by
  rw [orderly.objectReaders]
  exact Nat.ne_of_gt (List.countP_pos_iff.mpr ⟨use, under, decide_eq_true keeps⟩)

/-- The wrapper of an object that is in use is armed. -/
theorem reference?_of_object (orderly : u.Orderly) (under : use ∈ u.uses) {object : HandleId}
    (keeps : use.object? = some object) : ∃ ref, u.host.reference? object = some ref := by
  have holds := orderly.holds use under
  cases use with
  | vm v => cases keeps
  | object v h =>
    cases keeps
    exact Option.ne_none_iff_exists'.mp holds.2.2
  | borrow b =>
    cases keeps
    obtain ⟨ref, armed, -⟩ := holds
    exact ⟨ref, armed⟩

theorem machine?_of_vm (orderly : u.Orderly) (under : use ∈ u.uses) {vm : VmId}
    (keeps : use.vm? = some vm) : u.host.machine? vm ≠ none := by
  have holds := orderly.holds use under
  cases use with
  | vm v =>
    cases keeps
    exact holds
  | object v h =>
    cases keeps
    exact holds.1
  | borrow b => cases keeps

/-- Behind an armed wrapper there is an object. -/
theorem exists_object (orderly : u.Orderly) {object : HandleId} {ref : ReferenceId}
    (armed : u.host.reference? object = some ref) :
    ∃ id o, u.host.engine.target? ref = some id ∧ u.host.engine.object? id = some o := by
  obtain ⟨id, leads⟩ := Option.ne_none_iff_exists'.mp (orderly.balanced.live_of_reference? armed)
  obtain ⟨o, there, -⟩ := orderly.valid.sound.exists_deref? leads
  exact ⟨id, o, leads, there⟩

/-- Work that gives back its guards keeps what is used as it is. -/
theorem evolve (orderly : u.Orderly) (evolves : u.host.Evolves makes t) (placed : t.Placed)
    (balanced : t.Balanced AnyCall loose) : Orderly ⟨t, loose, u.uses⟩ where
  valid := evolves.valid
  balanced := balanced
  placed := placed
  holds use under := by
    have holds := orderly.holds use under
    cases use with
    | vm v =>
      rw [Use.Holds, evolves.machine?_of_read (orderly.vmReaders_ne_zero under rfl)]
      exact holds
    | object v h =>
      obtain ⟨isOpen, isFor, armed⟩ := holds
      refine ⟨?_, evolves.vmOf?_of_some isFor, ?_⟩
      · rwa [evolves.machine?_of_read (orderly.vmReaders_ne_zero under rfl)]
      · rwa [evolves.reference?_of_read (orderly.objectReaders_ne_zero under rfl)]
    | borrow b =>
      obtain ⟨ref, armed, found⟩ := holds
      have armed' : t.reference? b.object = some ref := by
        rw [evolves.reference?_of_read (orderly.objectReaders_ne_zero under rfl), armed]
      exact ⟨ref, armed', evolves.deref?_userdata balanced armed' found⟩
  vmReaders vm := (evolves.vmReaders vm).trans (orderly.vmReaders vm)
  objectReaders h := (evolves.objectReaders h).trans (orderly.objectReaders h)
  borrows p := (evolves.borrowing p).symm ▸ orderly.borrows p

/-- Guards and borrows that change with the uses that are under way. -/
theorem alike (orderly : u.Orderly) (alike : u.host.Alike t) {uses : List Use}
    (holds : ∀ use ∈ uses, use.Holds u.host)
    (vmReaders : ∀ vm, t.vmReaders vm = uses.countP fun use => use.vm? = some vm)
    (objectReaders : ∀ h, t.objectReaders h = uses.countP fun use => use.object? = some h)
    (borrows : ∀ p, (t.borrowing p).Counts (Usage.borrows ⟨t, u.loose, uses⟩ p false)
      (Usage.borrows ⟨t, u.loose, uses⟩ p true)) : Orderly ⟨t, u.loose, uses⟩ where
  valid := alike.valid orderly.valid
  balanced := alike.balanced orderly.balanced
  placed := alike.placed orderly.placed
  holds use under := (holds use under).alike alike
  vmReaders := vmReaders
  objectReaders := objectReaders
  borrows := borrows

/-- A use that starts. -/
theorem start_use (orderly : u.Orderly) (alike : u.host.Alike t) (holds : use.Holds u.host)
    (vmReaders : ∀ vm, t.vmReaders vm = u.host.vmReaders vm + if use.vm? = some vm then 1 else 0)
    (objectReaders : ∀ h,
      t.objectReaders h = u.host.objectReaders h + if use.object? = some h then 1 else 0)
    (borrows : ∀ p, ∀ {shared alone}, (u.host.borrowing p).Counts shared alone →
      (t.borrowing p).Counts (shared + if use.payload? = some (p, false) then 1 else 0)
        (alone + if use.payload? = some (p, true) then 1 else 0)) :
    Orderly ⟨t, u.loose, use :: u.uses⟩ := by
  refine orderly.alike alike (fun other under => ?_) (fun vm => ?_) (fun h => ?_) fun p => ?_
  · rcases List.mem_cons.mp under with rfl | before
    · exact holds
    · exact orderly.holds other before
  · rw [vmReaders, orderly.vmReaders, List.countP_cons]
    simp only [decide_eq_true_eq]
  · rw [objectReaders, orderly.objectReaders, List.countP_cons]
    simp only [decide_eq_true_eq]
  · simpa only [Usage.borrows, List.countP_cons, decide_eq_true_eq] using borrows p (orderly.borrows p)

/-- A use that ends. -/
theorem end_use (orderly : u.Orderly) (under : use ∈ u.uses) (alike : u.host.Alike t)
    (vmReaders : ∀ vm, t.vmReaders vm = u.host.vmReaders vm - if use.vm? = some vm then 1 else 0)
    (objectReaders : ∀ h,
      t.objectReaders h = u.host.objectReaders h - if use.object? = some h then 1 else 0)
    (borrows : ∀ p, ∀ {shared alone}, (u.host.borrowing p).Counts
        (shared + if use.payload? = some (p, false) then 1 else 0)
        (alone + if use.payload? = some (p, true) then 1 else 0) →
      (t.borrowing p).Counts shared alone) :
    Orderly ⟨t, u.loose, u.uses.erase use⟩ := by
  refine orderly.alike alike (fun other still => ?_) (fun vm => ?_) (fun h => ?_) fun p => ?_
  · exact orderly.holds other (List.mem_of_mem_erase still)
  · rw [vmReaders, orderly.vmReaders, countP_eq_erase_add _ under]
    simp only [decide_eq_true_eq, Nat.add_sub_cancel]
  · rw [objectReaders, orderly.objectReaders, countP_eq_erase_add _ under]
    simp only [decide_eq_true_eq, Nat.add_sub_cancel]
  · have counts := orderly.borrows p
    simp only [Usage.borrows, countP_eq_erase_add _ under, decide_eq_true_eq] at counts
    exact borrows p counts

/-! ## Steps -/

theorem useVm (orderly : u.Orderly) {vm : VmId} (isOpen : u.host.machine? vm ≠ none) :
    Orderly ⟨u.host.readVm vm, u.loose, .vm vm :: u.uses⟩ := by
  refine orderly.start_use (.readVm _ _) isOpen (fun v => ?_) (fun h => rfl) fun p _ _ counts => counts
  simp only [HostState.vmReaders_readVm isOpen, Use.vm?, Option.some_inj]

theorem useObject (orderly : u.Orderly) {vm : VmId} {object : HandleId}
    (isOpen : u.host.machine? vm ≠ none) (isFor : u.host.vmOf? object = some vm)
    (armed : u.host.reference? object ≠ none) :
    Orderly ⟨(u.host.readVm vm).readObject object, u.loose, .object vm object :: u.uses⟩ := by
  refine orderly.start_use ((Alike.readVm _ _).trans (.readObject _ _)) ⟨isOpen, isFor, armed⟩
    (fun v => ?_) (fun h => ?_) fun p _ _ counts => counts
  · simp only [Use.vm?, Option.some_inj]
    exact HostState.vmReaders_readVm isOpen v
  · simp only [Use.object?, Option.some_inj]
    exact (u.host.readVm vm).objectReaders_readObject armed h

theorem askPayload_evolves (orderly : u.Orderly) (ref : ReferenceId) :
    u.host.Evolves False { u.host with engine := (u.host.engine.userdataPayload ref).2 } :=
  .inEngine orderly.valid (orderly.valid.sound.userdataPayload ref)

/-- The engine is asked for a payload, and the state has noted its answer. -/
theorem askPayload (orderly : u.Orderly) (ref : ReferenceId) :
    Orderly ⟨{ u.host with engine := (u.host.engine.userdataPayload ref).2 }, u.loose, u.uses⟩ := by
  have evolves := orderly.askPayload_evolves ref
  refine orderly.evolve evolves (evolves.placed orderly.placed) ?_
  exact (inEngine_conserves (Engine.userdataPayload_bare ref)).after orderly.balanced

/-- A borrow of a payload that can be borrowed once more. -/
theorem lend (orderly : u.Orderly) {userdata : HandleId} {ref : ReferenceId} {p : PayloadId}
    {payload : Payload} {exclusive : Bool} {borrowing : Borrowing}
    (armed : u.host.reference? userdata = some ref)
    (found : u.host.engine.deref? ref = some (.userdata p)) (there : u.host.payloads[p]? = some payload)
    (added : payload.borrowing.add exclusive = .ok borrowing) :
    Orderly ⟨u.host.lend userdata p borrowing, u.loose, .borrow ⟨userdata, p, exclusive⟩ :: u.uses⟩ := by
  refine orderly.start_use (.lend ..) ⟨ref, armed, found⟩ (fun _ => rfl) (fun h => ?_)
    fun q shared alone counts => ?_
  · simp only [Use.object?, Option.some_inj]
    exact HostState.objectReaders_readObject (by rw [armed]; nofun) h
  · rw [HostState.borrowing_lend (List.getElem?_eq_some_iff.mp there).1]
    by_cases same : p = q
    · subst same
      have noted : u.host.borrowing p = payload.borrowing := by
        rw [HostState.borrowing, there, Option.elim_some]
      have counted := (noted ▸ counts : payload.borrowing.Counts shared alone).add added
      rw [if_pos rfl]
      cases exclusive <;> simpa [Use.payload?] using counted
    · rw [if_neg same]
      simpa [Use.payload?, same] using counts

theorem borrow (orderly : u.Orderly) (type : PayloadType) (exclusive : Bool) (userdata : HandleId) :
    Orderly ⟨after (Userdata.borrow type exclusive userdata) u.host, u.loose,
      ((answer? (Userdata.borrow type exclusive userdata) u.host).map Use.borrow).toList ++ u.uses⟩ := by
  have refused : ∀ {e}, Userdata.enterPayload "borrow userdata" userdata u.host = .error e u.host →
      Orderly ⟨after (Userdata.borrow type exclusive userdata) u.host, u.loose,
        ((answer? (Userdata.borrow type exclusive userdata) u.host).map Use.borrow).toList ++ u.uses⟩ := by
    intro e failed
    simp only [after, answer?, Userdata.borrow_of_unentered failed]
    exact orderly
  cases isFor : u.host.vmOf? userdata with
  | none => exact refused (Userdata.enterPayload_of_missing isFor)
  | some vm =>
    cases isOpen : u.host.machine? vm with
    | none => exact refused (Userdata.enterPayload_of_closed isFor isOpen)
    | some machine =>
      cases armed : u.host.reference? userdata with
      | none => exact refused (Userdata.enterPayload_of_closedObject isFor isOpen armed)
      | some ref =>
        have asked := orderly.askPayload ref
        simp only [after, answer?, Userdata.borrow_of_open isFor isOpen armed]
        cases found : Userdata.payload? u.host type (u.host.engine.userdataPayload ref).1 with
        | none => exact asked
        | some found' =>
          obtain ⟨p, payload⟩ := found'
          dsimp only
          cases added : payload.borrowing.add exclusive with
          | error cause => exact asked
          | ok borrowing =>
            obtain ⟨pointed, there, -⟩ := Userdata.payload?_eq_some.mp found
            have found := Engine.deref?_of_userdataPayload pointed
            have still : (u.host.engine.userdataPayload ref).2.deref? ref = some (.userdata p) := by
              rw [Engine.userdataPayload_snd]
              exact found
            exact asked.lend armed still there added

theorem leave (orderly : u.Orderly) (under : use ∈ u.uses) :
    Orderly ⟨after use.leave u.host, u.loose, u.uses.erase use⟩ := by
  have alike := use.leave_alike u.host
  cases use with
  | vm v =>
    refine orderly.end_use under alike (fun vm => ?_) (fun h => rfl) fun p _ _ counts => counts
    simp only [Use.vm?, Option.some_inj]
    exact u.host.vmReaders_unreadVm v vm
  | object v object =>
    refine orderly.end_use under alike (fun vm => ?_) (fun h => ?_) fun p _ _ counts => counts
    · simp only [Use.vm?, Option.some_inj]
      exact (u.host.unreadObject object).vmReaders_unreadVm v vm
    · simp only [Use.object?, Option.some_inj]
      exact u.host.objectReaders_unreadObject object h
  | borrow b =>
    refine orderly.end_use under alike (fun vm => rfl) (fun h => ?_) fun p shared alone counts => ?_
    · simp only [Use.object?, Option.some_inj]
      exact u.host.objectReaders_unreadObject b.object h
    · have noted : (after (Use.leave (.borrow b)) u.host).borrowing p =
          if b.payload = p then (u.host.borrowing p).remove else u.host.borrowing p := by
        show ((u.host.payloads.modify b.payload _)[p]?).elim _ _ = _
        rw [List.getElem?_modify, HostState.borrowing]
        cases u.host.payloads[p]? <;> split <;> rfl
      rw [noted]
      by_cases same : b.payload = p
      · rw [if_pos same]
        have ended : (u.host.borrowing p).Counts (shared + if b.exclusive then 0 else 1)
            (alone + if b.exclusive then 1 else 0) := by
          cases kind : b.exclusive <;> simpa [Use.payload?, same, kind] using counts
        exact ended.remove
      · rw [if_neg same]
        simpa [Use.payload?, same] using counts

theorem change (orderly : u.Orderly) (b : Borrow) {f : PayloadData → PayloadData}
    (typed : ∀ data, (f data).type = data.type) :
    Orderly ⟨after (Userdata.change b f) u.host, u.loose, u.uses⟩ := by
  have alike : u.host.Alike (after (Userdata.change b f) u.host) :=
    ⟨rfl, rfl, rfl, rfl, map_modify_of_same (fun p => typed p.data) _ _⟩
  refine orderly.alike alike orderly.holds orderly.vmReaders orderly.objectReaders fun p => ?_
  have noted : (after (Userdata.change b f) u.host).borrowing p = u.host.borrowing p := by
    show ((u.host.payloads.modify b.payload _)[p]?).elim _ _ = _
    rw [List.getElem?_modify, HostState.borrowing]
    cases u.host.payloads[p]? with
    | none => rfl
    | some payload => split <;> rfl
  rw [noted]
  exact orderly.borrows p

/-- Work at one go, but to make userdata. -/
theorem operate (orderly : u.Orderly) {c : Command} (plain : c.Plain) {rest : List ReferenceId}
    (takes : u.loose.Perm (c.taken ++ rest)) (placed : (after c.perform u.host).Placed) :
    Orderly ⟨after c.perform u.host, (answer? c.perform u.host).getD [] ++ rest, u.uses⟩ := by
  have evolves := c.perform_evolves plain u.host orderly.valid
  refine orderly.evolve evolves placed ?_
  have balanced := c.perform_trades.after (orderly.balanced.perm takes)
  cases answered : answer? c.perform u.host <;> rwa [answered] at balanced

/-- Whatever is read is used by someone, who refers to it. -/
theorem reclaimOnce_evolves (orderly : u.Orderly) {roots : Roots} (cover : roots.Cover u.uses) :
    u.host.Evolves False (u.host.reclaimOnce roots) := by
  have live : ∀ use ∈ u.uses, ∀ h ∈ use.object?, h ∈ u.host.liveWrappers roots := by
    intro use under h keeps
    obtain ⟨v, root, names⟩ := (cover use under).2 h keeps
    exact List.mem_filterMap.mpr ⟨v, List.mem_append_left _ root, names⟩
  have wrappers : ∀ h w, u.host.wrappers[h]? = some w → h ∉ u.host.liveWrappers roots →
      w.lock.readers = 0 := by
    intro h w found dropped
    have readers := orderly.objectReaders h
    rw [HostState.objectReaders, found, Option.elim_some] at readers
    rw [readers, List.countP_eq_zero]
    exact fun use under keeps => dropped (live use under h (decide_eq_true_eq.mp keeps))
  have vms : ∀ id v, u.host.vms[id]? = some v → id ∉ u.host.liveVms roots → v.lock.readers = 0 := by
    intro id v found dropped
    have readers := orderly.vmReaders id
    rw [HostState.vmReaders, found, Option.elim_some] at readers
    rw [readers, List.countP_eq_zero]
    intro use under keeps
    cases use with
    | vm w =>
      obtain rfl := Option.some.inj (decide_eq_true_eq.mp keeps)
      exact dropped (List.mem_append_left _ ((cover _ under).1 w rfl))
    | object w h =>
      obtain rfl := Option.some.inj (decide_eq_true_eq.mp keeps)
      have isFor := (orderly.holds _ under).2.1
      refine dropped (List.mem_append_right _ ?_)
      exact List.mem_filterMap.mpr ⟨h, live _ under h rfl, isFor⟩
    | borrow b => simp [Use.vm?] at keeps
  exact HostState.reclaimOnce_evolves orderly.valid wrappers vms

theorem reclaimOnce (orderly : u.Orderly) {roots : Roots} (cover : roots.Cover u.uses) :
    Orderly ⟨u.host.reclaimOnce roots, u.loose, u.uses⟩ := by
  have evolves := orderly.reclaimOnce_evolves cover
  exact orderly.evolve evolves (evolves.placed orderly.placed) (orderly.balanced.reclaimOnce roots)

theorem reclaimWithin_evolves (orderly : u.Orderly) {roots : Roots} (cover : roots.Cover u.uses) (rounds : Nat) :
    u.host.Evolves False (u.host.reclaimWithin roots rounds) := by
  induction rounds generalizing u with
  | zero => exact .refl orderly.valid
  | succ rounds ih =>
    have next := orderly.reclaimOnce_evolves cover
    have orderly' := orderly.reclaimOnce cover
    simp only [HostState.reclaimWithin]
    split
    · exact next
    · exact next.trans (ih orderly' cover)

theorem reclaim_evolves (orderly : u.Orderly) {roots : Roots} (cover : roots.Cover u.uses) :
    u.host.Evolves False (u.host.reclaim roots) :=
  orderly.reclaimWithin_evolves cover _

theorem reclaim (orderly : u.Orderly) {roots : Roots} (cover : roots.Cover u.uses) :
    Orderly ⟨u.host.reclaim roots, u.loose, u.uses⟩ := by
  have evolves := orderly.reclaim_evolves cover
  exact orderly.evolve evolves (evolves.placed orderly.placed) (orderly.balanced.reclaim roots)

end Orderly

/-! ## Runs -/

theorem Step.orderly {u v : Usage} (step : Step u v) (orderly : u.Orderly) : v.Orderly := by
  cases step with
  | @operate s loose rest uses c plain takes =>
    refine orderly.operate plain takes ?_
    by_cases makes : c.Makes
    · obtain ⟨vm, data, rfl⟩ := c.eq_of_makes makes
      exact (s.createUserdata_makes vm data).placed orderly.placed
    · have evolves : s.Evolves c.Makes (after c.perform s) := c.perform_evolves plain s orderly.valid
      rw [eq_false makes] at evolves
      exact evolves.placed orderly.placed
  | @useVm s t loose uses action vm machine entered =>
    obtain ⟨isOpen, rfl⟩ := enterVm_eq_ok_iff.mp entered
    exact orderly.useVm (by rw [isOpen]; nofun)
  | @useObject s t loose uses action object vm machine ref entered =>
    obtain ⟨isFor, isOpen, armed, rfl⟩ := enter_eq_ok_iff.mp entered
    exact orderly.useObject (by rw [isOpen]; nofun) isFor (by rw [armed]; nofun)
  | borrow type exclusive userdata => exact orderly.borrow type exclusive userdata
  | change under alone typed => exact orderly.change _ typed
  | leave under => exact orderly.leave under
  | reclaim cover => exact orderly.reclaim cover

theorem Leads.orderly {kept : List Use} {u v : Usage} (leads : Leads kept u v) (orderly : u.Orderly) :
    v.Orderly := by
  induction leads with
  | refl => exact orderly
  | tail _ step ih => exact step.1.orderly ih

theorem Reachable.orderly {u : Usage} (reached : u.Reachable) : u.Orderly := by
  obtain ⟨faults, leads⟩ := reached
  exact leads.orderly (.start faults)

end Usage
end ScriptHost

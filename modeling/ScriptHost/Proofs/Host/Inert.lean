/-
A VM that was closed is inert from then on (`Usage.closed_vm_is_inert`): it and its objects refuse everything,
and no work on it is under way. Its wrappers can still be let go of, in whichever way, and what they are armed
with goes back once (`Usage.Releasable`). What happens after the closing is any run, with calls of functions
and whatever lawful code does in them, since a call is a run (`Host.call_proceeds`).
-/
import ScriptHost.Proofs.Host.Lasting
import ScriptHost.Proofs.Host.Refusing

namespace ScriptHost

open Host

variable {s : HostState} {object : HandleId}

namespace HostState

/-! ## Letting go of wrappers -/

/-- A wrapper has lost its reference. -/
def unwrapped (s : HostState) (object : HandleId) : HostState :=
  { s with wrappers := s.wrappers.modify object fun w => { w with lock := w.lock.disarmed } }

theorem isClosed_object (s : HostState) (kind : ObjectKind) (object : HandleId) :
    isClosed s (.object kind object) = (s.reference? object).isNone := by
  rw [isClosed, reference?]
  cases s.wrappers[object]? <;> rfl

end HostState

namespace Host

variable {ref : ReferenceId}

theorem closeObject_of_armed (owned : ∀ w ∈ s.wrappers, w.lock.kind.owned = true)
    (unread : s.objectReaders object = 0) (armed : s.reference? object = some ref) :
    closeObject object s = .ok () { s.unwrapped object with engine := s.engine.giveBack ref } := by
  obtain ⟨w, found, pointer⟩ := Option.bind_eq_some_iff.mp armed
  have free : w.lock.readers = 0 := by simpa [HostState.objectReaders, found] using unread
  rw [closeObject_run, found]
  dsimp only
  rw [if_pos free, Handle.toDestroy, if_pos (owned w (List.mem_of_getElem? found)), pointer,
    HostState.unwrapped, modify_of_getElem? found]
  rfl

theorem disarm_of_armed (unread : s.objectReaders object = 0) (armed : s.reference? object = some ref) :
    disarm object s = .ok ref (s.unwrapped object) := by
  obtain ⟨w, found, pointer⟩ := Option.bind_eq_some_iff.mp armed
  have free : w.lock.readers = 0 := by simpa [HostState.objectReaders, found] using unread
  rw [disarm_run, found, HostState.unwrapped, modify_of_getElem? found]
  simp [Handle.disarm, free, pointer]

theorem closeObject_of_unarmed (unread : s.objectReaders object = 0) (closed : s.reference? object = none) :
    closeObject object s = .ok () s := by
  rw [closeObject_run]
  cases found : s.wrappers[object]? with
  | none => rfl
  | some w =>
    have free : w.lock.readers = 0 := by simpa [HostState.objectReaders, found] using unread
    have pointer : w.lock.pointer = none := by simpa [HostState.reference?, found] using closed
    dsimp only
    rw [if_pos free, Handle.toDestroy, pointer, ite_self, Handle.disarmed_of_closed pointer, set_of_getElem? found]
    rfl

theorem disarm_of_unarmed (unread : s.objectReaders object = 0) (closed : s.reference? object = none) :
    disarm object s = .error .disarmClosed s := by
  rw [disarm_run]
  cases found : s.wrappers[object]? with
  | none => rfl
  | some w =>
    have free : w.lock.readers = 0 := by simpa [HostState.objectReaders, found] using unread
    have pointer : w.lock.pointer = none := by simpa [HostState.reference?, found] using closed
    simp [Handle.disarm, free, pointer]

end Host

namespace HostState

variable {loose : List ReferenceId} {calls : CallbackId → Prop} {ref : ReferenceId}

theorem references_reclaimOnce (s : HostState) (roots : Roots) :
    (s.reclaimOnce roots).engine.references =
      (s.finalizeWrappers (s.liveWrappers roots)).engine.references :=
  (Engine.foldl_stop _ _).1

theorem reference?_reclaimOnce {roots : Roots} (dropped : object ∉ s.liveWrappers roots) :
    (s.reclaimOnce roots).reference? object = none := by
  have wrappers : (s.reclaimOnce roots).wrappers = (s.finalizeWrappers (s.liveWrappers roots)).wrappers := rfl
  rw [reference?, wrappers, wrappers_finalizeWrappers, List.getElem?_mapIdx]
  cases s.wrappers[object]? with
  | none => rfl
  | some w => simp [dropped, Handle.disarmed]

/-- A dropped wrapper gives back what it was armed with. -/
theorem Balanced.target?_reclaimOnce (balanced : s.Balanced calls loose) {roots : Roots}
    (dropped : object ∉ s.liveWrappers roots) (armed : s.reference? object = some ref) :
    (s.reclaimOnce roots).engine.target? ref = none := by
  have own := mem_armed_of_reference? armed
  obtain ⟨out, -, apart⟩ := List.nodup_append.mp balanced.engine.nodup
  rw [Engine.target?, references_reclaimOnce, ← Engine.target?]
  refine Classical.not_not.mp fun still => ?_
  rcases (balanced.target?_finalizeWrappers _).mp still with ⟨other, live, owns⟩ | mem | mem
  · have armed' : s.reference? other = some ref := by
      rw [pointers, List.getElem?_map] at owns
      obtain ⟨w, found, pointer⟩ := Option.map_eq_some_iff.mp owns
      exact Option.bind_eq_some_iff.mpr ⟨w, found, pointer⟩
    exact dropped (reference?_inj balanced.nodup_armed armed armed' ▸ live)
  · exact (List.nodup_append.mp out).2.2 ref own ref mem rfl
  · exact apart ref (List.mem_append_left _ own) ref (List.mem_append_left _ mem) rfl

end HostState

namespace Usage

variable {u v : Usage} {ref : ReferenceId}

/-- After the first round nothing comes back. -/
theorem Orderly.reclaim_after_once (orderly : u.Orderly) {roots : Roots} (cover : roots.Cover u.uses) :
    (u.host.reclaimOnce roots).Evolves False (u.host.reclaim roots) := by
  have orderly' := orderly.reclaimOnce cover
  simp only [HostState.reclaim, HostState.reclaimWithin]
  split
  · exact .refl orderly'.valid
  · exact orderly'.reclaimWithin_evolves cover _

/-- Each reference was given back once, unless a wrapper is armed with it, or it is loose, or was lost. -/
theorem Orderly.count_returned (orderly : u.Orderly) (known : ref < u.host.engine.references.length) :
    u.host.engine.returned.count ref =
      if ref ∈ u.host.armed ++ u.loose ++ u.host.engine.leaked then 0 else 1 :=
  orderly.balanced.engine.count_returned known

theorem Orderly.count_returned_of_gone (orderly : u.Orderly) (known : ref < u.host.engine.references.length)
    (gone : u.host.engine.target? ref = none) : u.host.engine.returned.count ref = 1 := by
  rw [orderly.count_returned known, if_neg fun out => ?_]
  exact orderly.balanced.engine.target?_ne_none.mpr (List.mem_append.mp out) gone

theorem Orderly.lt_of_reference? (orderly : u.Orderly) {object : HandleId}
    (armed : u.host.reference? object = some ref) : ref < u.host.engine.references.length :=
  orderly.balanced.engine.lt_of_mem
    (List.mem_append_left _ (List.mem_append_left _ (HostState.mem_armed_of_reference? armed)))

/-- A wrapper can be let go of in whichever way, unless someone uses the object, and what it is armed with
goes back once. -/
structure Releasable (u : Usage) (object : HandleId) : Prop where
  asked : ∀ kind : ObjectKind, isClosed u.host (.object kind object) = (u.host.reference? object).isNone
  closed : u.host.reference? object = none → closeObject object u.host = .ok () u.host ∧
    disarm object u.host = .error .disarmClosed u.host
  armed : ∀ ref, u.host.reference? object = some ref → u.host.engine.returned.count ref = 0 ∧
    ((∀ use ∈ u.uses, use.object? ≠ some object) →
      closeObject object u.host =
        .ok () { u.host.unwrapped object with engine := u.host.engine.giveBack ref } ∧
      disarm object u.host = .ok ref (u.host.unwrapped object))
  dropped : ∀ roots : Roots, roots.Cover u.uses → object ∉ u.host.liveWrappers roots →
    (u.host.reclaim roots).reference? object = none ∧
      ∀ ref, u.host.reference? object = some ref → (u.host.reclaim roots).engine.returned.count ref = 1

theorem Orderly.releasable (orderly : u.Orderly) {object : HandleId} (known : object < u.host.wrappers.length) :
    u.Releasable object := by
  have unread : (∀ use ∈ u.uses, use.object? ≠ some object) → u.host.objectReaders object = 0 := by
    intro unused
    rw [orderly.objectReaders, List.countP_eq_zero]
    exact fun use under keeps => unused use under (decide_eq_true_eq.mp keeps)
  refine ⟨fun kind => u.host.isClosed_object kind object, fun closed => ?_,
    fun ref armed => ⟨?_, fun unused => ?_⟩, fun roots cover dropped => ?_⟩
  · -- What is in use is armed, so that nobody uses what is closed.
    have unused : ∀ use ∈ u.uses, use.object? ≠ some object := by
      intro use under keeps
      obtain ⟨ref, armed⟩ := orderly.reference?_of_object under keeps
      rw [closed] at armed
      cases armed
    exact ⟨closeObject_of_unarmed (unread unused) closed, disarm_of_unarmed (unread unused) closed⟩
  · have own := HostState.mem_armed_of_reference? armed
    rw [orderly.count_returned (orderly.lt_of_reference? armed),
      if_pos (List.mem_append_left _ (List.mem_append_left _ own))]
  · exact ⟨closeObject_of_armed orderly.balanced.owned (unread unused) armed,
      disarm_of_armed (unread unused) armed⟩
  · -- The first round takes the reference out and gives it back, and later rounds change neither.
    have first := orderly.reclaimOnce_evolves cover
    have later := orderly.reclaim_after_once cover
    refine ⟨?_, fun ref armed => ?_⟩
    · have once : (u.host.reclaimOnce roots).reference? object = none :=
        HostState.reference?_reclaimOnce dropped
      exact (later.reference?_or (Nat.lt_of_lt_of_le known first.wrappers.length_le)).elim
        (fun same => same.trans once) id
    · have known := orderly.lt_of_reference? armed
      have known' := Nat.lt_of_lt_of_le known first.references.length_le
      have gone := later.target?_of_gone known' (orderly.balanced.target?_reclaimOnce dropped armed)
      exact (orderly.reclaim cover).count_returned_of_gone
        (Nat.lt_of_lt_of_le known' later.references.length_le) gone

/-! ## From the closing on -/

/-- A machine that was ended was ended once, and no VM has it. -/
theorem Orderly.of_stopped (orderly : u.Orderly) {machine : MachineId}
    (ended : machine ∈ u.host.engine.stopped) :
    (∀ vm, u.host.machine? vm ≠ some machine) ∧ u.host.engine.stopped.count machine = 1 := by
  obtain ⟨-, once, apart⟩ := List.nodup_append.mp (orderly.valid.machines.nodup_iff.mpr List.nodup_range)
  refine ⟨fun vm isOpen => ?_, by rw [once.count, if_pos ended]⟩
  obtain ⟨v, found, pointer⟩ := Option.bind_eq_some_iff.mp isOpen
  have owned : machine ∈ u.host.machines := List.mem_filterMap.mpr ⟨v, List.mem_of_getElem? found, pointer⟩
  exact apart machine owned machine ended rfl

/-- The first time that a VM is closed its machine is ended. -/
theorem Orderly.closeVm_ends (orderly : u.Orderly) {vm : VmId} {machine : MachineId}
    (isOpen : u.host.machine? vm = some machine) {s : HostState} (closed : closeVm vm u.host = .ok () s) :
    vm < s.vms.length ∧ s.machine? vm = none ∧ s.engine.stopped = machine :: u.host.engine.stopped := by
  obtain ⟨v, found, pointer⟩ := Option.bind_eq_some_iff.mp isOpen
  have bound := (List.getElem?_eq_some_iff.mp found).1
  rw [closeVm_run, found] at closed
  dsimp only at closed
  by_cases free : v.lock.readers = 0
  · rw [if_pos free, Handle.toDestroy, if_pos (orderly.valid.owned v (List.mem_of_getElem? found)),
      pointer] at closed
    cases closed
    refine ⟨by rwa [List.length_set], ?_, rfl⟩
    rw [HostState.machine?, List.getElem?_set_self bound]
    rfl
  · rw [if_neg free] at closed
    cases closed

theorem Step.of_closeVm {vm : VmId} {s : HostState} (closed : closeVm vm u.host = .ok () s) :
    Step u ⟨s, u.loose, u.uses⟩ := by
  have performed : (Command.ask (.closeVm vm)).perform u.host = .ok [] s := by
    simp only [Command.perform, Request.perform, bind_run, closed, pure_run]
  have step := @Step.operate u.host u.loose u.loose u.uses (.ask (.closeVm vm)) trivial (.refl _)
  simpa only [after, answer?, performed, Option.getD_some, List.nil_append] using step

/-- **A closed VM is inert.** From the moment that a VM is closed, whatever else happens: everything that
needs the VM or an object of it fails because the VM is closed, whatever the engine is, and changes nothing.
No work on it is under way, nothing can be asked of its machine, which no VM has any more, and the machine was
ended once. Wrappers can be let go of as before, and each reference is given back once. -/
theorem closed_vm_is_inert (u : Usage) (reached : u.Reachable) {vm : VmId} {machine : MachineId}
    (isOpen : u.host.machine? vm = some machine) {s : HostState} (closed : closeVm vm u.host = .ok () s)
    {v : Usage} (leads : Leads [] ⟨s, u.loose, u.uses⟩ v) :
    v.host.InertVm vm ∧
    (∀ object, v.host.vmOf? object = some vm → v.host.InertObject vm object ∧ v.Releasable object) ∧
    (∀ use ∈ v.uses, use.vm? ≠ some vm) ∧
    (∀ other, v.host.machine? other ≠ some machine) ∧ v.host.engine.stopped.count machine = 1 ∧
    ∀ ref < v.host.engine.references.length, v.host.engine.returned.count ref =
      if ref ∈ v.host.armed ++ v.loose ++ v.host.engine.leaked then 0 else 1 := by
  obtain ⟨known, gone, stopped⟩ := reached.orderly.closeVm_ends isOpen closed
  have orderly := (reached.step (.of_closeVm closed)).orderly
  have orderly' := leads.orderly orderly
  have lasts := leads.lasts orderly
  have stays : v.host.machine? vm = none := (lasts.vms known).elim (fun same => same.trans gone) id
  have unused : ∀ use ∈ v.uses, use.vm? ≠ some vm := fun use under keeps =>
    orderly'.machine?_of_vm under keeps stays
  have unread : v.host.vmReaders vm = 0 := by
    rw [orderly'.vmReaders, List.countP_eq_zero]
    exact fun use under keeps => unused use under (decide_eq_true_eq.mp keeps)
  have ended : machine ∈ v.host.engine.stopped := lasts.stopped.subset (stopped ▸ List.mem_cons_self)
  obtain ⟨nobody, once⟩ := orderly'.of_stopped ended
  refine ⟨HostState.inertVm_of_closed stays unread, fun object isFor => ⟨?_, ?_⟩, unused, nobody, once,
    fun ref known => orderly'.count_returned known⟩
  · exact HostState.inertObject_of_closed isFor stays
  · obtain ⟨w, found, -⟩ := Option.map_eq_some_iff.mp isFor
    exact orderly'.releasable (List.getElem?_eq_some_iff.mp found).1

/-- A VM that is closed while a userdata of it is borrowed, and what is left when the borrow ended. -/
theorem closed_vm_is_inert_of_borrow :
    let s := after (closeVm 0) borrowedUserdata.host
    let t := after (Use.borrow ⟨0, 0, true⟩).leave s
    borrowedUserdata.Reachable ∧ closeVm 0 borrowedUserdata.host = .ok () s ∧
      Leads [] ⟨s, [], borrowedUserdata.uses⟩ ⟨t, [], []⟩ ∧
      t.Refuses (globals 0) (.vmClosed "get globals") ∧
      t.Refuses (Userdata.borrow .integer false 0) (.vmClosed "borrow userdata") ∧
      (∀ code args, t.Refuses (Function.call code 1 args) (.vmClosed "call function")) ∧
      t.Says (pointer 0) none ∧ t.engine.stopped = [0] ∧
      closeObject 0 t = .ok () { t.unwrapped 0 with engine := t.engine.giveBack 0 } ∧
      disarm 1 t = .ok 1 (t.unwrapped 1) := by
  intro s t
  have reached : borrowedUserdata.Reachable := borrowedUserdata_reachable
  have closed : closeVm 0 borrowedUserdata.host = .ok () s := rfl
  have isOpen : borrowedUserdata.host.machine? 0 = some 0 := rfl
  have leads : Leads [] ⟨s, [], borrowedUserdata.uses⟩ ⟨t, [], []⟩ :=
    .of_step (.leave List.mem_cons_self) List.nil_suffix
  obtain ⟨inert, objects, -, -, -, -⟩ := closed_vm_is_inert borrowedUserdata reached isOpen closed leads
  obtain ⟨userdata, releasable⟩ := objects 0 rfl
  obtain ⟨function, releasable'⟩ := objects 1 rfl
  exact ⟨reached, closed, leads, inert.refuses .globals, userdata.refuses (.borrow .integer false),
    fun code args => function.refuses (.call code args), userdata.pointer, rfl,
    ((releasable.armed 0 rfl).2 nofun).1, ((releasable'.armed 1 rfl).2 nofun).2⟩

end Usage
end ScriptHost

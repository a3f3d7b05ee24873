/-
Letting go of what nothing refers to is work that gives back its guards, as long as something refers to
whatever is read (`HostState.reclaimOnce_evolves`). It ends when there is nothing more to let go of: every
object that is left is kept alive by something (`HostState.held_of_reclaim`).
-/
import ScriptHost.Proofs.Host.Evolving

namespace ScriptHost

theorem map_mapIdx {α β γ : Type} (l : List α) (f : Nat → α → β) (g : β → γ) :
    (l.mapIdx f).map g = l.mapIdx fun i a => g (f i a) :=
  List.ext_getElem? fun i => by
    rw [List.getElem?_map, List.getElem?_mapIdx, List.getElem?_mapIdx, Option.map_map]
    rfl

/-- Members that change may only stop counting. -/
theorem countP_mapIdx_le {α : Type} {p : α → Bool} {f : Nat → α → α} (l : List α)
    (fewer : ∀ i a, p (f i a) = true → p a = true) : (l.mapIdx f).countP p ≤ l.countP p := by
  induction l generalizing f with
  | nil => exact Nat.le_refl 0
  | cons a l ih =>
    have rest := @ih (fun i => f (i + 1)) fun i => fewer (i + 1)
    rw [List.mapIdx_cons, List.countP_cons, List.countP_cons]
    have first := fewer 0 a
    split
    · next counts =>
      rw [if_pos (first counts)]
      omega
    · omega

/-- When as many count as before, each counts that did. -/
theorem of_countP_mapIdx_eq {α : Type} {p : α → Bool} {f : Nat → α → α} {l : List α}
    (fewer : ∀ i a, p (f i a) = true → p a = true) (same : (l.mapIdx f).countP p = l.countP p) {i : Nat}
    {a : α} (there : l[i]? = some a) (counts : p a = true) : p (f i a) = true := by
  induction l generalizing f i with
  | nil => simp at there
  | cons b l ih =>
    have fewer' : ∀ i a, p (f (i + 1) a) = true → p a = true := fun i => fewer (i + 1)
    have rest := countP_mapIdx_le l fewer'
    rw [List.mapIdx_cons, List.countP_cons, List.countP_cons] at same
    have first := fewer 0 b
    cases i with
    | zero =>
      obtain rfl : b = a := by simpa using there
      cases still : p (f 0 b) with
      | true => rfl
      | false =>
        rw [still, if_pos counts, if_neg Bool.false_ne_true] at same
        omega
    | succ i =>
      refine ih (f := fun i => f (i + 1)) fewer' ?_ (by simpa using there)
      split at same
      · next still =>
        rw [if_pos (first still)] at same
        omega
      · split at same <;> omega

/-! ## Objects -/

namespace Engine

variable {makes : Prop} {e : Engine}

theorem Sound.foldl_giveBack (sound : e.Sound) (refs : List ReferenceId) :
    Evolves makes e (refs.foldl Engine.giveBack e) := by
  induction refs generalizing e with
  | nil => exact .refl sound
  | cons ref refs ih =>
    have first : Evolves makes e (e.giveBack ref) := sound.giveBack ref
    exact first.trans (ih first.sound)

theorem object?_freeUnheld (e : Engine) (id : ObjectId) :
    e.freeUnheld.object? id = if id ∈ e.heldObjects then e.object? id else none := by
  simp only [object?, freeUnheld, List.getElem?_mapIdx, List.contains_iff_mem]
  split
  · cases e.objects[id]? <;> rfl
  · cases e.objects[id]? <;> rfl

/-- What is kept alive by what is left was kept alive before. -/
theorem mem_heldObjects_of_freeUnheld {id : ObjectId} (held : id ∈ e.freeUnheld.heldObjects) :
    id ∈ e.heldObjects := by
  rw [mem_heldObjects] at held ⊢
  refine held.imp_right (Or.imp_right ?_)
  rintro ⟨o, there, keeps⟩
  obtain ⟨i, bound, stands⟩ := List.mem_mapIdx.mp there
  split at stands
  · exact ⟨o, stands ▸ List.getElem_mem bound, keeps⟩
  · cases stands

theorem Sound.freeUnheld (sound : e.Sound) : e.freeUnheld.Sound := by
  intro id held
  have before := mem_heldObjects_of_freeUnheld held
  rw [Has, object?_freeUnheld, if_pos before]
  exact sound id before

/-- Where everything is kept alive there is nothing to free. -/
theorem freeUnheld_eq_self (held : ∀ id, e.Has id → id ∈ e.heldObjects) : e.freeUnheld = e := by
  have same : e.freeUnheld.objects = e.objects := by
    refine List.ext_getElem? fun id => ?_
    simp only [freeUnheld, List.getElem?_mapIdx, List.contains_iff_mem]
    cases found : e.objects[id]? with
    | none => rfl
    | some x =>
      cases x with
      | none => simp
      | some o => simp [held id (has_of_object? (by rw [object?, found, Option.join_some]))]
  exact congrArg (fun objects => { e with objects }) same

end Engine

namespace HostState

variable {makes : Prop} {s : HostState}

/-! ## One round -/

theorem wrappers_finalizeWrappers (s : HostState) (live : List HandleId) :
    (s.finalizeWrappers live).wrappers = s.wrappers.mapIdx fun h w =>
      if h ∈ live then w else { w with lock := w.lock.disarmed } := by
  simp only [finalizeWrappers, Handle.finalize_returns, map_mapIdx, List.contains_iff_mem]
  congr 1
  funext h w
  split <;> rfl

theorem vms_finalizeVms (s : HostState) (live : List VmId) :
    (s.finalizeVms live).vms = s.vms.mapIdx fun id v =>
      if id ∈ live then v else ⟨v.lock.disarmed, true⟩ := by
  simp only [finalizeVms, Handle.finalize_returns, map_mapIdx, List.contains_iff_mem]
  congr 1
  funext id v
  split <;> rfl

theorem objects_finalizeWrappers (s : HostState) (live : List HandleId) :
    (s.finalizeWrappers live).engine.objects = s.engine.objects := by
  have same : ∀ (refs : List ReferenceId) (e : Engine),
      (refs.foldl Engine.giveBack e).objects = e.objects := by
    intro refs
    induction refs with
    | nil => exact fun _ => rfl
    | cons ref refs ih => exact fun e => ih (e.giveBack ref)
  exact same _ _

theorem objects_finalizeVms (s : HostState) (live : List VmId) :
    (s.finalizeVms live).engine.objects = s.engine.objects :=
  (Engine.foldl_stop _ _).2.1

theorem finalizeWrappers_evolves (valid : s.Valid) {live : List HandleId}
    (unread : ∀ h w, s.wrappers[h]? = some w → h ∉ live → w.lock.readers = 0) :
    s.Evolves makes (s.finalizeWrappers live) := by
  have engine : Engine.Evolves makes s.engine (s.finalizeWrappers live).engine :=
    valid.sound.foldl_giveBack _
  refine ⟨.refl _, ?_, .refl _, .refl _, engine.references, engine.objects,
    engine.stopped ▸ List.suffix_rfl, (valid.inEngine engine).congr rfl rfl⟩
  rw [wrappers_finalizeWrappers]
  refine .mapIdx fun h w found => ?_
  split
  · exact Std.Refl.refl w
  · next dropped => exact ⟨rfl, Handle.follows_disarmed (unread h w found dropped)⟩

/-- What a VM owned that goes away is ended. -/
theorem Valid.finalizeVms (valid : s.Valid) (live : List VmId) : (s.finalizeVms live).Valid := by
  refine valid.stop (perm_filterMap_parted (f := fun v : Vm => v.lock.pointer) fun id v mem => ?_)
    (fun v mem isGone => ?_) fun v mem => ?_
  · dsimp only
    split
    · exact .of_eq (List.append_nil _)
    · rw [Handle.finalize_returns, Handle.toDestroy, valid.owned v mem]
      exact .refl _
  all_goals
    have reached : v ∈ (s.finalizeVms live).vms := mem
    rw [vms_finalizeVms] at reached
    obtain ⟨id, bound, rfl⟩ := List.mem_mapIdx.mp reached
  · split at isGone
    · next kept =>
      rw [if_pos kept]
      exact valid.gone _ (List.getElem_mem bound) isGone
    · next dropped =>
      rw [if_neg dropped]
      rfl
  · have owned := valid.owned _ (List.getElem_mem bound)
    split <;> exact owned

theorem finalizeVms_evolves (valid : s.Valid) {live : List VmId}
    (unread : ∀ id v, s.vms[id]? = some v → id ∉ live → v.lock.readers = 0) :
    s.Evolves makes (s.finalizeVms live) := by
  obtain ⟨references, objects, -, stopped⟩ := Engine.foldl_stop _ s.engine
  refine ⟨?_, .refl _, .refl _, .refl _, references ▸ .refl _, objects ▸ .refl _,
    stopped ▸ List.suffix_append _ _, valid.finalizeVms live⟩
  rw [vms_finalizeVms]
  refine .mapIdx fun id v found => ?_
  split
  · exact Std.Refl.refl v
  · next dropped => exact ⟨Handle.follows_disarmed (unread id v found dropped)⟩

theorem freeUnheld_evolves (valid : s.Valid) :
    s.Evolves makes { s with engine := s.engine.freeUnheld } := by
  refine ⟨.refl _, .refl _, .refl _, .refl _, .refl _, .mapIdx fun id x _ => ?_, List.suffix_rfl, ?_⟩
  · split
    · exact Std.Refl.refl x
    · exact .inl rfl
  · exact ⟨valid.sound.freeUnheld, valid.machines, valid.gone, valid.owned⟩

theorem reclaimOnce_evolves (valid : s.Valid) {roots : Roots}
    (wrappers : ∀ h w, s.wrappers[h]? = some w → h ∉ s.liveWrappers roots → w.lock.readers = 0)
    (vms : ∀ id v, s.vms[id]? = some v → id ∉ s.liveVms roots → v.lock.readers = 0) :
    s.Evolves makes (s.reclaimOnce roots) := by
  have first : s.Evolves makes (s.finalizeWrappers (s.liveWrappers roots)) :=
    finalizeWrappers_evolves valid wrappers
  have second : (s.finalizeWrappers (s.liveWrappers roots)).Evolves makes
      ((s.finalizeWrappers (s.liveWrappers roots)).finalizeVms (s.liveVms roots)) :=
    finalizeVms_evolves first.valid vms
  exact (first.trans second).trans (freeUnheld_evolves second.valid)

/-! ## All rounds -/

/-- A round makes less present, or is the last: then everything left is kept alive. -/
theorem present_reclaimOnce (s : HostState) (roots : Roots) :
    (s.reclaimOnce roots).present ≤ s.present ∧ ((s.reclaimOnce roots).present = s.present →
      ∀ id, (s.reclaimOnce roots).engine.Has id → id ∈ (s.reclaimOnce roots).engine.heldObjects) := by
  let finalized := (s.finalizeWrappers (s.liveWrappers roots)).finalizeVms (s.liveVms roots)
  have wrappers : finalized.wrappers.countP (!·.lock.isClosed) ≤ s.wrappers.countP (!·.lock.isClosed) := by
    show (s.finalizeWrappers _).wrappers.countP _ ≤ _
    rw [wrappers_finalizeWrappers]
    refine countP_mapIdx_le _ fun h w isOpen => ?_
    split at isOpen
    · exact isOpen
    · cases isOpen
  have vms : finalized.vms.countP (!·.gone) ≤ s.vms.countP (!·.gone) := by
    show ((s.finalizeWrappers _).finalizeVms _).vms.countP _ ≤ _
    rw [vms_finalizeVms]
    refine countP_mapIdx_le _ fun id v stays => ?_
    split at stays
    · exact stays
    · cases stays
  have objects : finalized.engine.objects = s.engine.objects :=
    (objects_finalizeVms _ _).trans (objects_finalizeWrappers s _)
  have freed : ∀ id o, (if finalized.engine.heldObjects.contains id then o else none : Option Object).isSome →
      o.isSome := by
    intro id o stays
    split at stays
    · exact stays
    · cases stays
  have left : finalized.engine.freeUnheld.objects.countP (·.isSome) ≤
      finalized.engine.objects.countP (·.isSome) := countP_mapIdx_le _ freed
  have present : (s.reclaimOnce roots).present = finalized.wrappers.countP (!·.lock.isClosed) +
      finalized.vms.countP (!·.gone) + finalized.engine.freeUnheld.objects.countP (·.isSome) := rfl
  rw [present, HostState.present, ← objects]
  refine ⟨Nat.add_le_add (Nat.add_le_add wrappers vms) left, fun same => ?_⟩
  have kept : finalized.engine.freeUnheld.objects.countP (·.isSome) =
      finalized.engine.objects.countP (·.isSome) := by
    omega
  have held : ∀ id, finalized.engine.Has id → id ∈ finalized.engine.heldObjects := by
    intro id there
    obtain ⟨o, found⟩ := Option.ne_none_iff_exists'.mp there
    have stays := of_countP_mapIdx_eq freed kept (Option.join_eq_some_iff.mp found) rfl
    split at stays
    · next among => exact List.contains_iff_mem.mp among
    · cases stays
  show ∀ id, finalized.engine.freeUnheld.Has id → id ∈ finalized.engine.freeUnheld.heldObjects
  rw [Engine.freeUnheld_eq_self held]
  exact held

/-- What is left when nothing more is let go of is kept alive by something. -/
theorem held_of_reclaim {roots : Roots} {id : ObjectId} (there : (s.reclaim roots).engine.Has id) :
    id ∈ (s.reclaim roots).engine.heldObjects := by
  have within : ∀ rounds (s : HostState), s.present < rounds → ∀ id,
      (reclaimWithin roots rounds s).engine.Has id →
        id ∈ (reclaimWithin roots rounds s).engine.heldObjects := by
    intro rounds
    induction rounds with
    | zero => exact fun s less => absurd less (Nat.not_lt_zero _)
    | succ rounds ih =>
      intro s less
      obtain ⟨fewer, last⟩ := s.present_reclaimOnce roots
      simp only [reclaimWithin]
      split
      · next same => exact last same
      · next other => exact ih _ (by omega)
  exact within _ s (Nat.lt_succ_self _) id there

end HostState
end ScriptHost

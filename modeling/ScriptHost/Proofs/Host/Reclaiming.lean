/-
What goes away gives its reference back: finalizing wrappers, ending machines and freeing objects keep
the balance of references.
-/
import ScriptHost.Host.Reclaim
import ScriptHost.Proofs.Host.Balance

namespace ScriptHost

variable {calls : CallbackId → Prop}

theorem Engine.Balanced.foldl_giveBack {refs : List ReferenceId} {e : Engine}
    {out : List ReferenceId} (h : e.Balanced calls (refs ++ out)) :
    (refs.foldl Engine.giveBack e).Balanced calls out := by
  induction refs generalizing e with
  | nil => exact h
  | cons ref refs ih => exact ih h.giveBack

theorem Engine.Balanced.foldl_stop (machines : List MachineId) {e : Engine}
    {out : List ReferenceId} (h : e.Balanced calls out) :
    (machines.foldl Engine.stop e).Balanced calls out := by
  induction machines generalizing e with
  | nil => exact h
  | cons machine machines ih => exact ih (h.stop machine)

/-- Where every member is parted into what stays, with what it still owns, and what it gives away, the two
together are all that was owned. -/
theorem perm_filterMap_parted {α β : Type} {f : α → Option β} {part : Nat → α → α × Option β}
    {l : List α}
    (parts : ∀ i, ∀ a ∈ l, ((f (part i a).1).toList ++ (part i a).2.toList).Perm (f a).toList) :
    ((l.mapIdx part).filterMap (·.2) ++ ((l.mapIdx part).map (·.1)).filterMap f).Perm
      (l.filterMap f) := by
  classical
  induction l generalizing part with
  | nil => exact .refl _
  | cons a l ih =>
    have rest := @ih (fun i => part (i + 1)) fun i b mem => parts (i + 1) b (List.mem_cons_of_mem _ mem)
    have first := parts 0 a List.mem_cons_self
    rw [List.mapIdx_cons, List.map_cons, filterMap_cons_toList, filterMap_cons_toList,
      filterMap_cons_toList]
    simp only [List.perm_iff_count, List.count_append] at first rest ⊢
    intro b
    have here := first b
    have there := rest b
    omega

/-- A wrapper that is referred to stays, and any other is disarmed and gives away what it owned. -/
def Wrapper.parted (live : List HandleId) (h : HandleId) (w : Wrapper) : Wrapper × Option ReferenceId :=
  if live.contains h then (w, none) else ({ w with lock := w.lock.disarmed }, w.lock.toDestroy)

theorem HostState.finalizeWrappers_eq (s : HostState) (live : List HandleId) :
    s.finalizeWrappers live = { s with
      wrappers := (s.wrappers.mapIdx (Wrapper.parted live)).map (·.1)
      engine := ((s.wrappers.mapIdx (Wrapper.parted live)).filterMap (·.2)).foldl Engine.giveBack s.engine } := by
  simp only [finalizeWrappers, Handle.finalize_returns]
  rfl

namespace HostState.Balanced

variable {s : HostState} {loose : List ReferenceId}

theorem finalizeWrappers (h : s.Balanced calls loose) (live : List HandleId) :
    (s.finalizeWrappers live).Balanced calls loose := by
  have parts : ∀ h, ∀ w ∈ s.wrappers,
      ((w.parted live h).1.lock.pointer.toList ++ (w.parted live h).2.toList).Perm w.lock.pointer.toList := by
    intro object w mem
    rw [Wrapper.parted]
    split
    · exact .of_eq (List.append_nil _)
    · rw [Handle.toDestroy, h.owned w mem]
      exact .refl _
  have parted := perm_filterMap_parted (f := fun w : Wrapper => w.lock.pointer) parts
  rw [finalizeWrappers_eq]
  refine ⟨?_, fun w mem => ?_⟩
  · refine Engine.Balanced.foldl_giveBack (h.engine.perm ?_)
    exact (parted.symm.append_right loose).trans (.of_eq (List.append_assoc _ _ _))
  · obtain ⟨left, there, rfl⟩ := List.mem_map.mp mem
    obtain ⟨object, bound, rfl⟩ := List.mem_mapIdx.mp there
    have owned := h.owned _ (List.getElem_mem bound)
    rw [Wrapper.parted]
    split <;> exact owned

theorem finalizeVms (h : s.Balanced calls loose) (live : List VmId) :
    (s.finalizeVms live).Balanced calls loose :=
  ⟨h.engine.foldl_stop _, h.owned⟩

theorem reclaimOnce (h : s.Balanced calls loose) (roots : Roots) :
    (s.reclaimOnce roots).Balanced calls loose := by
  have finalized := (h.finalizeWrappers (s.liveWrappers roots)).finalizeVms (s.liveVms roots)
  exact ⟨finalized.engine.freeUnheld, finalized.owned⟩

theorem reclaim (h : s.Balanced calls loose) (roots : Roots) :
    (s.reclaim roots).Balanced calls loose := by
  have within : ∀ rounds (s : HostState), s.Balanced calls loose →
      (HostState.reclaimWithin roots rounds s).Balanced calls loose := by
    intro rounds
    induction rounds with
    | zero => exact fun _ h => h
    | succ rounds ih =>
      intro s h
      have next := h.reclaimOnce roots
      simp only [reclaimWithin]
      split
      · exact next
      · exact ih _ next
  exact within _ s h

end HostState.Balanced

/-! ## Dropping wrappers -/

theorem Engine.leaked_foldl_giveBack (refs : List ReferenceId) (e : Engine) :
    (refs.foldl giveBack e).leaked = e.leaked := by
  induction refs generalizing e with
  | nil => rfl
  | cons ref refs ih => exact ih (e.giveBack ref)

namespace HostState

/-- A wrapper among some owns a reference. -/
def Keeps (s : HostState) (kept : List HandleId) (ref : ReferenceId) : Prop :=
  ∃ h ∈ kept, s.pointers[h]? = some (some ref)

theorem pointers_finalizeWrappers (s : HostState) (kept : List HandleId) :
    (s.finalizeWrappers kept).pointers =
      s.pointers.mapIdx fun h owned => if h ∈ kept then owned else none := by
  refine List.ext_getElem (by simp [pointers, finalizeWrappers_eq]) fun h _ _ => ?_
  simp only [pointers, finalizeWrappers_eq, Wrapper.parted, List.getElem_map, List.getElem_mapIdx,
    List.contains_iff_mem]
  split <;> rfl

theorem mem_armed_finalizeWrappers {s : HostState} {kept : List HandleId} {ref : ReferenceId} :
    ref ∈ (s.finalizeWrappers kept).armed ↔ s.Keeps kept ref := by
  have owns : ∀ h : HandleId, (s.finalizeWrappers kept).pointers[h]? = some (some ref) ↔
      h ∈ kept ∧ s.pointers[h]? = some (some ref) := by
    intro h
    rw [pointers_finalizeWrappers, List.getElem?_mapIdx]
    by_cases among : h ∈ kept
    · simp [among]
    · simp [among]
  rw [mem_armed]
  exact exists_congr owns

/-- When all wrappers but some are dropped, the references that are not given back are those of these
wrappers, the loose ones and those that were lost. -/
theorem Balanced.target?_finalizeWrappers {s : HostState} {loose : List ReferenceId}
    (h : s.Balanced calls loose) (kept : List HandleId) {ref : ReferenceId} :
    (s.finalizeWrappers kept).engine.target? ref ≠ none ↔
      s.Keeps kept ref ∨ ref ∈ loose ∨ ref ∈ s.engine.leaked := by
  have finalized := h.finalizeWrappers kept
  have leaked : (s.finalizeWrappers kept).engine.leaked = s.engine.leaked :=
    Engine.leaked_foldl_giveBack _ _
  rw [finalized.engine.target?_ne_none, leaked, List.mem_append, mem_armed_finalizeWrappers, or_assoc]

end HostState
end ScriptHost

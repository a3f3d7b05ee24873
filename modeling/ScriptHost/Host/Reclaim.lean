/-
What nobody refers to any more goes away: an armed wrapper gives its reference back, a VM ends its
machine, and the engine frees the objects that nothing keeps alive. A wrapper keeps its VM. A function
keeps its callback, and the callback the values it keeps, but not the VM it was made for. Objects that
keep each other in a circle stay.
-/
import ScriptHost.Host.State

namespace ScriptHost

/-- What is referred to from outside of the host's state. -/
structure Roots where
  vms : List VmId
  values : List Value
  /-- Callbacks that nobody gave to the engine. -/
  callbacks : List CallbackId
  deriving Repr

namespace HostState

/-! ## Who is referred to -/

/-- The callbacks that can still be called. -/
def liveCallbacks (s : HostState) (roots : Roots) : List CallbackId :=
  roots.callbacks ++ s.engine.heldCallbacks

def liveValues (s : HostState) (roots : Roots) : List Value :=
  roots.values ++ (s.liveCallbacks roots).flatMap fun c => (s.callbacks[c]?).elim [] (·.kept)

def liveWrappers (s : HostState) (roots : Roots) : List HandleId :=
  (s.liveValues roots).filterMap Value.object?

def liveVms (s : HostState) (roots : Roots) : List VmId :=
  roots.vms ++ (s.liveWrappers roots).filterMap fun h => (s.wrappers[h]?).map (·.vm)

/-! ## Letting go -/

/-- Finalizes the wrappers that nothing refers to. -/
def finalizeWrappers (s : HostState) (live : List HandleId) : HostState :=
  let finalized := s.wrappers.mapIdx fun h w =>
    if live.contains h then (w, none)
    else
      let ⟨lock, destroyed, _⟩ := w.lock.finalize .returns
      ({ w with lock }, destroyed)
  { s with
    wrappers := finalized.map (·.1)
    engine := (finalized.filterMap (·.2)).foldl Engine.giveBack s.engine }

def finalizeVms (s : HostState) (live : List VmId) : HostState :=
  let finalized := s.vms.mapIdx fun id v =>
    if live.contains id then (v, none)
    else
      let ⟨lock, destroyed, _⟩ := v.lock.finalize .returns
      (⟨lock, true⟩, destroyed)
  { s with
    vms := finalized.map (·.1)
    engine := (finalized.filterMap (·.2)).foldl Engine.stop s.engine }

/-- One round: wrappers, VMs, objects. It may leave more without anyone who refers to it. -/
def reclaimOnce (s : HostState) (roots : Roots) : HostState :=
  let finalized := (s.finalizeWrappers (s.liveWrappers roots)).finalizeVms (s.liveVms roots)
  { finalized with engine := finalized.engine.freeUnheld }

/-- How much is still there. A round that changes nothing is the last one. -/
def present (s : HostState) : Nat :=
  s.wrappers.countP (!·.lock.isClosed) + s.vms.countP (!·.gone) + s.engine.objects.countP (·.isSome)

/-- Rounds until nothing changes. Each round but the last makes less present. -/
def reclaimWithin (roots : Roots) : (rounds : Nat) → HostState → HostState
  | 0, s => s
  | rounds + 1, s =>
    let next := s.reclaimOnce roots
    if next.present = s.present then next else reclaimWithin roots rounds next

/-- Lets go of all that nothing refers to. -/
def reclaim (s : HostState) (roots : Roots) : HostState :=
  reclaimWithin roots (s.present + 1) s

end HostState
end ScriptHost

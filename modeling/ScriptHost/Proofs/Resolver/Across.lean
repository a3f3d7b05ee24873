/-
A resolver driven across the interface and the same resolver asked directly. Both walk through the same
states of its own, and each answer is the direct one as it crosses (`Resolver.foreign_simulates`). A
resolver over files is a state machine of this kind (`FileResolver.selfContained`).
-/
import ScriptHost.Proofs.Resolver.Module
import ScriptHost.Proofs.Resolver.Crossing
import ScriptHost.Proofs.Host.Armed

namespace ScriptHost

variable {σ : Type}

/-- Whether an operation loads a function. -/
def Operation.loads : Operation → Bool
  | load _ => true
  | _ => false

/-- A loader that always fails. -/
def ChunkLoader.failing (vm : VmId) (e : Error) : ChunkLoader where
  vm
  load _ host := (.returned (.error e), host)

namespace Resolver

/-! ## Asking -/

theorem own_ask (r : Resolver σ) (op : Operation) (s : Scene σ) :
    (r.ask op s).2.own = (r op s).2.own := by
  unfold ask
  rcases r op s with ⟨a | p, t⟩ <;> rfl

theorem host_ask (r : Resolver σ) (op : Operation) (s : Scene σ) :
    (r.ask op s).2.host = (r op s).2.host := by
  unfold ask
  rcases r op s with ⟨a | p, t⟩ <;> rfl

theorem ask_congr {r : Resolver σ} {op : Operation} {s t : Scene σ}
    (same : (r op s).1 = (r op t).1) : (r.ask op s).1 = (r.ask op t).1 := by
  unfold ask
  rcases here : r op s with ⟨a, s'⟩
  rcases there : r op t with ⟨b, t'⟩
  obtain rfl : a = b := by simpa [here, there] using same
  cases a <;> rfl

theorem own_foreign (r : Resolver σ) (op : Operation) (s : Scene σ) :
    (r.foreign op s).2.own = (r op.stripped s).2.own := by
  rw [foreign_eq, own_crossed, own_ask]

/-- But for a loaded function, what crosses does not depend on the scene. -/
theorem crossed_congr {op : Operation} (plain : op.loads = false)
    {asked asked' : Except CallbackPanic op.stripped.Answer × Scene σ} (same : asked.1 = asked'.1) :
    (crossed op asked).1 = (crossed op asked').1 := by
  cases op with
  | load loader => cases plain
  | isAllowed | hasModule | hasConfig => exact congrArg crossedFlag same
  | reset | jumpToAlias | toParent | toChild => exact congrArg (crossedWalk _) same
  | cacheKey => exact congrArg crossedKey same
  | config => exact congrArg crossedConfig same

/-! ## Functions that are handed over -/

/-- A loaded function that its wrapper gives away is then owned by one new wrapper in its place. -/
theorem crossedLoad_of_disarm {loader : ChunkLoader} {h : HandleId} {ref : ReferenceId}
    {host host' : HostState} (given : Host.disarm h host = .ok ref host') :
    ∃ w h' host'', host.wrappers[h]? = some w ∧ w.lock.pointer = some ref ∧
      crossedLoad loader (.ok (.ok h)) host = (.ok h', host'') ∧
      host''.wrappers[h']? = some ⟨loader.vm, .arm ref (.ofObject .function)⟩ ∧
      (host''.wrappers[h]?).bind (·.lock.pointer) = none ∧ host''.armed.Perm host.armed := by
  obtain ⟨w, found, pointer, rfl⟩ := Host.disarm_eq_ok given
  have bound := (List.getElem?_eq_some_iff.mp found).1
  let left := host.wrappers.set h { w with lock := w.lock.disarmed }
  let received : Wrapper := ⟨loader.vm, .arm ref (.ofObject .function)⟩
  refine ⟨w, left.length, { host with wrappers := left ++ [received] }, found, pointer, ?_, ?_, ?_, ?_⟩
  · simp only [crossedLoad, given, left, received]
  · simp [received]
  · simp [left, List.getElem?_append_left, bound, Handle.disarmed]
  · have moved := perm_pointersOf_set found { w with lock := w.lock.disarmed }
    rw [pointer] at moved
    have last : pointersOf [received] = [ref] := rfl
    simp only [HostState.armed, pointersOf_append, last]
    exact List.perm_append_comm.trans moved

theorem foreign_load {r : Resolver σ} {loader : ChunkLoader} {s scene : Scene σ}
    {answer : Except CallbackPanic (Except Error HandleId)}
    (asked : r.ask (.load loader) s = (answer, scene)) :
    r.foreign (.load loader) s =
      (.returned (crossedLoad loader answer scene.host).1,
        { scene with host := (crossedLoad loader answer scene.host).2 }) := by
  refine (foreign_eq r (.load loader) s).trans ?_
  show (Outcome.returned (crossed (.load loader) (r.ask (.load loader) s)).1,
    (crossed (.load loader) (r.ask (.load loader) s)).2) = _
  rw [asked]
  rfl

theorem foreign_load_error {r : Resolver σ} {loader : ChunkLoader} {s : Scene σ} {e : Error}
    (failed : (r (.load loader) s).1 = .returned (.error e)) :
    (r.foreign (.load loader) s).1 = .returned (.error (.native (Text.stripped e.message))) := by
  cases here : r (.load loader) s with
  | mk answer scene =>
    rw [here] at failed
    obtain rfl : answer = .returned (.error e) := failed
    have asked : r.ask (.load loader) s = (.ok (.error e), scene) := by
      unfold ask
      rw [here]
    rw [foreign_load asked]
    rfl

/-! ## State machines -/

/-- What the resolver becomes depends on what it is and what it is asked, and so does what it answers,
but for functions it loads. Of the host it knows no more than hosts that are alike share, and by the
wrapper that a function is in alone no hosts are told apart. -/
structure SelfContained (r : Resolver σ) (alike : HostState → HostState → Prop) : Prop where
  refl : ∀ host, alike host host
  handedOver : ∀ loader answer host host', alike host host' →
    alike (crossedLoad loader answer host).2 host'
  own : ∀ op (s t : Scene σ), s.own = t.own → alike s.host t.host → (r op s).2.own = (r op t).2.own
  host : ∀ op (s t : Scene σ), s.own = t.own → alike s.host t.host →
    alike (r op s).2.host (r op t).2.host
  answer : ∀ op (s t : Scene σ), s.own = t.own → alike s.host t.host → op.loads = false →
    (r op s).1 = (r op t).1

theorem loads_stripped (op : Operation) : op.stripped.loads = op.loads := by
  cases op <;> rfl

variable {r : Resolver σ} {alike : HostState → HostState → Prop}

theorem SelfContained.host_foreign (contained : r.SelfContained alike) (op : Operation)
    {s t : Scene σ} (same : s.own = t.own) (hosts : alike s.host t.host) :
    alike (r.foreign op s).2.host (r op.stripped t).2.host := by
  have asked : alike (r.ask op.stripped s).2.host (r op.stripped t).2.host := by
    rw [host_ask]
    exact contained.host op.stripped s t same hosts
  rw [foreign_eq]
  cases op with
  | load loader => exact contained.handedOver loader _ _ _ asked
  | _ => exact asked

/-- Across the interface the resolver walks through the states that it walks through when it is asked
directly. -/
theorem SelfContained.own_after (contained : r.SelfContained alike) (ops : List Operation)
    {s t : Scene σ} (same : s.own = t.own) (hosts : alike s.host t.host) :
    (r.foreign.after ops s).own = (r.after (ops.map Operation.stripped) t).own ∧
      alike (r.foreign.after ops s).host (r.after (ops.map Operation.stripped) t).host := by
  induction ops generalizing s t with
  | nil => exact ⟨same, hosts⟩
  | cons op ops ih =>
    refine ih ?_ (contained.host_foreign op same hosts)
    rw [own_foreign]
    exact contained.own op.stripped s t same hosts

/-- **A resolver across the interface simulates the resolver.** Whatever was asked so far, by whichever
loaders: an operation leaves the resolver as it is left when it is asked directly for the same without
NULs, and is answered by the direct answer as it crosses. A resolver that is a state machine of its own
is then, after all of a run across, what it is after the direct run. A function that was loaded comes
over in one new wrapper of the loader's VM, and its old wrapper stays behind without it; one that its
wrapper does not give away comes over as the text of why not. -/
theorem foreign_simulates (r : Resolver σ) (ops : List Operation) (s : Scene σ) :
    let reached := r.foreign.after ops s
    (∀ op, (r.foreign op reached).2.own = (r op.stripped reached).2.own ∧
      (r.foreign op reached).1 = .returned (crossed op (r.ask op.stripped reached)).1) ∧
    (∀ alike, r.SelfContained alike →
      let direct := r.after (ops.map Operation.stripped) s
      reached.own = direct.own ∧
        ∀ op, op.loads = false →
          (r.foreign op reached).1 = .returned (crossed op (r.ask op.stripped direct)).1) ∧
    ∀ loader h scene, r.ask (.load loader) reached = (.ok (.ok h), scene) →
      (∀ e host, Host.disarm h scene.host = .error e host →
        r.foreign (.load loader) reached =
          (.returned (.error (.native (Text.stripped e.message))), scene)) ∧
      ∀ ref host, Host.disarm h scene.host = .ok ref host →
        ∃ w h' host', scene.host.wrappers[h]? = some w ∧ w.lock.pointer = some ref ∧
          r.foreign (.load loader) reached = (.returned (.ok h'), { scene with host := host' }) ∧
          host'.wrappers[h']? = some ⟨loader.vm, .arm ref (.ofObject .function)⟩ ∧
          (host'.wrappers[h]?).bind (·.lock.pointer) = none ∧
          host'.armed.Perm scene.host.armed := by
  intro reached
  refine ⟨fun op => ⟨own_foreign r op reached, ?_⟩, fun alike contained => ?_,
    fun loader h scene asked => ?_⟩
  · rw [foreign_eq]
  · obtain ⟨own, hosts⟩ := contained.own_after ops (rfl : s.own = s.own) (contained.refl s.host)
    refine ⟨own, fun op plain => ?_⟩
    have same := contained.answer op.stripped _ _ own hosts ((loads_stripped op).trans plain)
    rw [foreign_eq, crossed_congr plain (ask_congr same)]
  · have across := foreign_load asked
    refine ⟨fun e host kept => ?_, fun ref host given => ?_⟩
    · obtain rfl := Host.disarm_eq_error kept
      rw [across]
      simp only [crossedLoad, kept]
    · obtain ⟨w, h', host', found, pointer, handed, received, left, owned⟩ :=
        @crossedLoad_of_disarm loader _ _ _ _ given
      have answered := congrArg (fun handed : Except Error HandleId × HostState =>
        (Outcome.returned handed.1, { scene with host := handed.2 })) handed
      exact ⟨w, h', host', found, pointer, across.trans answered, received, left, owned⟩

/-- The NUL in the text of a failure does not cross. -/
theorem foreign_load_of_nul :
    let r := FileResolver.overTree [.file "/init.luau".toList []] {} none
    let s := r.resolver.foreign.after [.reset "/init.luau".toList] ⟨.start, {}, []⟩
    let loader := ChunkLoader.failing 0 (.native "a\x00b")
    (r.resolver (.load loader) s).1 = .returned (.error (.native "a\x00b")) ∧
      ¬ (r.resolver.foreign (.load loader) s).1 =
        .returned (.error (.native (Error.message (.native "a\x00b")))) := by
  have read : ∀ path, FileKey.ofPath path = FileKey.ofPath "/init.luau".toList →
      (FileResolver.overTree [.file "/init.luau".toList []] {} none).files.read path = .ok [] := by
    intro path place
    have key : FileKey.ofPath "/init.luau".toList = some ["init.luau".toList] := by decide +kernel
    exact FileTree.read_of_contents? (place.trans key) (by decide +kernel)
  refine ⟨?direct, fun kept => absurd (kept.symm.trans (foreign_load_error ?direct)) ?lost⟩
  case direct => exact (FileResolver.resolver_load (read _ (by decide +kernel)) _).1
  case lost =>
    intro same
    have texts := Error.native.inj (Except.error.inj (Outcome.returned.inj same))
    exact absurd texts (by decide +kernel)

end Resolver

namespace FileResolver

/-- What an operation makes of the cursor, and what it answers, depends on the cursor alone. -/
theorem perform_congr (r : FileResolver) (op : Operation) {s t : Scene Cursor}
    (same : s.own = t.own) :
    (r.perform op s).2.own = (r.perform op t).2.own ∧
      (op.loads = false → (r.perform op s).1 = (r.perform op t).1) := by
  obtain ⟨own, host, log⟩ := s
  obtain ⟨own', host', log'⟩ := t
  obtain rfl : own = own' := same
  cases op with
  | jumpToAlias path =>
    simp only [perform]
    generalize r.files.isAbsolute path = absolute
    cases absolute <;> exact ⟨rfl, fun _ => rfl⟩
  | load loader =>
    simp only [perform, load]
    generalize r.files.read own.absoluteFilePath = found
    cases found <;> exact ⟨rfl, fun plain => Bool.noConfusion plain⟩
  | _ => exact ⟨rfl, fun _ => rfl⟩

/-- A resolver over files keeps nothing but its cursor, and knows nothing of the host. -/
theorem selfContained (r : FileResolver) : r.resolver.SelfContained fun _ _ => True where
  refl _ := trivial
  handedOver _ _ _ _ _ := trivial
  own op s t same _ := by
    unfold resolver
    split
    · exact (r.perform_congr op (by exact same)).1
    · exact (r.perform_congr op same).1
  host _ _ _ _ _ := trivial
  answer op s t same _ plain := by
    unfold resolver
    split
    · exact (r.perform_congr op (by exact same)).2 plain
    · exact (r.perform_congr op same).2 plain

end FileResolver

end ScriptHost

/-
When a cache key identifies a module. The key spells a path from the root, so modules at two places
never share one. One place has one key as long as resolvers stand on it tidily, and not otherwise.
-/
import ScriptHost.Proofs.Resolver.Module
import ScriptHost.Proofs.Cursor.Tidy

namespace ScriptHost.FileResolver

/-- After any operations, a resolver over a tree has settled. -/
theorem settled_after (storings : List Storing) (settings : Settings) (environment : Option HandleId)
    (ops : List Operation) (host : HostState) (log : List LogEvent) :
    Cursor.Settled (.ofStorings storings)
      ((overTree storings settings environment).resolver.after ops ⟨.start, host, log⟩).own :=
  own_after_keeps (Cursor.Settled.start _) fun _ _ m _ _ settled => settled.move m

theorem cacheKey_eq_iff {r r' : FileResolver} (same : r.settings = r'.settings)
    (s t : Scene Cursor) :
    (r.resolver .cacheKey s).1 = (r'.resolver .cacheKey t).1 ↔
      s.own.absoluteFilePath = t.own.absoluteFilePath := by
  have key : ∀ a b : Text, (Outcome.returned a = Outcome.returned b) ↔ a = b := by simp
  rw [resolver_cacheKey, resolver_cacheKey]
  refine (key _ _).trans ?_
  simp only [cacheKey, same, List.append_cancel_left_eq, List.cons.injEq, true_and]

/-- **When a key identifies a module.** Whatever two resolvers over one tree, with the same settings,
were asked: equal keys are keys of one place, and equal places have equal keys if and only if both
resolvers stand there tidily, or neither does and they reached it by the same spelling. -/
theorem cacheKey_iff_samePlace_iff (storings : List Storing) (settings : Settings)
    (environment environment' : Option HandleId) (ops ops' : List Operation)
    (host host' : HostState) (log log' : List LogEvent) :
    let r := overTree storings settings environment
    let r' := overTree storings settings environment'
    let s := r.resolver.after ops ⟨.start, host, log⟩
    let t := r'.resolver.after ops' ⟨.start, host', log'⟩
    let sameKey := (r.resolver .cacheKey s).1 = (r'.resolver .cacheKey t).1
    let samePlace :=
      FileKey.ofPath s.own.absoluteFilePath = FileKey.ofPath t.own.absoluteFilePath
    (sameKey → samePlace) ∧
      ((sameKey ↔ samePlace) ↔
        (samePlace →
          (s.own.Tidy ∧ t.own.Tidy) ∨
            (¬ s.own.Tidy ∧ ¬ t.own.Tidy ∧ s.own.absoluteFilePath = t.own.absoluteFilePath))) := by
  intro r r' s t sameKey samePlace
  have ways := FileTree.waysLead_ofStorings storings
  have tidy : s.own.Tidy ↔ FileKey.IsSpelling s.own.absoluteFilePath :=
    (settled_after storings settings environment ops host log).tidy_iff ways
  have tidy' : t.own.Tidy ↔ FileKey.IsSpelling t.own.absoluteFilePath :=
    (settled_after storings settings environment' ops' host' log').tidy_iff ways
  have spelled : sameKey ↔ s.own.absoluteFilePath = t.own.absoluteFilePath :=
    cacheKey_eq_iff rfl s t
  have place : sameKey → samePlace := fun h => congrArg FileKey.ofPath (spelled.mp h)
  refine ⟨place, fun h same => ?_, fun h => ⟨place, fun same => ?_⟩⟩
  · have path := spelled.mp (h.mpr same)
    by_cases here : s.own.Tidy
    · have there : t.own.Tidy := tidy'.mpr (path ▸ tidy.mp here)
      exact .inl ⟨here, there⟩
    · have there : ¬ t.own.Tidy := fun there => here (tidy.mpr (path ▸ tidy'.mp there))
      exact .inr ⟨here, there, path⟩
  · rcases h same with ⟨here, there⟩ | ⟨-, -, path⟩
    · exact spelled.mpr ((tidy.mp here).eq_of_ofPath_eq (tidy'.mp there) same)
    · exact spelled.mpr path

/-- The module at the root under two keys. Standing on `/x/...luau` leaves `/x/..` for a module path,
and the `init` file of the root is found behind it. -/
theorem cacheKey_of_root_twice :
    let r := overTree [.file "/init.luau".toList []] {} none
    let s := r.resolver.after [.reset "/init.luau".toList] ⟨.start, {}, []⟩
    let t := r.resolver.after [.reset "/x/...luau".toList] ⟨.start, {}, []⟩
    (r.resolver .hasModule s).1 = .returned true ∧ (r.resolver .hasModule t).1 = .returned true ∧
      ¬ ((r.resolver .cacheKey s).1 = (r.resolver .cacheKey t).1 ↔
        FileKey.ofPath s.own.absoluteFilePath = FileKey.ofPath t.own.absoluteFilePath) := by
  refine ⟨?_, ?_, fun h => ?_⟩
  · rw [resolver_hasModule]
    refine congrArg Outcome.returned ?_
    show (_ : Bool) = true
    decide +kernel
  · rw [resolver_hasModule]
    refine congrArg Outcome.returned ?_
    show (_ : Bool) = true
    decide +kernel
  · have same := (cacheKey_eq_iff rfl _ _).mp (h.mpr (by decide +kernel))
    exact absurd same (by decide +kernel)

end ScriptHost.FileResolver

/-
A walk that fails leaves its resolver as it was, and one that gets somewhere leaves it where both
spellings of its place resolve, over any file system, and whatever files there were before.
-/
import ScriptHost.Proofs.Resolver.Module
import ScriptHost.Proofs.Cursor.Atomic

namespace ScriptHost.FileResolver

/-! ## Walks of a resolver -/

/-- Only a reset to typed in code is no walk to a place. -/
theorem move_ne_stdin {w : Walk} (walks : w ≠ .reset typedIn) : w.move ≠ .stdin := by
  cases w with
  | reset name =>
    have isFile : name ≠ typedIn := fun e => walks (e ▸ rfl)
    rw [Walk.move_reset isFile]
    nofun
  | jumpToAlias | toParent | toChild => nofun

/-- **Walks are atomic.** Whatever a resolver was asked and whatever moves a cursor made, each over any files
of its own, they stand at the start, on what came from no file, or where both spellings of their place
resolved over the files of some move. From there every further walk, over any files, fails and leaves the
cursor as it was, or gets to where both spellings of the new place resolve; only the reset to typed in code
stands on what came from no file, and never fails. -/
theorem walks_atomic (r : FileResolver) (turns : List Turn) (steps : List Cursor.Step)
    (host : HostState) (log : List LogEvent) :
    let s := r.afterTurns turns ⟨.start, host, log⟩
    let c := (Cursor.start.run steps).2
    (s.own.Left (turns.map (·.files)) ∧ c.Left (steps.map (·.files))) ∧
    ∀ fs : FileSystem,
      (∀ w, w ≠ .reset typedIn → ∃ result, ((r.withFiles fs).walk s w).1 = .returned result ∧
        Cursor.Atomic fs s.own result ((r.withFiles fs).walk s w).2.own) ∧
      (((r.withFiles fs).walk s (.reset typedIn)).1 = .returned (.ok ()) ∧
        ((r.withFiles fs).walk s (.reset typedIn)).2.own = .stdin) ∧
      (∀ m, m ≠ .stdin → Cursor.Atomic fs c (c.move fs m).1 (c.move fs m).2) ∧
      c.move fs .stdin = (.ok (), .stdin) := by
  intro s c
  have start : ∀ files, Cursor.start.Left files := fun _ => .inl rfl
  refine ⟨⟨?_, (start _).run fun step mem => List.mem_map_of_mem mem⟩, fun fs =>
    ⟨fun w walks => ?_, ?_, fun m walks => Cursor.move_atomic fs c walks, rfl⟩⟩
  · exact own_afterTurns_keeps (start _) fun turn mem m _ left => left.move (List.mem_map_of_mem mem) m
  · rcases w.allowed_or_relative (r.withFiles fs) with allowed | ⟨path, rfl, relative⟩
    · obtain ⟨answer, own, -⟩ := walk_of_allowed allowed s
      refine ⟨_, answer, ?_⟩
      rw [own]
      exact Cursor.move_atomic fs s.own (move_ne_stdin walks)
    · obtain ⟨answer, own⟩ := walk_of_relative relative s
      exact ⟨_, answer, own⟩
  · obtain ⟨answer, own, -⟩ := walk_of_allowed (r := r.withFiles fs) (w := .reset typedIn) nofun s
    exact ⟨answer, own⟩

/-- A child that is not there, asked for beside one that was, when the files are gone. -/
theorem walks_atomic_of_miss :
    let r := overTree [.file "/app/lib.luau".toList []] {} none
    let gone := FileSystem.ofTree .empty
    let turns := [⟨r.files, .reset "/app".toList⟩, ⟨r.files, .toChild "lib".toList⟩, ⟨gone, .toParent⟩]
    let s := r.afterTurns turns ⟨.start, {}, []⟩
    (∃ result, ((r.withFiles gone).walk s (.toChild "none".toList)).1 = .returned result ∧
      Cursor.Atomic gone s.own result ((r.withFiles gone).walk s (.toChild "none".toList)).2.own) ∧
    s.own.filePath = "/app/lib.luau".toList := by
  refine ⟨?_, by decide +kernel⟩
  obtain ⟨-, next⟩ := walks_atomic _ _ [] {} []
  exact (next _).1 (.toChild "none".toList) Walk.noConfusion

end ScriptHost.FileResolver

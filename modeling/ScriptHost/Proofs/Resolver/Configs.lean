/-
The configuration that a resolver finds is the one right inside what its module path names, but for a
directory that is named like a module file, and for a name that is dropped where there is no drive.
-/
import ScriptHost.Proofs.Cursor.Configs
import ScriptHost.Proofs.Resolver.Module

namespace ScriptHost.FileResolver

/-- What the configuration file right inside a module path holds, if there is one. -/
def configAt (tree : FileTree) (modulePath : Text) : Option Bytes :=
  (FileKey.ofPath modulePath).bind fun key => tree.contents? (key ++ [Cursor.configName])

/-- What a configuration file that lies inside holds. -/
theorem bind_of_configInside {tree : FileTree} {c : Cursor} (inside : Cursor.ConfigInside tree c) :
    (FileKey.ofPath (c.configPath (.ofTree tree))).bind tree.contents? = configAt tree c.modulePath := by
  rw [inside, configAt]
  cases FileKey.ofPath c.modulePath <;> rfl

/-- **The configuration belongs to the place.** Over the tree of any storings and after any moves, wherever a
walk gets, the configuration file of the cursor lies right inside what the module path names, if and only if
this is no directory that is named like a module file and has no `init` file, and no name that is dropped
from the module path counts behind a drive. A resolver that stands there then says that there is a
configuration if this file is there, and reads what this file holds. -/
theorem config_of_place (storings : List Storing) (moves : List Cursor.Move) {m : Cursor.Move}
    (walks : m ≠ .stdin) {c : Cursor}
    (reached : (Cursor.start.after (.ofTree (.ofStorings storings)) moves).move
      (.ofTree (.ofStorings storings)) m = (.ok (), c)) :
    let tree : FileTree := .ofStorings storings
    (Cursor.ConfigInside tree c ↔ ¬ Cursor.Misplaced tree c) ∧
    (¬ Cursor.Misplaced tree c → ∀ settings environment (s : Scene Cursor), s.own = c →
      let r := overTree storings settings environment
      (r.resolver .hasConfig s).1 = .returned (configAt tree c.modulePath).isSome ∧
        ∃ found, (r.resolver .config s).1 = .returned found ∧
          found.toOption = configAt tree c.modulePath) := by
  intro tree
  have walked : Cursor.Walked (Cursor.start.after (.ofTree tree) moves) := Cursor.Walked.start.after moves
  obtain ⟨t, leads, landed⟩ :=
    Cursor.exists_leads_of_destination walks (Cursor.destination_of_move reached)
  have conventional := FileSystem.conventional_ofTree tree
  have decided := Cursor.configInside_iff_of_land (leads.placed walked.placed landed)
    (leads.rooted conventional walked.anchored.rooted) (leads.drive conventional walked.anchored.drive) landed
  refine ⟨decided, fun straight settings environment s own => ?_⟩
  subst own
  intro r
  have holds := bind_of_configInside (decided.mpr straight)
  refine ⟨?_, _, resolver_config r s, ?_⟩
  · rw [resolver_hasConfig, ← holds]
    exact congrArg Outcome.returned (tree.isFile_eq _)
  · rw [← holds]
    exact tree.toOption_read _

/-- A directory behind a drive, with an `init` file and a configuration beside it. -/
theorem config_of_place_of_init :
    let storings : List Storing := [.file "/app/.luaurc".toList [49], .file "/app/lib/init.luau".toList [],
      .file "/app/lib/.luaurc".toList [50]]
    let r := overTree storings {} none
    let c : Cursor := ⟨"/app/lib".toList, "/app/lib".toList, "C:/app/lib/init.luau".toList,
      "C:/app/lib/init.luau".toList, "C:".toList⟩
    (Cursor.start.after r.files [.path "C:\\app".toList]).move r.files (.child "lib".toList) = (.ok (), c) ∧
      Cursor.ConfigInside (.ofStorings storings) c ∧
      (r.resolver .hasConfig ⟨c, {}, []⟩).1 = .returned true ∧
      (r.resolver .config ⟨c, {}, []⟩).1 = .returned (.ok [50]) := by
  intro storings r c
  have reached : (Cursor.start.after r.files [.path "C:\\app".toList]).move r.files (.child "lib".toList) =
      (.ok (), c) := by decide +kernel
  have straight : ¬ Cursor.Misplaced (.ofStorings storings) c := by
    rintro (⟨-, -, ends⟩ | ⟨-, starts⟩)
    · exact absurd ends (by decide)
    · exact absurd starts (by decide +kernel)
  obtain ⟨inside, answers⟩ := config_of_place storings _ Cursor.Move.noConfusion reached
  obtain ⟨has, found, answer, holds⟩ := answers straight {} none ⟨c, {}, []⟩ rfl
  have stored : configAt (.ofStorings storings) c.modulePath = some [50] := by decide +kernel
  rw [stored] at has holds
  cases found with
  | error e => cases holds
  | ok contents =>
    cases holds
    exact ⟨reached, inside.mpr straight, has, answer⟩

/-- A directory that is named like a module file, and what is found beside it instead. -/
theorem config_beside_place :
    let storings : List Storing := [.file "/x.luau/.luaurc".toList [49], .file "/x/.luaurc".toList [50]]
    let tree : FileTree := .ofStorings storings
    let c : Cursor := ⟨"/x.luau".toList, "/x.luau".toList, "/x.luau".toList, "/x.luau".toList, []⟩
    Cursor.start.move (.ofTree tree) (.child "x.luau".toList) = (.ok (), c) ∧
      tree.isDirectory c.modulePath = true ∧ c.configPath (.ofTree tree) = "/x/.luaurc".toList ∧
      configAt tree c.modulePath = some [49] ∧ ¬ Cursor.ConfigInside tree c ∧
      ((overTree storings {} none).resolver .config ⟨c, {}, []⟩).1 = .returned (.ok [50]) := by
  intro storings tree c
  have beside : tree.read "/x/.luaurc".toList = .ok [50] := by decide +kernel
  have spelled : c.configPath (.ofTree tree) = "/x/.luaurc".toList := by decide +kernel
  refine ⟨by decide +kernel, by decide +kernel, spelled, by decide +kernel, ?_, ?_⟩
  · show ¬ _ = _
    decide +kernel
  · rw [resolver_config]
    exact congrArg Outcome.returned ((congrArg tree.read spelled).trans beside)

end ScriptHost.FileResolver

/-
Two ways back to a place, as long as the files stay what they are. Moves up lead back through the places
that names led down through (`climb_undoes_descent`). A path that is made of the drive and the module path
from the root leads back from anywhere, whatever history was behind the place (`jump_returns`).
-/
import ScriptHost.Proofs.Cursor.Climbing
import ScriptHost.Proofs.Path.FixedPoints

namespace ScriptHost.Cursor

open ScriptHost.Path

/-! ## Landing again -/

/-- Where a cursor landed it lands again. -/
theorem Resolved.land {fs : FileSystem} {c : Cursor} (h : c.Resolved fs) :
    Cursor.land fs c.target = .ok c := by
  obtain ⟨file, absoluteFile, resolved, resolved', spelled', absolute, relative⟩ := h
  refine land_eq_ok_iff.mpr ⟨file, absoluteFile, resolved, resolved', ?_⟩
  have spelled : c.filePath = if fs.isAbsolute file then c.drive ++ file else file := by
    split
    · next h => exact absolute h
    · next h => exact relative (by simpa using h)
  rw [target, ← spelled, ← spelled']

theorem Anchored.after {fs : FileSystem} (conventional : fs.Conventional) {c : Cursor}
    (anchored : Anchored c) (moves : List Move) : Anchored (c.after fs moves) :=
  invariant_after Anchored (fun _ m anchored => anchored.move conventional m) anchored moves

/-- Where a move has led that got to a place. -/
theorem anchored_of_move {fs : FileSystem} (conventional : fs.Conventional) {moves : List Move}
    {m : Move} {c : Cursor} (reached : (start.after fs moves).move fs m = (.ok (), c)) : Anchored c := by
  have anchored := (Anchored.start.after conventional moves).move conventional m
  rwa [reached] at anchored

/-! ## Up again -/

/-- A cursor below the root on a place that is spelled by normal forms. -/
structure Firm (fs : FileSystem) (c : Cursor) : Prop where
  resolved : c.Resolved fs
  normal : normalize c.modulePath = c.modulePath
  absoluteNormal : normalize c.absoluteModulePath = c.absoluteModulePath
  below : ∃ path, c.absoluteModulePath = '/' :: path ∧ path ≠ []

/-- One name down from a firm place is a firm place, and one move up from there leads back. -/
theorem Firm.child {fs : FileSystem} (conventional : fs.Conventional) {c c' : Cursor} (firm : Firm fs c)
    {name : Text} (proper : ProperName name) (down : c.move fs (.child name) = (.ok (), c')) :
    Firm fs c' ∧ c'.move fs .parent = (.ok (), c) := by
  have landed : land fs (stepTarget fs c name) = .ok c' := destination_of_move down
  have target := target_of_land landed
  rw [stepTarget_eq conventional.usual] at target
  have modulePath : c'.modulePath = normalize (c.modulePath ++ '/' :: name) :=
    congrArg Target.modulePath target
  have absoluteModulePath :
      c'.absoluteModulePath = normalize (c.absoluteModulePath ++ '/' :: name) :=
    congrArg Target.absoluteModulePath target
  have drive : c'.drive = c.drive := congrArg Target.drive target
  obtain ⟨path, spelled, ne⟩ := firm.below
  obtain ⟨more, spelled', deep⟩ := proper.exists_normalize_below (spelled ▸ firm.absoluteNormal) ne
  rw [← spelled, ← absoluteModulePath] at spelled'
  refine ⟨⟨resolved_of_land landed, ?_, ?_, more, spelled', List.ne_nil_of_mem deep⟩, ?_⟩
  · rw [modulePath, normalize_normalize]
  · rw [absoluteModulePath, normalize_normalize]
  · have back : stepTarget fs c' up = c.target := by
      rw [stepTarget_eq conventional.usual, modulePath, absoluteModulePath, drive,
        proper.normalize_up firm.normal, proper.normalize_up firm.absoluteNormal]
      rfl
    refine move_of_destination ?_
    rw [destination, parentTarget_slash fs spelled', if_pos deep, back]
    exact firm.resolved.land

/-- Moves down over names, one after the other. -/
def descent (fs : FileSystem) (names : List Text) : List Step :=
  names.map fun name => ⟨fs, .child name⟩

theorem run_append (steps steps' : List Step) (c : Cursor) :
    c.run (steps ++ steps') =
      ((c.run steps).1 ++ ((c.run steps).2.run steps').1, ((c.run steps).2.run steps').2) := by
  induction steps generalizing c with
  | nil => rfl
  | cons step steps ih =>
    simp only [List.cons_append, run, ih]

/-- From a firm place, as many moves up as names led down lead back. -/
theorem Firm.climb_descent {fs : FileSystem} (conventional : fs.Conventional) {names : List Text}
    (proper : ∀ name ∈ names, ProperName name) {c : Cursor} (firm : Firm fs c)
    (succeed : ∀ result ∈ (c.run (descent fs names)).1, result = .ok ()) :
    let back := (c.run (descent fs names)).2.run (climb (List.replicate names.length fs))
    (∀ result ∈ back.1, result = .ok ()) ∧ back.2 = c := by
  induction names generalizing c with
  | nil => exact ⟨nofun, rfl⟩
  | cons name names ih =>
    have first : (c.move fs (.child name)).1 = .ok () := succeed _ List.mem_cons_self
    obtain ⟨firm', up⟩ := firm.child conventional (proper name List.mem_cons_self)
      (Prod.ext first rfl)
    obtain ⟨later, reached⟩ := ih (fun name mem => proper name (List.mem_cons_of_mem _ mem)) firm'
      fun result mem => succeed result (List.mem_cons_of_mem _ mem)
    -- The last move up is the one from the first place down.
    have steps : climb (List.replicate (name :: names).length fs) =
        climb (List.replicate names.length fs) ++ [⟨fs, .parent⟩] := by
      rw [List.length_cons, List.replicate_succ', climb, List.map_append]
      rfl
    have walked : (c.run (descent fs (name :: names))).2 =
        ((c.move fs (.child name)).2.run (descent fs names)).2 := rfl
    intro back
    have whole : back = (((c.move fs (.child name)).2.run (descent fs names)).2.run
        (climb (List.replicate names.length fs) ++ [⟨fs, .parent⟩])) := by
      rw [← steps, ← walked]
    rw [whole, run_append, reached]
    simp only [run, up, List.mem_append, List.mem_singleton, or_imp, forall_and, forall_eq, and_true]
    exact later

/-- **Moves up undo moves down.** Wherever moves over conventional files have led that stay as they are,
but to what came from no file: if both module paths there are their own normal forms and the one from the
root is neither empty nor the root, then from wherever names lead down, as many moves up succeed, and they
lead back to the very cursor. -/
theorem climb_undoes_descent {fs : FileSystem} (conventional : fs.Conventional) (moves : List Move)
    {m : Move} (walks : m ≠ .stdin) {c : Cursor}
    (reached : (start.after fs moves).move fs m = (.ok (), c))
    (normal : normalize c.modulePath = c.modulePath)
    (absoluteNormal : normalize c.absoluteModulePath = c.absoluteModulePath)
    (some : c.absoluteModulePath ≠ []) (below : c.absoluteModulePath ≠ root)
    {names : List Text} (proper : ∀ name ∈ names, ProperName name)
    (succeed : ∀ result ∈ (c.run (descent fs names)).1, result = .ok ()) :
    let back := (c.run (descent fs names)).2.run (climb (List.replicate names.length fs))
    (∀ result ∈ back.1, result = .ok ()) ∧ back.2 = c := by
  have resolved : c.Resolved fs := resolved_of_destination walks (destination_of_move reached)
  have deep : ∃ path, c.absoluteModulePath = '/' :: path ∧ path ≠ [] := by
    rcases (anchored_of_move conventional reached).rooted with none | ⟨path, eq, -⟩
    · exact absurd none some
    · refine ⟨path, eq, fun none => below ?_⟩
      rw [eq, none, root]
  exact Firm.climb_descent conventional proper ⟨resolved, normal, absoluteNormal, deep⟩ succeed

/-- Down over a name that takes a closing slash, and up again, from beside the working directory. -/
theorem climb_undoes_descent_of_closing_slash :
    let fs : FileSystem := { (FileSystem.ofTree .empty).within "/w/v".toList with isDirectory := fun _ => true }
    let c : Cursor := ⟨"../x".toList, "/w/x".toList, "../x".toList, "/w/x".toList, []⟩
    let names := ["a..".toList, "b".toList]
    let back := (c.run (descent fs names)).2.run (climb (List.replicate names.length fs))
    (start.after fs []).move fs (.path "../x".toList) = (.ok (), c) ∧
      (c.run (descent fs names)).2.absoluteModulePath = "/w/x/a../b".toList ∧
      (∀ result ∈ back.1, result = .ok ()) ∧ back.2 = c := by
  intro fs c names back
  have conventional : fs.Conventional := ⟨⟨rfl, rfl, rfl⟩, .inr (by decide +kernel)⟩
  have proper : ∀ name ∈ names, ProperName name := by
    intro name mem
    simp only [names, List.mem_cons, List.not_mem_nil, or_false] at mem
    rcases mem with rfl | rfl
    · exact ⟨by decide, by decide, by decide⟩
    · exact ⟨by decide, by decide, by decide⟩
  refine ⟨?reached, ?down, climb_undoes_descent conventional [] Move.noConfusion ?reached ?normal
    ?absoluteNormal (by decide) (by decide) proper ?succeed⟩
  case reached => decide +kernel
  case down => decide +kernel
  case normal => decide +kernel
  case absoluteNormal => decide +kernel
  case succeed => decide +kernel

/-! ## Back at once -/

theorem stripModuleSuffix_of_bare {path : Text} (bare : ∀ ending ∈ endings, ¬ ending <:+ path) :
    stripModuleSuffix path = path := by
  obtain ⟨ending, eq, none | mem⟩ := exists_ending path
  · rw [none, List.append_nil] at eq
    exact eq.symm
  · exact absurd (eq ▸ List.suffix_append _ ending) (bare ending mem)

/-- A normal form without an ending, behind a drive, is a path to itself. -/
theorem pathTarget_of_bare {fs : FileSystem} (usual : fs.UsualPaths) {drive path : Text}
    (isDrive : Drive drive) (normal : normalize ('/' :: path) = '/' :: path)
    (bare : ∀ ending ∈ endings, ¬ ending <:+ '/' :: path) :
    pathTarget fs (drive ++ '/' :: path) = ⟨'/' :: path, '/' :: path, drive⟩ := by
  have absolute : isAbsolute (drive ++ '/' :: path) = true :=
    isAbsolute_append_separator isDrive rfl path
  have module : moduleOf ('/' :: path) = '/' :: path := by
    rw [moduleOf, stripModuleSuffix_of_bare bare, if_neg (by simp [here])]
  rw [pathTarget_of_absolute usual absolute, normalize_append_separator isDrive rfl, normal,
    fromRoot_append isDrive, driveOf_append isDrive, module]
  rfl

/-- **A jump leads where a walk has led.** Wherever moves over conventional files have led that stay as
they are, but to what came from no file: if the module path from the root is not empty, is its own normal
form and has no module ending, then the path made of the drive and it leads there from anywhere. The cursor
is the same but that its place is now spelled from the root. -/
theorem jump_returns {fs : FileSystem} (conventional : fs.Conventional) (moves : List Move)
    {m : Move} (walks : m ≠ .stdin) {c : Cursor}
    (reached : (start.after fs moves).move fs m = (.ok (), c)) (some : c.absoluteModulePath ≠ [])
    (normal : normalize c.absoluteModulePath = c.absoluteModulePath)
    (bare : ∀ ending ∈ endings, ¬ ending <:+ c.absoluteModulePath) (elsewhere : Cursor) :
    elsewhere.move fs (.path (c.drive ++ c.absoluteModulePath)) =
      (.ok (), { c with modulePath := c.absoluteModulePath, filePath := c.absoluteFilePath }) := by
  have anchored := anchored_of_move conventional reached
  obtain ⟨-, absoluteFile, -, resolved, spelled, -⟩ :=
    resolved_of_destination walks (destination_of_move reached)
  rcases anchored.rooted with none | ⟨path, eq, -⟩
  · exact absurd none some
  rw [eq] at normal bare resolved
  obtain ⟨rest, rfl⟩ := realPath_slash resolved
  refine move_of_destination ?_
  rw [destination, eq, pathTarget_of_bare conventional.usual anchored.drive normal bare]
  refine land_eq_ok_iff.mpr ⟨'/' :: rest, '/' :: rest, resolved, resolved, ?_⟩
  rw [conventional.usual.2.2, if_pos (isAbsolute_slash rest), ← spelled]

/-- Back to a module that was walked to below a working directory on a drive. -/
theorem jump_returns_of_drive :
    let tree : FileTree :=
      .ofStorings [.file "main.luau".toList [], .file "home/main.luau".toList [],
        .file "lib/init.luau".toList [], .file "home/lib/init.luau".toList []]
    let fs := (FileSystem.ofTree tree).within "C:/home".toList
    let c : Cursor := ⟨"./lib".toList, "/home/lib".toList, "./lib/init.luau".toList,
      "C:/home/lib/init.luau".toList, "C:".toList⟩
    (start.after fs [.path "main.luau".toList, .parent]).move fs (.child "lib".toList) = (.ok (), c) ∧
      start.move fs (.path (c.drive ++ c.absoluteModulePath)) =
        (.ok (), { c with modulePath := c.absoluteModulePath, filePath := c.absoluteFilePath }) := by
  intro tree fs c
  have conventional : fs.Conventional := ⟨FileSystem.usualPaths_ofTree tree, .inr (by decide +kernel)⟩
  refine ⟨?reached, jump_returns conventional _ Move.noConfusion ?reached (by decide) ?normal ?bare start⟩
  case reached => decide +kernel
  case normal => decide +kernel
  case bare => decide +kernel

end ScriptHost.Cursor

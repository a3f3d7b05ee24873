/-
The two spellings of a cursor's place. Either they are the same path from the root, or one is the
other behind a `.` and there is no drive (`Target.Coherent`). Every move to a target that is not of
this kind leads above the root (`Cursor.Leads.coherent`).
-/
import ScriptHost.Proofs.Cursor.Ending
import ScriptHost.Proofs.Path.Composing

namespace ScriptHost

open ScriptHost.Path

/-! ## Plain places -/

/-- A place below the root whose names are taken neither for a way up nor for a drive. -/
structure FileKey.Plain (key : FileKey) : Prop where
  ne_nil : key ≠ []
  not_up : ∀ name ∈ key, ¬ up <+: name
  not_drive : ∀ name ∈ key, ¬ FileKey.IsDrive name

instance : DecidablePred FileKey.Plain := fun key =>
  decidable_of_iff
    (key ≠ [] ∧ (∀ name ∈ key, ¬ up <+: name) ∧ ∀ name ∈ key, ¬ FileKey.IsDrive name)
    ⟨fun ⟨ne_nil, not_up, not_drive⟩ => ⟨ne_nil, not_up, not_drive⟩,
      fun h => ⟨h.ne_nil, h.not_up, h.not_drive⟩⟩

theorem FileKey.Plain.withoutDrive {key : FileKey} (h : key.Plain) : key.withoutDrive = key :=
  withoutDrive_of_head fun first mem => h.not_drive first (List.mem_of_mem_head? mem)

theorem FileTree.FilesAmong.isFile_slash {tree : FileTree} (h : tree.FilesAmong FileKey.Plain)
    {path : Text} (isFile : tree.isFile ('.' :: '/' :: path) = true) :
    tree.isFile ('/' :: path) = true ∧
      FileKey.ofPath ('/' :: path) = FileKey.ofPath ('.' :: '/' :: path) := by
  obtain ⟨key, contents, place, found⟩ := FileTree.isFile_iff.mp isFile
  have same := FileKey.ofPath_slash_of_dot_slash place
  rw [(h.of_contents? found).withoutDrive] at same
  exact ⟨FileTree.isFile_iff.mpr ⟨key, contents, same, found⟩, same.trans place.symm⟩

/-- No plain file has a name that starts with `..`. -/
theorem FileTree.FilesAmong.isFile_up {tree : FileTree} (h : tree.FilesAmong FileKey.Plain)
    (ending : Text) (unbroken : Unbroken ending) (ne : ending ≠ []) :
    tree.isFile (up ++ ending) = false := by
  rw [← Bool.not_eq_true]
  intro isFile
  obtain ⟨key, contents, place, found⟩ := FileTree.isFile_iff.mp isFile
  have whole : Unbroken (up ++ ending) := by
    intro c mem
    rcases List.mem_append.mp mem with mem | mem
    · simp only [up, List.mem_cons, List.not_mem_nil, or_false, or_self] at mem
      rw [mem]
      rfl
    · exact unbroken c mem
  have longer : up ++ ending ≠ up := by simpa using ne
  have resolved : resolve false (Path.names (up ++ ending)) = [up ++ ending] := by
    rw [names_of_unbroken whole (by simp [isName, up, here])]
    exact resolve_of_down (by simp [isName, up, here, ne]) false
  have relative : isAbsolute (up ++ ending) = false := isAbsolute_dot _
  rw [FileKey.ofPath_of_relative relative, resolved, if_neg (by simpa using longer.symm),
    Option.some.injEq] at place
  subst place
  exact (h.of_contents? found).not_up _ (by simp) (List.prefix_append up ending)

namespace Cursor

/-! ## Coherent spellings -/

/-- Both spellings are one path from the root, or one is the other behind a `.`. -/
def Target.Coherent (t : Target) : Prop :=
  (t.modulePath = t.absoluteModulePath ∧
      (t.modulePath = [] ∨ ∃ rest, t.modulePath = '/' :: rest)) ∨
    ∃ rest, t.modulePath = '.' :: '/' :: rest ∧ t.absoluteModulePath = '/' :: rest ∧ t.drive = []

/-- A module path that leads above the root at once. -/
def Climbs (modulePath : Text) : Prop :=
  modulePath = up ∨ ∃ rest, modulePath = '.' :: '.' :: '/' :: rest

/-- The place of a cursor as a target. -/
def target (c : Cursor) : Target :=
  ⟨c.modulePath, c.absoluteModulePath, c.drive⟩

/-! ## Targets -/

/-- The module path that is left of a path without its drive. -/
def moduleOf (path : Text) : Text :=
  if stripModuleSuffix path = here then [] else stripModuleSuffix path

theorem moduleOf_slash (rest : Text) :
    moduleOf ('/' :: rest) = [] ∨ ∃ m, moduleOf ('/' :: rest) = '/' :: m := by
  unfold moduleOf
  rcases stripModuleSuffix_slash rest with e | ⟨m, e⟩
  · exact .inl (by simp [e])
  · exact .inr ⟨m, by simp [e, here]⟩

theorem moduleOf_dot_slash (rest : Text) :
    (moduleOf ('.' :: '/' :: rest) = [] ∧ moduleOf ('/' :: rest) = []) ∨
      ∃ m, moduleOf ('.' :: '/' :: rest) = '.' :: '/' :: m ∧ moduleOf ('/' :: rest) = '/' :: m := by
  simp only [moduleOf, stripModuleSuffix_dot_slash]
  rcases stripModuleSuffix_slash rest with e | ⟨m, e⟩
  · exact .inl (by simp [e, here])
  · exact .inr ⟨m, by simp [e, here]⟩

theorem climbs_moduleOf (rest : Text) : Climbs (moduleOf ('.' :: '.' :: '/' :: rest)) := by
  unfold moduleOf Climbs
  rcases stripModuleSuffix_climbing rest with e | ⟨m, e⟩
  · exact .inl (by simp [e, here, up])
  · exact .inr ⟨m, by simp [e, here]⟩

theorem orRoot_of_climbs {m : Text} (h : Climbs m) : orRoot m = m := by
  rcases h with rfl | ⟨rest, rfl⟩ <;> rfl

/-- The drive of an absolute path with slashes only. -/
theorem driveOf_append {drive : Text} (h : Drive drive) (rest : Text) :
    driveOf (drive ++ '/' :: rest) = drive := by
  rw [driveOf, if_pos (by simp), List.takeWhile_append_of_pos h.all_ne_slash]
  simp

theorem driveOf_slash (rest : Text) : driveOf ('/' :: rest) = [] :=
  driveOf_append .none rest

/-- A path with slashes only, without its drive. -/
def fromRoot (path : Text) : Text :=
  if isAbsolute path && path.contains '/' then path.dropWhile (· ≠ '/') else path

theorem fromRoot_append {drive : Text} (h : Drive drive) (rest : Text) :
    fromRoot (drive ++ '/' :: rest) = '/' :: rest := by
  have absolute : isAbsolute (drive ++ '/' :: rest) = true :=
    isAbsolute_append_separator h rfl rest
  rw [fromRoot, absolute, if_pos (by simp), List.dropWhile_append_of_pos h.all_ne_slash]
  simp

@[simp] theorem fromRoot_slash (rest : Text) : fromRoot ('/' :: rest) = '/' :: rest :=
  fromRoot_append .none rest

theorem fromRoot_of_relative {path : Text} (h : isAbsolute path = false) : fromRoot path = path := by
  simp [fromRoot, h]

theorem splitFilePath_eq {fs : FileSystem} (usual : fs.UsualPaths) {path : Text}
    (slashes : '\\' ∉ path) : splitFilePath fs path = (path, moduleOf (fromRoot path)) := by
  have same : path.map (fun c => if c = '\\' then '/' else c) = path := by
    have kept : ∀ c ∈ path, (if c = '\\' then '/' else c) = id c := fun c mem =>
      if_neg fun e : c = '\\' => slashes (e ▸ mem)
    rw [List.map_congr_left kept, List.map_id]
  simp only [splitFilePath, same, usual.2.2]
  rfl

/-- A normal form from the root, its drive left out. -/
theorem fromRoot_append_normalize {drive : Text} (h : Drive drive) (rest : Text) :
    fromRoot (drive ++ normalize ('/' :: rest)) = normalize ('/' :: rest) := by
  obtain ⟨more, eq⟩ := exists_normalize_slash rest
  rw [eq, fromRoot_append h]

theorem exists_fromRoot_normalize {path : Text} (h : isAbsolute path = true) :
    ∃ rest, fromRoot (normalize path) = normalize ('/' :: rest) := by
  obtain ⟨drive, rest, isDrive, eq⟩ := exists_normalize_of_isAbsolute h
  exact ⟨rest, by rw [eq, fromRoot_append_normalize isDrive]⟩

/-- A normal form has a drive, or none. -/
theorem drive_driveOf_normalize {path : Text} (h : isAbsolute path = true) :
    Drive (driveOf (normalize path)) := by
  obtain ⟨drive, rest, isDrive, eq⟩ := exists_normalize_of_isAbsolute h
  obtain ⟨more, normal⟩ := exists_normalize_slash rest
  rwa [eq, normal, driveOf_append isDrive]

/-! ## Where moves lead -/

/-- The targets of moves. -/
inductive Leads (fs : FileSystem) (c : Cursor) : Target → Prop
  | path (path : Text) : Leads fs c (pathTarget fs path)
  | step (component : Text) : Leads fs c (stepTarget fs c component)
  | above : Leads fs c ⟨[], [], c.drive⟩

/-- A move that gets somewhere lands on a target, but to what came from no file. -/
theorem exists_leads_of_destination {fs : FileSystem} {c c' : Cursor} {m : Move} (walks : m ≠ .stdin)
    (h : destination fs c m = .ok c') : ∃ t, Leads fs c t ∧ land fs t = .ok c' := by
  cases m with
  | stdin => exact absurd rfl walks
  | path path => exact ⟨_, .path path, h⟩
  | child name => exact ⟨_, .step name, h⟩
  | parent =>
    simp only [destination, parentTarget] at h
    split at h
    · cases h
    split at h
    · exact ⟨_, .above, h⟩
    split at h
    · cases h
    · exact ⟨_, .above, h⟩
    · exact ⟨_, .step up, h⟩

theorem destination_cases {fs : FileSystem} {c c' : Cursor} {m : Move}
    (h : destination fs c m = .ok c') :
    c' = Cursor.stdin ∨ ∃ t, Leads fs c t ∧ land fs t = .ok c' := by
  by_cases walks : m = .stdin
  · subst walks
    cases h
    exact .inl rfl
  · exact .inr (exists_leads_of_destination walks h)

/-- What holds on what came from no file and wherever a target is landed on is kept by a move. -/
theorem kept_by_move {fs : FileSystem} (kept : Cursor → Prop) {c : Cursor} (h : kept c)
    (stdin : kept Cursor.stdin) (landing : ∀ t c', Leads fs c t → land fs t = .ok c' → kept c')
    (m : Move) : kept (c.move fs m).2 := by
  unfold Cursor.move
  split
  · next c' h =>
    rcases destination_cases h with rfl | ⟨t, leads, landed⟩
    · exact stdin
    · exact landing t c' leads landed
  · exact h

/-- Above a path from the root with one slash stands the root, and above a longer one what `..` leads
to. -/
theorem parentTarget_slash (fs : FileSystem) {c : Cursor} {path : Text}
    (eq : c.absoluteModulePath = '/' :: path) :
    parentTarget fs c = .ok (if '/' ∈ path then stepTarget fs c up else ⟨[], [], c.drive⟩) := by
  unfold parentTarget
  simp only [eq, List.isEmpty_cons, Bool.false_eq_true, if_false, root, List.cons.injEq, true_and,
    List.count_cons_self]
  by_cases more : '/' ∈ path
  · have ne : path ≠ [] := List.ne_nil_of_mem more
    obtain ⟨n, count⟩ := Nat.exists_eq_succ_of_ne_zero (List.count_pos_iff.mpr more).ne'
    rw [if_neg ne, if_pos more, count]
    rfl
  · rw [List.count_eq_zero.mpr more, if_neg more]
    split <;> rfl

section Targets

variable {fs : FileSystem} (usual : fs.UsualPaths)

include usual

theorem pathTarget_of_absolute {path : Text} (absolute : isAbsolute path = true) :
    pathTarget fs path = ⟨orRoot (moduleOf (fromRoot (normalize path))),
      orRoot (moduleOf (fromRoot (normalize path))), driveOf (normalize path)⟩ := by
  simp [pathTarget, usual.2.1, usual.2.2, absolute,
    splitFilePath_eq usual (backslash_notMem_normalize path)]

/-- A relative path is joined to the working directory for its spelling from the root. -/
theorem pathTarget_of_joined {path : Text} (relative : isAbsolute path = false) :
    let joined := normalize (fs.workingDirectory ++ '/' :: normalize path)
    pathTarget fs path =
      ⟨orRoot (moduleOf (normalize path)), orRoot (moduleOf (fromRoot joined)), driveOf joined⟩ := by
  have spelled : fromRoot (normalize path) = normalize path :=
    fromRoot_of_relative (by rw [isAbsolute_normalize, relative])
  simp [pathTarget, usual.1, usual.2.1, usual.2.2, relative, spelled, join_cons_cons,
    splitFilePath_eq usual (backslash_notMem_normalize _)]

theorem pathTarget_of_relative (rooted : fs.workingDirectory = []) {path : Text}
    (relative : isAbsolute path = false) :
    pathTarget fs path = ⟨orRoot (moduleOf (normalize path)),
      orRoot (moduleOf (normalize ('/' :: path))), driveOf (normalize ('/' :: path))⟩ := by
  have above : fromRoot (normalize ('/' :: path)) = normalize ('/' :: path) :=
    fromRoot_append_normalize .none path
  rw [pathTarget_of_joined usual relative, rooted, List.nil_append,
    normalize_slash_normalize relative, above]

theorem stepTarget_eq (c : Cursor) (component : Text) :
    stepTarget fs c component = ⟨normalize (c.modulePath ++ '/' :: component),
      normalize (c.absoluteModulePath ++ '/' :: component), c.drive⟩ := by
  simp only [stepTarget, usual.1, usual.2.1, join_cons_cons, join_singleton]

/-- A path leads to a coherent target, or above the root. -/
theorem coherent_pathTarget (rooted : fs.workingDirectory = []) (path : Text) :
    (pathTarget fs path).Coherent ∨ Climbs (pathTarget fs path).modulePath := by
  cases absolute : isAbsolute path with
  | true =>
    obtain ⟨behind, spelled⟩ := exists_fromRoot_normalize absolute
    obtain ⟨rest, e⟩ := exists_normalize_slash behind
    refine .inl (.inl ?_)
    rw [pathTarget_of_absolute usual absolute, spelled, e]
    rcases moduleOf_slash rest with h | ⟨m, h⟩
    · exact ⟨rfl, .inr ⟨[], by rw [h]; rfl⟩⟩
    · exact ⟨rfl, .inr ⟨m, by rw [h]; rfl⟩⟩
  | false =>
    obtain ⟨rest, above⟩ := exists_normalize_slash path
    rw [pathTarget_of_relative usual rooted absolute, above]
    rcases normalize_relative_cases absolute with ⟨more, e⟩ | e
    · refine .inr ?_
      rw [e]
      simpa [orRoot_of_climbs (climbs_moduleOf more)] using climbs_moduleOf more
    · refine .inl ?_
      rw [e, above]
      rcases moduleOf_dot_slash rest with ⟨h, h'⟩ | ⟨m, h, h'⟩
      · exact .inl ⟨by rw [h, h'], .inr ⟨[], by rw [h]; rfl⟩⟩
      · exact .inr ⟨m, by rw [h]; rfl, by rw [h']; rfl, driveOf_slash rest⟩

/-- One more component leads from a coherent place to a coherent target, or above the root. -/
theorem coherent_stepTarget {c : Cursor} (h : c.target.Coherent) (component : Text) :
    (stepTarget fs c component).Coherent ∨ Climbs (stepTarget fs c component).modulePath := by
  rw [stepTarget_eq usual]
  rcases h with ⟨same, above | ⟨rest, e⟩⟩ | ⟨rest, e, e', noDrive⟩
  · obtain ⟨more, eq⟩ := exists_normalize_slash component
    refine .inl (.inl ⟨congrArg (fun path => normalize (path ++ _)) same, .inr ⟨more, ?_⟩⟩)
    rw [show c.modulePath = [] from above, List.nil_append, eq]
  · obtain ⟨more, eq⟩ := exists_normalize_slash (rest ++ '/' :: component)
    refine .inl (.inl ⟨congrArg (fun path => normalize (path ++ _)) same, .inr ⟨more, ?_⟩⟩)
    rw [show c.modulePath = '/' :: rest from e, List.cons_append, eq]
  · rw [show c.modulePath = '.' :: '/' :: rest from e,
      show c.absoluteModulePath = '/' :: rest from e']
    simp only [List.cons_append]
    rcases normalize_relative_cases (isAbsolute_dot ('/' :: (rest ++ '/' :: component))) with
      ⟨more, eq⟩ | eq
    · exact .inr (.inr ⟨more, eq⟩)
    · obtain ⟨more, above⟩ := exists_normalize_slash (rest ++ '/' :: component)
      have same : normalize ('/' :: '.' :: '/' :: (rest ++ '/' :: component)) = '/' :: more := by
        rw [← above]
        exact normalize_slash_congr (by simp)
      exact .inl (.inr ⟨more, by rw [eq, same], above, noDrive⟩)

/-- Wherever a move leads from a coherent place is a coherent target, or above the root. -/
theorem Leads.coherent (rooted : fs.workingDirectory = []) {c : Cursor} {t : Target}
    (leads : Leads fs c t) (h : c.target.Coherent) : t.Coherent ∨ Climbs t.modulePath := by
  cases leads with
  | path path => exact coherent_pathTarget usual rooted path
  | step component => exact coherent_stepTarget usual h component
  | above => exact .inl (.inl ⟨rfl, .inl rfl⟩)

end Targets

end Cursor
end ScriptHost

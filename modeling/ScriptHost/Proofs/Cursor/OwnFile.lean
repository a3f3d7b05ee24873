/-
Where the path of a module file leads. The module path that is left of it names the file again: with its
ending, or as the `init` file of a directory (`mem_candidates_of_moduleFile`). So whatever else there is, the
cursor gets to this file, spelled as its normal form, or the module path is ambiguous (`move_to_file`).
-/
import ScriptHost.Proofs.Cursor.Atomic
import ScriptHost.Proofs.Cursor.Candidates
import ScriptHost.Proofs.Cursor.Rooted
import ScriptHost.Proofs.Path.FixedPoints

namespace ScriptHost

open ScriptHost.Path

/-! ## Colons -/

namespace Path

/-- There is no colon in a path but that of its drive letter. -/
def ColonsInDrive (path : Text) : Prop :=
  path.count ':' = (driveLetter? path).toList.length

instance : DecidablePred ColonsInDrive := fun path =>
  inferInstanceAs (Decidable (path.count ':' = (driveLetter? path).toList.length))

theorem exists_drive_of_colonsInDrive {path : Text} (absolute : isAbsolute path = true)
    (colons : ColonsInDrive path) : ∃ drive s rest, Drive drive ∧ isSeparator s = true ∧
      path = drive ++ s :: rest ∧ ':' ∉ rest := by
  obtain ⟨drive, s, rest, isDrive, separates, rfl⟩ := exists_drive_of_isAbsolute absolute
  refine ⟨drive, s, rest, isDrive, separates, rfl, List.count_eq_zero.mp ?_⟩
  rw [ColonsInDrive, driveLetter?_append_separator isDrive separates] at colons
  have other : s ≠ ':' := by
    rintro rfl
    cases separates
  cases isDrive with
  | none => simpa [List.count_cons, other] using colons
  | letter alpha =>
    simp only [List.count_append, List.count_cons, List.count_nil, List.head?_cons] at colons
    simp at colons
    omega

/-- No name of a path without colons is taken for a drive. -/
theorem withoutDrive_of_noColon (absolute : Bool) {path : Text} (plain : ':' ∉ path) :
    FileKey.withoutDrive (resolve absolute (names path)) = resolve absolute (names path) := by
  refine FileKey.withoutDrive_of_head fun first mem isDrive => plain ?_
  have named := (mem_of_mem_resolve (List.mem_of_mem_head? mem)).1
  exact subset_of_mem_split (List.mem_filter.mp named).1 (List.mem_of_getLast? isDrive)

end Path

namespace Cursor

/-! ## Module files by their names -/

theorem slash_notMem_suffix {ending : Text} (mem : ending ∈ suffixes) : '/' ∉ ending := fun slash =>
  absurd (unbroken_suffix mem _ slash) (by decide)

/-- With a module ending, a normal form from the root has a last name that ends so, and nothing behind. -/
theorem exists_names_of_suffix {rest ending : Text} (mem : ending ∈ suffixes)
    (ends : ending <:+ normalize ('/' :: rest)) :
    ∃ front base, resolve true (names rest) = front ++ [base ++ ending] ∧
      normalize ('/' :: rest) = '/' :: join (front ++ [base ++ ending]) := by
  have behind : ∀ before, ¬ ending <:+ before ++ ['/'] := fun before closed =>
    suffix_ne_nil mem (List.suffix_nil.mp ((suffix_append_slash_iff (slash_notMem_suffix mem)).mp closed))
  rw [normalize_slash] at ends ⊢
  rcases List.eq_nil_or_concat (resolve true (names rest)) with none | ⟨front, last, all⟩
  · rw [none] at ends
    exact absurd ends (behind [])
  rw [List.concat_eq_append] at all
  rw [all] at ends ⊢
  obtain ⟨before, spelled⟩ := exists_slash_join front last
  rcases closeUp_eq ('/' :: join (front ++ [last])) with e | e
  · rw [e, spelled, suffix_append_slash_iff (slash_notMem_suffix mem)] at ends
    obtain ⟨base, rfl⟩ := ends
    exact ⟨front, base, rfl, e⟩
  · rw [e] at ends
    exact absurd ends (behind _)

theorem orRoot_moduleOf_of_slash {path modulePath : Text}
    (stripped : stripModuleSuffix path = '/' :: modulePath) :
    orRoot (moduleOf path) = '/' :: modulePath := by
  simp [moduleOf, stripped, here, orRoot]

/-- What stands for an empty module path has no names either. -/
theorem names_orRoot_moduleOf (path : Text) :
    names (orRoot (moduleOf path)) = names (stripModuleSuffix path) := by
  unfold moduleOf
  split
  · next none =>
    rw [none]
    rfl
  · cases stripModuleSuffix path <;> rfl

theorem init_append_mem_initNames {ending : Text} (mem : ending ∈ suffixes) :
    "init".toList ++ ending ∈ initNames := by
  simp only [suffixes, List.mem_cons, List.not_mem_nil, or_false] at mem
  rcases mem with rfl | rfl <;> decide

section

variable {front : List Text} {base ending : Text} (mem : ending ∈ suffixes)
  (parts : Parts ('/' :: join (front ++ [base])) front base)

include mem parts

/-- The module path of a module file is the file without its ending, or the directory of an `init` file. -/
theorem orRoot_moduleOf_moduleFile :
    orRoot (moduleOf ('/' :: join (front ++ [base ++ ending]))) =
      if base = "init".toList then '/' :: join front else '/' :: join (front ++ [base]) := by
  split
  · next init =>
    have isInit : base ++ ending ∈ initNames := init ▸ init_append_mem_initNames mem
    by_cases none : front = []
    · have stripped := stripModuleSuffix_init [] isInit
      rw [List.nil_append] at stripped
      simp [none, moduleOf, stripped, here, orRoot, root]
    · refine orRoot_moduleOf_of_slash ?_
      rw [join_concat none, ← List.cons_append, stripModuleSuffix_init _ isInit]
  · next notInit =>
    refine orRoot_moduleOf_of_slash ?_
    rw [← join_append_append, ← List.cons_append]
    exact stripModuleSuffix_append (by rwa [parts.lastComponent_eq]) mem

/-- The module path of a module file names this file. -/
theorem mem_candidates_of_moduleFile {tree : FileTree}
    (isFile : tree.isFile ('/' :: join (front ++ [base ++ ending])) = true) :
    let modulePath := orRoot (moduleOf ('/' :: join (front ++ [base ++ ending])))
    '/' :: join (front ++ [base ++ ending]) ∈ modulesAt tree modulePath ∪ initsAt tree modulePath := by
  intro modulePath
  by_cases init : base = "init".toList
  · have directory : modulePath = '/' :: join front :=
      (orRoot_moduleOf_moduleFile mem parts).trans (if_pos init)
    have spelled : ∀ name, trimSlashes ('/' :: join front) ++ '/' :: name = '/' :: join (front ++ [name]) := by
      intro name
      rcases List.eq_nil_or_concat front with none | ⟨start, last, all⟩
      · simp [none, trimSlashes]
      · rw [List.concat_eq_append] at all
        subst all
        have named : last ≠ [] := (isName_iff.mp (parts.names last (by simp)).1).1
        rw [parts.above.trimSlashes_append, if_neg named]
    refine .inr (mem_initFiles_iff.mp (mem_initFiles.mpr ⟨'/' :: (base ++ ending), ?_, ?_, isFile⟩))
    · rw [initSuffixes_eq]
      exact List.mem_map_of_mem (init ▸ init_append_mem_initNames mem)
    · rw [directory, spelled]
  · have itself : modulePath = '/' :: join (front ++ [base]) :=
      (orRoot_moduleOf_moduleFile mem parts).trans (if_neg init)
    refine .inl (mem_moduleFiles_iff.mp (mem_moduleFiles.mpr ⟨?_, ending, mem, ?_, isFile⟩))
    · rwa [itself, parts.lastComponent_eq]
    · rw [itself, List.cons_append, join_append_append]

end

/-! ## The move -/

/-- Without colons behind it, a drive makes no difference to a place, nor does normalizing. -/
theorem ofPath_of_noColon {drive rest : Text} (isDrive : Drive drive) {s : Char}
    (separates : isSeparator s = true) (plain : ':' ∉ rest) :
    FileKey.ofPath (drive ++ s :: rest) = some (resolve true (names rest)) := by
  cases isDrive with
  | none => rw [List.nil_append, FileKey.ofPath_of_separator separates, withoutDrive_of_noColon true plain]
  | letter alpha => exact FileKey.ofPath_drive alpha separates rest

section

variable {tree : FileTree} {path : Text} (absolute : isAbsolute path = true)
  (colons : ColonsInDrive path) (ends : ∃ ending ∈ suffixes, ending <:+ normalize path)
  (isFile : tree.isFile path = true)

include absolute colons ends isFile

/-- The path of a module file leads to a module path that names the file again, behind the same drive. -/
theorem exists_pathTarget_of_moduleFile :
    ∃ modulePath drive file, pathTarget (.ofTree tree) path = ⟨modulePath, modulePath, drive⟩ ∧
      Driveless modulePath ∧ normalize path = drive ++ file ∧ isAbsolute file = true ∧
      file ∈ modulesAt tree modulePath ∪ initsAt tree modulePath := by
  obtain ⟨drive, s, rest, isDrive, separates, rfl, plain⟩ := exists_drive_of_colonsInDrive absolute colons
  obtain ⟨ending, mem, ends⟩ := ends
  have normal := normalize_append_separator isDrive separates rest
  have behind : ending <:+ normalize ('/' :: rest) := by
    obtain ⟨more, slash⟩ := exists_normalize_slash rest
    rw [normal, slash, suffix_append_slash_iff (slash_notMem_suffix mem)] at ends
    rw [slash]
    exact ends.trans (List.suffix_cons '/' more)
  obtain ⟨front, base, all, spelled⟩ := exists_names_of_suffix mem behind
  rw [spelled] at normal
  have proper : ∀ name ∈ front ++ [base ++ ending], ProperName name := fun name named =>
    properName_of_mem_resolve (all ▸ named)
  have parts : Parts ('/' :: join (front ++ [base ++ ending])) front (base ++ ending) :=
    ⟨rfl, fun name named => (proper name named).unbroken, fun name named =>
      have named := proper name (List.mem_append_left _ named)
      ⟨named.isName, named.down⟩⟩
  have isFile' : tree.isFile ('/' :: join (front ++ [base ++ ending])) = true := by
    have kept := withoutDrive_of_noColon true plain
    rw [all] at kept
    rw [← isFile]
    refine tree.isFile_congr ?_
    rw [ofPath_of_noColon isDrive separates plain, all, FileKey.ofPath_slash,
      names_join (fun name named => (proper name named).unbroken) fun name named => (proper name named).isName,
      resolve_of_down (fun name named => ⟨(proper name named).isName, (proper name named).down⟩), kept]
  refine ⟨_, drive, _, ?_, ?_, normal, isAbsolute_slash _, mem_candidates_of_moduleFile mem parts.of_append isFile'⟩
  · rw [pathTarget_of_absolute (FileSystem.usualPaths_ofTree tree) absolute, normal, fromRoot_append isDrive,
      driveOf_append isDrive]
  · rw [orRoot_moduleOf_moduleFile mem parts.of_append]
    split
    · exact .inr ⟨_, .inl rfl⟩
    · exact .inr ⟨_, .inl rfl⟩

/-- The path of a module file leads a cursor to this file, unless more than one thing stands for the module
path that is left of it. -/
theorem move_to_file (ways : tree.WaysLead) (c : Cursor) :
    let modulePath := (pathTarget (.ofTree tree) path).modulePath
    (Contested tree modulePath ∧ c.move (.ofTree tree) (.path path) = (.error .ambiguous, c)) ∨
      (¬ Contested tree modulePath ∧ ∃ c', c.move (.ofTree tree) (.path path) = (.ok (), c') ∧
        c'.filePath = normalize path ∧ c'.absoluteFilePath = normalize path) := by
  obtain ⟨modulePath, drive, file, target, driveless, normal, fromRoot, candidate⟩ :=
    exists_pathTarget_of_moduleFile absolute colons ends isFile
  have above := isDirectory_of_initsAt ways driveless
  rw [target]
  rcases realPath_decided above with
    ⟨contested, -, result⟩ | ⟨⟨noModule, noDirectory⟩, -⟩ | ⟨uncontested, -, other, result, chosen⟩
  · refine .inl ⟨contested, ?_⟩
    simp [move, destination, land, target, result, bind, Except.bind]
  · rcases candidate with module | init
    · simp [noModule] at module
    · simp [above ⟨file, init⟩] at noDirectory
  · obtain rfl := chosen.eq_of_mem candidate
    have landed : land (.ofTree tree) ⟨modulePath, modulePath, drive⟩ =
        .ok ⟨modulePath, modulePath, drive ++ file, drive ++ file, drive⟩ :=
      land_eq_ok_iff.mpr ⟨file, file, result, result, by simp [FileSystem.ofTree, fromRoot]⟩
    refine .inr ⟨uncontested, ⟨modulePath, modulePath, drive ++ file, drive ++ file, drive⟩,
      move_of_destination ?_, normal.symm, normal.symm⟩
    rw [destination, target, landed]

end

end Cursor
end ScriptHost

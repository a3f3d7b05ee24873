/-
Cursors whose file from the root is spelled the way its place is. A module path from the root may end
in `.` or `..` once its ending was cut off, as `/x/...luau` leaves `/x/..`. The `init` file behind it
is then spelled with this component inside. It is the only way to a second spelling, drives and what
looks like them aside (`Settled.tidy_iff`).
-/
import ScriptHost.Proofs.Cursor.Reading

namespace ScriptHost.Cursor

open ScriptHost.Path

/-! ## Tidy cursors -/

/-- A module path with no first name that looks like a drive. -/
def StartsPlainly (modulePath : Text) : Prop :=
  ∀ first ∈ (names modulePath).head?, ¬ FileKey.IsDrive first

/-- There is no drive, nor anything that looks like one, and the module path from the root does not end
in `.` or `..`. If it names the file itself, it is its own normal form. -/
def Tidy (c : Cursor) : Prop :=
  c.drive = [] ∧ StartsPlainly c.absoluteModulePath ∧
    if c.absoluteFilePath = c.absoluteModulePath then
      normalize c.absoluteModulePath = c.absoluteModulePath
    else
      lastComponent c.absoluteModulePath ≠ here ∧ lastComponent c.absoluteModulePath ≠ up

theorem isSpelling_modulePath_iff {modulePath : Text} (h : Rooted modulePath) :
    FileKey.IsSpelling modulePath ↔
      StartsPlainly modulePath ∧ normalize modulePath = modulePath := by
  rcases h with rfl | ⟨rest, rfl, -⟩
  · constructor
    · intro spelled
      obtain ⟨rest, eq⟩ := spelled.exists_slash
      cases eq
    · rintro ⟨-, normal⟩
      exact absurd normal (by decide +kernel)
  · rw [FileKey.isSpelling_slash_iff, StartsPlainly, names_slash]
    exact and_comm

theorem trimSlashes_append_ne {modulePath name : Text} (plain : FileKey.EndsPlainly name) :
    trimSlashes modulePath ++ '/' :: name ≠ modulePath := by
  intro same
  obtain ⟨n, eq⟩ := exists_trimSlashes_append modulePath
  obtain ⟨c, rest, rfl⟩ := List.exists_cons_of_ne_nil (isName_iff.mp plain.isName).1
  have slashes := List.append_cancel_left (same.trans eq.symm)
  have mem : c ∈ List.replicate n '/' := by
    rw [← slashes]
    simp
  have slash : c = '/' := List.eq_of_mem_replicate mem
  exact absurd (plain.unbroken c (by simp)) (by rw [slash]; decide)

theorem isSpelling_initFile_iff {modulePath : Text} (h : Rooted modulePath) {name : Text}
    (plain : FileKey.EndsPlainly name) :
    FileKey.IsSpelling (trimSlashes modulePath ++ '/' :: name) ↔ StartsPlainly modulePath ∧
      lastComponent modulePath ≠ here ∧ lastComponent modulePath ≠ up := by
  by_cases ne : modulePath = []
  · subst ne
    have spelled : FileKey.IsSpelling ('/' :: join ([] ++ [name])) :=
      (FileKey.isSpelling_join_iff (by simp) plain).mpr (by simp)
    refine iff_of_true ?_ (by simp [StartsPlainly, lastComponent, here, up])
    simpa [trimSlashes] using spelled
  · obtain ⟨front, last, parts⟩ := h.exists_parts ne
    rw [parts.trimSlashes_append, FileKey.isSpelling_join_iff ?_ plain, StartsPlainly,
      parts.names_eq, parts.lastComponent_eq]
    · by_cases dots : last = here ∨ last = up
      · have some : last ≠ [] := by
          rcases dots with rfl | rfl <;> simp [here, up]
        refine iff_of_false (fun h => ?_) (fun h => dots.elim h.2.1 h.2.2)
        obtain ⟨named, down⟩ := h.1 last (by simp [some])
        exact dots.elim (isName_iff.mp named).2 down
      · rw [not_or] at dots
        have kept : [last].filter isName = if last = [] then [] else [last] := by
          by_cases empty : last = []
          · rw [if_pos empty, empty]
            rfl
          · rw [if_neg empty]
            exact List.filter_eq_self.mpr (by simp [isName, empty, dots.1])
        have named : ∀ part ∈ front ++ (if last = [] then [] else [last]),
            isName part = true ∧ part ≠ up := by
          rw [← kept, ← parts.names_eq]
          exact parts.down dots.2
        rw [kept]
        exact ⟨fun h => ⟨h.2, dots⟩, fun h => ⟨named, h.1⟩⟩
    · intro part mem
      refine parts.unbroken part ?_
      split at mem
      · exact List.mem_append_left _ (by simpa using mem)
      · exact mem

/-! ## Module files -/

theorem ofPath_of_parts {modulePath last : Text} {front : List Text} (parts : Parts modulePath front last) :
    FileKey.ofPath modulePath =
      some (FileKey.withoutDrive (resolve true (front ++ [last].filter isName))) := by
  rw [← parts.names_eq, parts.eq, FileKey.ofPath_slash, names_slash]

/-- What looks like a drive alone names the root, which is a directory. -/
theorem startsPlainly_iff_of_not_isDirectory {tree : FileTree} {modulePath last : Text}
    {front : List Text} (parts : Parts modulePath front last)
    (noDirectory : tree.isDirectory modulePath = false) :
    StartsPlainly modulePath ↔ ∀ first ∈ front.head?, ¬ FileKey.IsDrive first := by
  rw [StartsPlainly, parts.names_eq]
  cases front with
  | cons first front => simp
  | nil =>
    refine iff_of_true ?_ (by simp)
    intro first head drive
    obtain ⟨same, named⟩ := List.mem_filter.mp (List.mem_of_mem_head? head)
    rw [List.mem_singleton.mp same] at drive named
    have down : last ≠ up := by
      rintro rfl
      exact absurd drive (by decide)
    have place : FileKey.ofPath modulePath = some [] := by
      rw [ofPath_of_parts parts, List.filter_eq_self.mpr (by simpa using named),
        resolve_of_down (by simpa using ⟨named, down⟩)]
      rw [List.nil_append, FileKey.withoutDrive_cons drive]
    rw [FileTree.isDirectory_of_ofPath place, FileTree.hasDirectory_iff.mpr (.inl rfl)] at noDirectory
    cases noDirectory

section ModuleFile

variable {tree : FileTree} (ways : tree.WaysLead) {modulePath ending : Text} {front : List Text}
  {last : Text} (parts : Parts modulePath front last) (mem : ending ∈ suffixes)
  (isFile : tree.isFile (modulePath ++ ending) = true)
  (noDirectory : tree.isDirectory modulePath = false)

include ways parts mem isFile noDirectory

theorem isSpelling_moduleFile_iff :
    FileKey.IsSpelling (modulePath ++ ending) ↔ StartsPlainly modulePath ∧
      lastComponent modulePath ≠ here ∧ lastComponent modulePath ≠ up := by
  have longer := parts.append ending (unbroken_suffix mem)
  have plain := endsPlainly_moduleFile (longer.unbroken (last ++ ending) (by simp)) mem
  have front_unbroken : ∀ part ∈ front, Unbroken part := fun part mem =>
    parts.unbroken part (List.mem_append_left _ mem)
  rw [longer.eq, FileKey.isSpelling_join_iff front_unbroken plain, parts.lastComponent_eq,
    startsPlainly_iff_of_not_isDirectory parts noDirectory]
  obtain rfl := parts.eq
  obtain ⟨named, down⟩ := reads_slash.last_of_moduleFile ways parts mem (up_notMem_resolve_true _) isFile
    noDirectory
  exact ⟨fun h => ⟨h.2, (isName_iff.mp named).2, down⟩, fun h => ⟨parts.names, h.1⟩⟩

end ModuleFile

/-- The file from the root is spelled the way its place is exactly if the cursor is tidy. -/
theorem Settled.tidy_iff {tree : FileTree} (ways : tree.WaysLead) {c : Cursor}
    (settled : Settled tree c) : c.Tidy ↔ FileKey.IsSpelling c.absoluteFilePath := by
  obtain ⟨file, spelled, resolved⟩ := settled.file
  by_cases noDrive : c.drive = []
  · rw [noDrive, List.nil_append] at spelled
    rw [Tidy, spelled]
    simp only [noDrive, true_and]
    rcases resolved with rfl | resolved
    · rw [if_pos rfl]
      exact (isSpelling_modulePath_iff settled.rooted).symm
    rcases realPath_eq_ok_iff.mp resolved with ⟨files, noDir⟩ | ⟨-, -, inits | ⟨-, rfl⟩⟩
    · have found : file ∈ moduleFiles (.ofTree tree) c.absoluteModulePath := by simp [files]
      obtain ⟨-, ending, mem, rfl, isFile⟩ := mem_moduleFiles.mp found
      have ne : c.absoluteModulePath ≠ [] := by
        intro none
        rw [none] at noDir
        exact absurd noDir (by simp [FileSystem.ofTree, FileTree.isDirectory, FileTree.hasDirectory])
      obtain ⟨front, last, parts⟩ := settled.rooted.exists_parts ne
      rw [if_neg (by simpa using suffix_ne_nil mem),
        isSpelling_moduleFile_iff ways parts mem isFile noDir]
    · have found : file ∈ initFiles (.ofTree tree) c.absoluteModulePath := by simp [inits]
      obtain ⟨ending, mem, rfl, -⟩ := mem_initFiles.mp found
      rw [initSuffixes_eq] at mem
      obtain ⟨name, isInit, rfl⟩ := List.mem_map.mp mem
      have plain := endsPlainly_initName isInit
      rw [if_neg (trimSlashes_append_ne plain), isSpelling_initFile_iff settled.rooted plain]
    · rw [if_pos rfl]
      exact (isSpelling_modulePath_iff settled.rooted).symm
  · refine iff_of_false (fun tidy => noDrive tidy.1) fun h => ?_
    obtain ⟨rest, eq⟩ := h.exists_slash
    obtain ⟨first, more, drive⟩ := List.exists_cons_of_ne_nil noDrive
    rw [spelled, drive, List.cons_append, List.cons.injEq] at eq
    exact settled.drive (by simp [drive, eq.1])

end ScriptHost.Cursor

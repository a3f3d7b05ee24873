/-
Module paths as a tree reads them. The names of a path from the root name a place, but for a first name
that looks like a drive, which is dropped; behind a `.` it is a name like any other (`Reads`). What a module
path resolves to has the names of the module path, with an ending on the last or an `init` file behind them
(`Stands`), and which of these it is the tree and the names alone decide (`Stands.unique`).
-/
import ScriptHost.Proofs.Cursor.Rooted

namespace ScriptHost.Cursor

open ScriptHost.Path

/-- A module file has the names of its module path, with its ending on the last. -/
theorem names_moduleFile {path last ending : Text} {front : List Text}
    (parts : Parts ('/' :: path) front last) (mem : ending ∈ suffixes) (absolute : Bool) :
    resolve absolute (names (path ++ ending)) = front ++ [last ++ ending] ∧
      up ∉ front ++ [last ++ ending] := by
  have longer := parts.append ending (unbroken_suffix mem)
  have plain := endsPlainly_moduleFile (longer.unbroken (last ++ ending) (by simp)) mem
  have names : names (path ++ ending) = front ++ [last ++ ending] := by
    rw [← names_slash, ← List.cons_append, longer.names_eq,
      List.filter_eq_self.mpr (by simpa using plain.isName)]
  have down := down_concat parts.names plain.isName plain.not_up
  exact ⟨by rw [names, resolve_of_down down], fun mem => (down up mem).2 rfl⟩

/-! ## Reading -/

/-- How paths behind a lead are read: whether their names are resolved from the root, and which place they
come to. -/
structure Reads (lead : Text) (absolute : Bool) (place : List Text → FileKey) : Prop where
  known : lead = [] ∨ lead = ['.']
  ofPath : ∀ path, up ∉ resolve absolute (names path) →
    FileKey.ofPath (lead ++ '/' :: path) = some (place (resolve absolute (names path)))
  nil : place [] = []
  append : ∀ {front : List Text}, front ≠ [] → ∀ more, place (front ++ more) = place front ++ more

theorem reads_slash : Reads [] true FileKey.withoutDrive where
  known := .inl rfl
  ofPath path _ := FileKey.ofPath_slash path
  nil := rfl
  append := FileKey.withoutDrive_append

theorem reads_dot : Reads ['.'] false id where
  known := .inr rfl
  ofPath path stays := (FileKey.ofPath_dot_slash path).trans (if_neg stays)
  nil := rfl
  append _ _ := rfl

namespace Reads

variable {lead : Text} {absolute : Bool} {place : List Text → FileKey}
  (reads : Reads lead absolute place) {tree : FileTree}

include reads

theorem isFile {path : Text} (stays : up ∉ resolve absolute (names path)) :
    tree.isFile (lead ++ '/' :: path) =
      (tree.contents? (place (resolve absolute (names path)))).isSome :=
  FileTree.isFile_of_ofPath (reads.ofPath path stays)

theorem isDirectory {path : Text} (stays : up ∉ resolve absolute (names path)) :
    tree.isDirectory (lead ++ '/' :: path) =
      tree.hasDirectory (place (resolve absolute (names path))) :=
  FileTree.isDirectory_of_ofPath (reads.ofPath path stays)

theorem lastComponent_eq (path : Text) :
    lastComponent (lead ++ '/' :: path) = lastComponent ('/' :: path) := by
  rcases reads.known with rfl | rfl
  · rfl
  · exact lastComponent_cons (by simp) '.'

theorem trimSlashes_eq (path : Text) : trimSlashes (lead ++ path) = lead ++ trimSlashes path := by
  rcases reads.known with rfl | rfl
  · rfl
  · exact trimSlashes_dot path

/-- Above a file there is a directory. -/
theorem hasDirectory_above (ways : tree.WaysLead) {above more : List Text} (ne : more ≠ [])
    (isFile : (tree.contents? (place (above ++ more))).isSome = true) :
    tree.hasDirectory (place above) = true := by
  by_cases root : above = []
  · rw [root, reads.nil]
    exact FileTree.hasDirectory_iff.mpr (.inl rfl)
  · obtain ⟨contents, found⟩ := Option.isSome_iff_exists.mp isFile
    rw [reads.append root] at found
    exact ways.of_contents? found _ (List.prefix_append _ _) (by simpa using ne.symm)

/-- Beside a module file, a module path that is no directory ends in a name. -/
theorem last_of_moduleFile (ways : tree.WaysLead) {path last ending : Text} {front : List Text}
    (parts : Parts ('/' :: path) front last) (mem : ending ∈ suffixes)
    (stays : up ∉ resolve absolute (names path))
    (isFile : tree.isFile (lead ++ '/' :: (path ++ ending)) = true)
    (noDirectory : tree.isDirectory (lead ++ '/' :: path) = false) :
    isName last = true ∧ last ≠ up := by
  obtain ⟨longer, stays'⟩ := names_moduleFile parts mem absolute
  rw [reads.isFile (longer ▸ stays'), longer] at isFile
  rw [reads.isDirectory stays] at noDirectory
  have all : names path = front ++ [last].filter isName := by rw [← names_slash, parts.names_eq]
  have nowhere : ∀ above more, more ≠ [] → above ++ more = front ++ [last ++ ending] →
      resolve absolute (names path) ≠ above := by
    intro above more ne eq resolved
    rw [resolved] at noDirectory
    exact absurd (reads.hasDirectory_above ways ne (eq ▸ isFile)) (by simp [noDirectory])
  have named : isName last = true := by
    rw [← Bool.not_eq_false]
    intro unnamed
    refine nowhere front [last ++ ending] (by simp) rfl ?_
    rw [all, List.filter_cons_of_neg (by simp [unnamed]), List.filter_nil, List.append_nil,
      resolve_of_down parts.names]
  refine ⟨named, fun climbs => ?_⟩
  rw [climbs, List.filter_cons_of_pos rfl, List.filter_nil] at all
  rcases List.eq_nil_or_concat front with rfl | ⟨start, name, eq⟩
  · cases absolute with
    | true => exact nowhere [] _ (by simp) rfl (by rw [all]; rfl)
    | false => exact stays (by rw [all]; decide)
  · rw [List.concat_eq_append] at eq
    refine nowhere start [name, last ++ ending] (by simp) (by simp [eq]) ?_
    rw [all, resolve_up parts.names (by simp [eq]), eq, List.dropLast_concat]

/-- An `init` file has the names of its directory and its own. -/
theorem exists_initFile {path name : Text} (stays : up ∉ resolve absolute (names path))
    (mem : name ∈ initNames) :
    ∃ rest, trimSlashes (lead ++ '/' :: path) ++ '/' :: name = lead ++ '/' :: rest ∧
      up ∉ resolve absolute (names rest) ∧
      resolve absolute (names rest) = resolve absolute (names path) ++ [name] := by
  have plain := endsPlainly_initName mem
  obtain ⟨rest, eq, longer⟩ := trimSlashes_slash_append path plain.unbroken plain.isName
  have all : resolve absolute (names rest) = resolve absolute (names path) ++ [name] := by
    rw [longer, resolve_append_name plain.isName plain.not_up]
  refine ⟨rest, ?_, ?_, all⟩
  · rw [reads.trimSlashes_eq, List.append_assoc, eq]
  · simpa [all] using ⟨stays, plain.not_up.symm⟩

theorem mem_initFiles_iff {path file : Text} (stays : up ∉ resolve absolute (names path)) :
    file ∈ initFiles (.ofTree tree) (lead ++ '/' :: path) ↔
      ∃ name ∈ initNames, file = trimSlashes (lead ++ '/' :: path) ++ '/' :: name ∧
        (tree.contents? (place (resolve absolute (names path) ++ [name]))).isSome = true := by
  simp only [mem_initFiles, initSuffixes_eq, List.mem_map, exists_exists_and_eq_and]
  refine exists_congr fun name => and_congr_right fun mem => and_congr_right ?_
  rintro rfl
  obtain ⟨rest, eq, stays', all⟩ := reads.exists_initFile stays mem
  rw [eq, ← all, ← reads.isFile stays']
  rfl

end Reads

/-! ## What stands for a module -/

/-- Names that are the same with the first of them put last are all one name. -/
theorem eq_of_cons_eq_concat {first last : Text} {rest : List Text} (h : first :: rest = rest ++ [last]) :
    first = last := by
  have counts := congrArg (List.count last) h
  by_contra other
  simp [List.count_append, other] at counts

/-- The names that may stand for a module: its own, those of an `init` file in it, or its own with an
ending on the last. -/
inductive Beside (names : List Text) : List Text → Prop
  | itself : Beside names names
  | init {name : Text} (mem : name ∈ initNames) : Beside names (names ++ [name])
  | file {front : List Text} {last ending : Text} (eq : names = front ++ [last])
      (mem : ending ∈ suffixes) : Beside names (front ++ [last ++ ending])

theorem Beside.length_le {names other : List Text} (h : Beside names other) :
    names.length ≤ other.length := by
  cases h with
  | itself => exact Nat.le_refl _
  | init mem => simp
  | file eq mem => simp [eq]

/-- An ending makes no drive of a name. -/
theorem Beside.noDrive {names other : List Text} (h : Beside names other)
    (noDrive : ∀ first ∈ names.head?, ¬ FileKey.IsDrive first) :
    ∀ first ∈ other.head?, ¬ FileKey.IsDrive first := by
  cases h with
  | itself => exact noDrive
  | init mem =>
    cases names with
    | nil => simpa using (endsPlainly_initName mem).not_drive
    | cons first rest => simpa using noDrive
  | file eq mem =>
    rename_i front last ending
    subst eq
    cases front with
    | nil =>
      obtain ⟨c, ends, other⟩ : ∃ c, ending.getLast? = some c ∧ c ≠ ':' := by
        simp only [suffixes, List.mem_cons, List.not_mem_nil, or_false] at mem
        rcases mem with rfl | rfl <;> exact ⟨_, rfl, by decide⟩
      simpa [FileKey.IsDrive, List.getLast?_append, ends] using other
    | cons first rest => simpa using noDrive

/-- The names that stand for a module in a tree, if the names of the module are read as some place. A
directory is stood for by the only `init` file in it, or by itself if there is none, and what is no
directory by the only file with an ending. -/
inductive Stands (tree : FileTree) (place : List Text → FileKey) (names : List Text) :
    List Text → Prop
  | directory (isDirectory : tree.hasDirectory (place names) = true)
      (noInit : ∀ name ∈ initNames, (tree.contents? (place (names ++ [name]))).isSome = false) :
      Stands tree place names names
  | init {name : Text} (mem : name ∈ initNames)
      (isDirectory : tree.hasDirectory (place names) = true)
      (only : ∀ other ∈ initNames,
        (tree.contents? (place (names ++ [other]))).isSome = true ↔ other = name) :
      Stands tree place names (names ++ [name])
  | file {front : List Text} {last ending : Text} (eq : names = front ++ [last])
      (notInit : last ≠ "init".toList) (mem : ending ∈ suffixes)
      (noDirectory : tree.hasDirectory (place names) = false)
      (only : ∀ other ∈ suffixes,
        (tree.contents? (place (front ++ [last ++ other]))).isSome = true ↔ other = ending) :
      Stands tree place names (front ++ [last ++ ending])

namespace Stands

variable {tree : FileTree} {place : List Text → FileKey} {names found found' : List Text}

theorem beside (h : Stands tree place names found) : Beside names found := by
  cases h with
  | directory => exact .itself
  | init mem => exact .init mem
  | file eq notInit mem => exact .file eq mem

/-- What stands for a module is there. -/
theorem has (h : Stands tree place names found) : tree.Has (place found) := by
  cases h with
  | directory isDirectory => exact .inr isDirectory
  | init mem isDirectory only => exact .inl ((only _ mem).mpr rfl)
  | file eq notInit mem noDirectory only => exact .inl ((only _ mem).mpr rfl)

/-- Only one thing stands for a module. -/
theorem unique (h : Stands tree place names found) (h' : Stands tree place names found') :
    found = found' := by
  cases h with
  | directory isDirectory noInit =>
    cases h' with
    | directory => rfl
    | init mem isDirectory' only =>
      exact absurd ((only _ mem).mpr rfl) (by simp [noInit _ mem])
    | file eq notInit mem noDirectory => simp [isDirectory] at noDirectory
  | init mem isDirectory only =>
    cases h' with
    | directory isDirectory' noInit =>
      exact absurd ((only _ mem).mpr rfl) (by simp [noInit _ mem])
    | init mem' isDirectory' only' => rw [(only' _ mem).mp ((only _ mem).mpr rfl)]
    | file eq notInit mem' noDirectory => simp [isDirectory] at noDirectory
  | file eq notInit mem noDirectory only =>
    cases h' with
    | directory isDirectory => simp [isDirectory] at noDirectory
    | init mem' isDirectory => simp [isDirectory] at noDirectory
    | file eq' notInit' mem' noDirectory' only' =>
      obtain ⟨rfl, same⟩ := List.append_inj' (eq.symm.trans eq') rfl
      obtain rfl := (List.cons.inj same).1
      rw [(only' _ mem).mp ((only _ mem).mpr rfl)]

/-! ### Both readings -/

/-- Without a drive in front both readings find one thing. -/
theorem eq_of_noDrive (noDrive : ∀ first ∈ names.head?, ¬ FileKey.IsDrive first)
    (h : Stands tree id names found) (h' : Stands tree FileKey.withoutDrive names found') :
    FileKey.withoutDrive found' = found := by
  have same : ∀ other, Beside names other → FileKey.withoutDrive other = other := fun other beside =>
    FileKey.withoutDrive_of_head (beside.noDrive noDrive)
  rw [same found' h'.beside]
  suffices read : Stands tree id names found' from read.unique h
  cases h' with
  | directory isDirectory noInit =>
    rw [same _ .itself] at isDirectory
    exact .directory isDirectory fun name mem => same _ (.init mem) ▸ noInit name mem
  | init mem isDirectory only =>
    rw [same _ .itself] at isDirectory
    exact .init mem isDirectory fun other mem' => same _ (.init mem') ▸ only other mem'
  | file eq notInit mem noDirectory only =>
    rw [same _ .itself] at noDirectory
    exact .file eq notInit mem noDirectory fun other mem' => same _ (.file eq mem') ▸ only other mem'

/-- With a name in front that is dropped from the root and kept behind a `.`, the two readings find
different things. -/
theorem ne_of_drive {first : Text} {rest : List Text} (drive : FileKey.IsDrive first)
    (h : Stands tree id (first :: rest) found)
    (h' : Stands tree FileKey.withoutDrive (first :: rest) found') :
    FileKey.withoutDrive found' ≠ found := by
  have dropped := FileKey.withoutDrive_cons drive
  intro eq
  have long := h.beside.length_le
  rw [← eq] at long
  cases h' with
  | directory =>
    rw [dropped] at long
    exact Nat.not_succ_le_self _ long
  | @init name mem =>
    -- There are as many names as before, so nothing was put behind them on the other side.
    rw [List.cons_append, dropped] at eq
    generalize module : first :: rest = names at h
    cases h with
    | directory =>
      have same := eq_of_cons_eq_concat (module.trans eq.symm)
      exact (endsPlainly_initName mem).not_drive (same ▸ drive)
    | init =>
      have lengths := congrArg List.length eq
      simp [← module] at lengths
    | file spelled notInit mem' =>
      have same := (List.append_inj' eq rfl).2
      exact notInit (eq_init_of_append mem' ((List.cons.inj same).1 ▸ mem))
  | @file front last ending spelled notInit mem noDirectory =>
    rcases front with _ | ⟨start, front⟩
    · obtain ⟨rfl, rfl⟩ := List.cons.inj spelled
      simp [dropped, FileTree.hasDirectory] at noDirectory
    · rw [List.cons_append, List.cons.injEq] at spelled
      obtain ⟨rfl, rfl⟩ := spelled
      rw [List.cons_append, dropped] at long
      simp only [List.length_cons, List.length_append] at long
      omega

end Stands

/-- What a module path resolves to has the names that stand for the module. -/
theorem Reads.exists_stands {lead : Text} {absolute : Bool} {place : List Text → FileKey}
    (reads : Reads lead absolute place) {tree : FileTree} (ways : tree.WaysLead) {path file : Text}
    (rooted : Rooted ('/' :: path)) (stays : up ∉ resolve absolute (names path))
    (resolved : realPath (.ofTree tree) (lead ++ '/' :: path) = .ok file) :
    ∃ rest, file = lead ++ '/' :: rest ∧ up ∉ resolve absolute (names rest) ∧
      Stands tree place (resolve absolute (names path)) (resolve absolute (names rest)) := by
  have directory : tree.isDirectory (lead ++ '/' :: path) =
      tree.hasDirectory (place (resolve absolute (names path))) := reads.isDirectory stays
  rcases realPath_eq_ok_iff.mp resolved with ⟨files, noDir⟩ | ⟨-, dir, inits | ⟨inits, rfl⟩⟩
  · have only : ∀ f, f ∈ moduleFiles (.ofTree tree) (lead ++ '/' :: path) ↔ f = file := by simp [files]
    obtain ⟨notInit, ending, mem, rfl, isFile⟩ := mem_moduleFiles.mp ((only file).mpr rfl)
    obtain ⟨front, last, parts⟩ := rooted.exists_parts (by simp)
    rw [reads.lastComponent_eq, parts.lastComponent_eq] at notInit
    have spelled : ∀ ending, lead ++ '/' :: path ++ ending = lead ++ '/' :: (path ++ ending) := by
      simp
    obtain ⟨named, down⟩ :=
      reads.last_of_moduleFile ways parts mem stays (spelled ending ▸ isFile) noDir
    have all : resolve absolute (names path) = front ++ [last] := by
      rw [← names_slash, parts.names_eq, List.filter_eq_self.mpr (by simpa using named),
        resolve_of_down (down_concat parts.names named down)]
    have longer : ∀ ending ∈ suffixes,
        resolve absolute (names (path ++ ending)) = front ++ [last ++ ending] ∧
          up ∉ front ++ [last ++ ending] :=
      fun ending mem => names_moduleFile parts mem absolute
    refine ⟨path ++ ending, spelled ending, ?_, ?_⟩
    · rw [(longer ending mem).1]
      exact (longer ending mem).2
    · rw [(longer ending mem).1]
      refine .file all notInit mem (directory.symm.trans noDir) fun other mem' => ?_
      have stays' : up ∉ resolve absolute (names (path ++ other)) := by
        rw [(longer other mem').1]
        exact (longer other mem').2
      rw [← (longer other mem').1, ← reads.isFile stays', ← spelled]
      constructor
      · intro isFile'
        have same := (only _).mp (mem_moduleFiles.mpr
          ⟨by rwa [reads.lastComponent_eq, parts.lastComponent_eq], other, mem', rfl, isFile'⟩)
        exact List.append_cancel_left same
      · rintro rfl
        exact isFile
  · have only : ∀ f, f ∈ initFiles (.ofTree tree) (lead ++ '/' :: path) ↔ f = file := by simp [inits]
    obtain ⟨name, mem, rfl, -⟩ := (reads.mem_initFiles_iff stays).mp ((only file).mpr rfl)
    obtain ⟨rest, eq, stays', all⟩ := reads.exists_initFile stays mem
    refine ⟨rest, eq, stays', ?_⟩
    rw [all]
    refine .init mem (directory.symm.trans dir) fun other mem' => ?_
    constructor
    · intro present
      have same := (only _).mp ((reads.mem_initFiles_iff stays).mpr ⟨other, mem', rfl, present⟩)
      exact (List.cons.inj (List.append_cancel_left same)).2
    · rintro rfl
      obtain ⟨name, -, same, present⟩ := (reads.mem_initFiles_iff stays).mp ((only _).mpr rfl)
      rwa [(List.cons.inj (List.append_cancel_left same)).2]
  · refine ⟨path, rfl, stays, .directory (directory.symm.trans dir) fun name mem => ?_⟩
    rw [← Bool.not_eq_true]
    intro present
    exact absurd ((reads.mem_initFiles_iff stays).mpr ⟨name, mem, rfl, present⟩) (by simp [inits])

end ScriptHost.Cursor

/-
What decides where a module path resolves to: the files that it names with a module ending, the `init`
files behind it, and whether it is a directory. Above every `init` file there is a directory, however the
path is spelled (`isDirectory_of_initFile`), so of the four files that a module may be none is passed over
(`resolution_decided`).
-/
import Mathlib.Data.List.Nodup
import Mathlib.Data.Set.Subsingleton
import ScriptHost.Proofs.Cursor.Ending

namespace ScriptHost

open ScriptHost.Path

/-! ## One name more -/

namespace FileKey

/-- One plain name behind a path is one more name of its place, if the path stays absolute or relative. -/
theorem ofPath_append_name {path name : Text} (plain : EndsPlainly name)
    (stays : path = [] ∨ isAbsolute (path ++ '/' :: name) = isAbsolute path) :
    ofPath (path ++ '/' :: name) = (ofPath path).map (· ++ [name]) := by
  have one : names name = [name] := names_of_unbroken plain.unbroken plain.isName
  have more : ∀ absolute start, resolve absolute (names (start ++ '/' :: name)) =
      resolve absolute (names start) ++ [name] := fun absolute start => by
    rw [names_append_slash, one, resolve_append_name plain.isName plain.not_up]
  have kept := withoutDrive_concat plain.not_drive
  rcases stays with rfl | stays
  · have alone : resolve true (names name) = [] ++ [name] := by
      rw [one]
      exact resolve_append_name plain.isName plain.not_up true []
    rw [List.nil_append, ofPath_slash, alone, kept, ofPath_nil]
    rfl
  cases absolute : isAbsolute path with
  | true =>
    rcases isAbsolute_cases absolute with ⟨c, rest, separates, rfl⟩ | ⟨d, s, rest, alpha, separates, rfl⟩
    · rw [List.cons_append, ofPath_of_separator separates, ofPath_of_separator separates, more, kept,
        Option.map_some]
    · simp only [List.cons_append]
      rw [ofPath_drive alpha separates, ofPath_drive alpha separates, more, Option.map_some]
  | false =>
    rw [ofPath_of_relative (stays.trans absolute), ofPath_of_relative absolute, more]
    simp only [List.mem_append, List.mem_singleton, plain.not_up.symm, or_false]
    split <;> rfl

end FileKey

namespace Cursor

/-! ## Above an `init` file -/

/-- A path that is empty or starts with a slash or a dot, so that no drive can come of it. -/
def Driveless (modulePath : Text) : Prop :=
  modulePath = [] ∨ ∃ rest, modulePath = '/' :: rest ∨ modulePath = '.' :: rest

/-- Slashes at its end do not change where a module path leads, nor what lies below. -/
theorem ofPath_trimSlashes {modulePath : Text} (driveless : Driveless modulePath) :
    Driveless (trimSlashes modulePath) ∧
      FileKey.ofPath (trimSlashes modulePath) = FileKey.ofPath modulePath := by
  rcases driveless with rfl | ⟨rest, rfl | rfl⟩
  · exact ⟨.inl rfl, rfl⟩
  · have all := names_trimSlashes ('/' :: rest)
    rw [names_slash] at all
    rcases trimSlashes_from_root rest with trimmed | ⟨more, trimmed⟩ <;> rw [trimmed] at all ⊢
    · refine ⟨.inl rfl, ?_⟩
      rw [FileKey.ofPath_slash, ← all]
      simp [FileKey.withoutDrive, resolve]
    · refine ⟨.inr ⟨more, .inl rfl⟩, ?_⟩
      rw [FileKey.ofPath_slash, FileKey.ofPath_slash, ← all, names_slash]
  · have all := names_trimSlashes ('.' :: rest)
    rw [trimSlashes_dot] at all ⊢
    refine ⟨.inr ⟨_, .inr rfl⟩, ?_⟩
    rw [FileKey.ofPath_of_relative (isAbsolute_dot _), FileKey.ofPath_of_relative (isAbsolute_dot _), all]

theorem Driveless.ofPath_append_name {modulePath name : Text} (driveless : Driveless modulePath)
    (plain : FileKey.EndsPlainly name) :
    FileKey.ofPath (modulePath ++ '/' :: name) = (FileKey.ofPath modulePath).map (· ++ [name]) := by
  refine FileKey.ofPath_append_name plain ?_
  rcases driveless with rfl | ⟨rest, rfl | rfl⟩
  · exact .inl rfl
  · exact .inr (by simp [isAbsolute_slash])
  · exact .inr (by simp)

theorem isDirectory_of_initFile {tree : FileTree} (ways : tree.WaysLead) {modulePath name : Text}
    (driveless : Driveless modulePath) (mem : name ∈ initNames)
    (isFile : tree.isFile (trimSlashes modulePath ++ '/' :: name) = true) :
    tree.isDirectory modulePath = true := by
  obtain ⟨trimmed, place⟩ := ofPath_trimSlashes driveless
  obtain ⟨key, contents, place', found⟩ := FileTree.isFile_iff.mp isFile
  rw [trimmed.ofPath_append_name (endsPlainly_initName mem), place, Option.map_eq_some_iff] at place'
  obtain ⟨above, place, rfl⟩ := place'
  rw [FileTree.isDirectory_of_ofPath place]
  exact ways.of_contents? found above (List.prefix_append _ _) (by simp)

/-! ## What a module path names -/

/-- The files that a module path names with a module ending. The name `init` alone names none. -/
def modulesAt (tree : FileTree) (modulePath : Text) : Set Text :=
  {file | lastComponent modulePath ≠ "init".toList ∧
    (file = modulePath ++ ".luau".toList ∨ file = modulePath ++ ".lua".toList) ∧ tree.isFile file = true}

/-- The files that stand for a module path as a directory. No slash is doubled before them. -/
def initsAt (tree : FileTree) (modulePath : Text) : Set Text :=
  {file | (file = trimSlashes modulePath ++ "/init.luau".toList ∨
    file = trimSlashes modulePath ++ "/init.lua".toList) ∧ tree.isFile file = true}

theorem mem_moduleFiles_iff {tree : FileTree} {modulePath file : Text} :
    file ∈ moduleFiles (.ofTree tree) modulePath ↔ file ∈ modulesAt tree modulePath := by
  simp only [mem_moduleFiles, suffixes, List.mem_cons, List.not_mem_nil, or_false, exists_eq_or_imp,
    exists_eq_left, ← or_and_right]
  rfl

theorem mem_initFiles_iff {tree : FileTree} {modulePath file : Text} :
    file ∈ initFiles (.ofTree tree) modulePath ↔ file ∈ initsAt tree modulePath := by
  simp only [mem_initFiles, initSuffixes, List.mem_cons, List.not_mem_nil, or_false, exists_eq_or_imp,
    exists_eq_left, ← or_and_right]
  rfl

/-- The directory of an `init` file is what the module path leads to. -/
theorem isDirectory_of_initsAt {tree : FileTree} (ways : tree.WaysLead) {modulePath : Text}
    (driveless : Driveless modulePath) (some : (initsAt tree modulePath).Nonempty) :
    tree.isDirectory modulePath = true := by
  obtain ⟨file, rfl | rfl, isFile⟩ := some
  · exact isDirectory_of_initFile ways driveless (by decide) isFile
  · exact isDirectory_of_initFile ways driveless (by decide) isFile

/-! ### How many there are -/

theorem nodup_candidates (fs : FileSystem) (base : Text) {endings : List Text} (nodup : endings.Nodup) :
    (candidates fs base endings).Nodup := by
  have injective : Function.Injective (base ++ ·) := fun _ _ => List.append_cancel_left
  exact (nodup.map injective).filter _

theorem nodup_moduleFiles (fs : FileSystem) (modulePath : Text) : (moduleFiles fs modulePath).Nodup := by
  unfold moduleFiles
  split
  · exact List.nodup_nil
  · exact nodup_candidates fs modulePath (by decide)

theorem nodup_initFiles (fs : FileSystem) (modulePath : Text) : (initFiles fs modulePath).Nodup :=
  nodup_candidates fs _ (by decide)

/-- What is listed once each is nothing, one thing or several. -/
theorem listed_cases {listed : List Text} {among : Set Text} (nodup : listed.Nodup)
    (mem : ∀ {file}, file ∈ listed ↔ file ∈ among) :
    (listed = [] ∧ among = ∅) ∨ (∃ file, listed = [file] ∧ among = {file}) ∨
      ∃ first second more, listed = first :: second :: more ∧ among.Nontrivial := by
  rcases listed with _ | ⟨first, _ | ⟨second, more⟩⟩
  · exact .inl ⟨rfl, Set.eq_empty_iff_forall_notMem.mpr fun file => by simp [← mem]⟩
  · exact .inr (.inl ⟨first, rfl, Set.ext fun file => by simp [← mem]⟩)
  · have other : first ≠ second := fun same => (List.nodup_cons.mp nodup).1 (by simp [same])
    exact .inr (.inr ⟨first, second, more, rfl, first, mem.mp (by simp), second, mem.mp (by simp), other⟩)

/-! ## The decision -/

/-- More than one thing stands for a module path. -/
def Contested (tree : FileTree) (modulePath : Text) : Prop :=
  (modulesAt tree modulePath).Nontrivial ∨
    ((modulesAt tree modulePath).Nonempty ∧ tree.isDirectory modulePath = true) ∨
    (initsAt tree modulePath).Nontrivial

/-- Nothing stands for a module path. -/
def Missing (tree : FileTree) (modulePath : Text) : Prop :=
  modulesAt tree modulePath = ∅ ∧ tree.isDirectory modulePath = false

/-- The one thing that stands for a module path: a file with a module ending, an `init` file, or else the
module path itself. -/
def Chosen (tree : FileTree) (modulePath file : Text) : Prop :=
  (modulesAt tree modulePath = {file} ∧ initsAt tree modulePath = ∅) ∨
    (modulesAt tree modulePath = ∅ ∧ initsAt tree modulePath = {file}) ∨
    (modulesAt tree modulePath = ∅ ∧ initsAt tree modulePath = ∅ ∧ file = modulePath)

section

variable {tree : FileTree} {modulePath : Text}
  (above : (initsAt tree modulePath).Nonempty → tree.isDirectory modulePath = true)

include above

/-- The three ways to resolve, which exclude each other. -/
theorem realPath_decided :
    (Contested tree modulePath ∧ ¬ Missing tree modulePath ∧
      realPath (.ofTree tree) modulePath = .error .ambiguous) ∨
    (Missing tree modulePath ∧ ¬ Contested tree modulePath ∧
      realPath (.ofTree tree) modulePath = .error .notFound) ∨
    (¬ Contested tree modulePath ∧ ¬ Missing tree modulePath ∧
      ∃ file, realPath (.ofTree tree) modulePath = .ok file ∧ Chosen tree modulePath file) := by
  have isDirectory : (FileSystem.ofTree tree).isDirectory modulePath = tree.isDirectory modulePath := rfl
  simp only [realPath, isDirectory]
  rw [← moduleFiles, ← initFiles]
  rcases listed_cases (nodup_moduleFiles (.ofTree tree) modulePath) mem_moduleFiles_iff with
    ⟨files, modules⟩ | ⟨file, files, modules⟩ | ⟨first, second, more, files, modules⟩
  · cases directory : tree.isDirectory modulePath with
    | false =>
      have none : initsAt tree modulePath = ∅ :=
        Set.not_nonempty_iff_eq_empty.mp fun some => by simp [above some] at directory
      refine .inr (.inl ⟨⟨modules, directory⟩, ?_, by simp [files]⟩)
      simp [Contested, modules, none]
    | true =>
      rcases listed_cases (nodup_initFiles (.ofTree tree) modulePath) mem_initFiles_iff with
        ⟨files', inits⟩ | ⟨init, files', inits⟩ | ⟨first, second, more, files', inits⟩
      · refine .inr (.inr ⟨?_, ?_, modulePath, by simp [files, files'], .inr (.inr ⟨modules, inits, rfl⟩)⟩)
        · simp [Contested, modules, inits]
        · simp [Missing, directory]
      · refine .inr (.inr ⟨?_, ?_, init, by simp [files, files'], .inr (.inl ⟨modules, inits⟩)⟩)
        · simp [Contested, modules, inits]
        · simp [Missing, directory]
      · exact .inl ⟨.inr (.inr inits), by simp [Missing, directory], by simp [files, files']⟩
  · cases directory : tree.isDirectory modulePath with
    | false =>
      have none : initsAt tree modulePath = ∅ :=
        Set.not_nonempty_iff_eq_empty.mp fun some => by simp [above some] at directory
      refine .inr (.inr ⟨?_, ?_, file, by simp [files], .inl ⟨modules, none⟩⟩)
      · simp [Contested, modules, none, directory]
      · simp [Missing, modules]
    | true =>
      exact .inl ⟨.inr (.inl ⟨by simp [modules], directory⟩), by simp [Missing, modules], by simp [files]⟩
  · exact .inl ⟨.inl modules, fun missing => modules.nonempty.ne_empty missing.1, by simp [files]⟩

theorem realPath_eq_ambiguous_iff :
    realPath (.ofTree tree) modulePath = .error .ambiguous ↔ Contested tree modulePath := by
  rcases realPath_decided above with
    ⟨contested, -, result⟩ | ⟨-, uncontested, result⟩ | ⟨uncontested, -, file, result, -⟩
  · exact iff_of_true result contested
  · exact iff_of_false (by simp [result]) uncontested
  · exact iff_of_false (by simp [result]) uncontested

theorem realPath_eq_notFound_iff :
    realPath (.ofTree tree) modulePath = .error .notFound ↔ Missing tree modulePath := by
  rcases realPath_decided above with
    ⟨-, found, result⟩ | ⟨missing, -, result⟩ | ⟨-, found, file, result, -⟩
  · exact iff_of_false (by simp [result]) found
  · exact iff_of_true result missing
  · exact iff_of_false (by simp [result]) found

theorem exists_chosen (uncontested : ¬ Contested tree modulePath) (found : ¬ Missing tree modulePath) :
    ∃ file, realPath (.ofTree tree) modulePath = .ok file ∧ Chosen tree modulePath file := by
  rcases realPath_decided above with ⟨contested, -⟩ | ⟨missing, -⟩ | ⟨-, -, chosen⟩
  · exact absurd contested uncontested
  · exact absurd missing found
  · exact chosen

theorem chosen_of_realPath {file : Text} (resolved : realPath (.ofTree tree) modulePath = .ok file) :
    Chosen tree modulePath file := by
  rcases realPath_decided above with ⟨-, -, result⟩ | ⟨-, -, result⟩ | ⟨-, -, other, result, chosen⟩
  · simp [result] at resolved
  · simp [result] at resolved
  · rw [result, Except.ok.injEq] at resolved
    exact resolved ▸ chosen

end

/-- The files that may stand for a module path. -/
def fourCandidates (modulePath : Text) : List Text :=
  suffixes.map (modulePath ++ ·) ++ initSuffixes.map (trimSlashes modulePath ++ ·)

/-- Where `init` is not the last component, the candidates that are files are those of both kinds. -/
theorem isFile_fourCandidates_iff {tree : FileTree} {modulePath : Text}
    (notInit : lastComponent modulePath ≠ "init".toList) {file : Text} :
    (file ∈ fourCandidates modulePath ∧ tree.isFile file = true) ↔
      file ∈ modulesAt tree modulePath ∪ initsAt tree modulePath := by
  simp only [fourCandidates, suffixes, initSuffixes, modulesAt, initsAt, Set.mem_union, Set.mem_ofPred_eq,
    List.map_cons, List.map_nil, List.cons_append, List.nil_append, List.mem_cons, List.not_mem_nil,
    or_false, ne_eq, notInit, not_false_eq_true, true_and]
  tauto

theorem Chosen.eq_of_mem {tree : FileTree} {modulePath file other : Text}
    (chosen : Chosen tree modulePath file)
    (mem : other ∈ modulesAt tree modulePath ∪ initsAt tree modulePath) : other = file := by
  rcases chosen with ⟨modules, inits⟩ | ⟨modules, inits⟩ | ⟨modules, inits, -⟩
  · simpa [modules, inits] using mem
  · simpa [modules, inits] using mem
  · simp [modules, inits] at mem

/-- **A module path is decided by the files there are.** Over the tree of any storings, a module path that
is empty or starts with a slash or a dot is ambiguous exactly if it names two files with a module ending, or
one and a directory, or a directory with two `init` files; it is not found exactly if it names neither a file
nor a directory; otherwise it resolves to the only file of either kind, or to itself. A file that it resolves
to is the only one of the four candidates that is there, and where there is an `init` file the module path
is a directory. -/
theorem resolution_decided (storings : List Storing) {modulePath : Text}
    (driveless : Driveless modulePath) :
    let tree : FileTree := .ofStorings storings
    (realPath (.ofTree tree) modulePath = .error .ambiguous ↔ Contested tree modulePath) ∧
    (realPath (.ofTree tree) modulePath = .error .notFound ↔ Missing tree modulePath) ∧
    (¬ Contested tree modulePath → ¬ Missing tree modulePath →
      ∃ file, realPath (.ofTree tree) modulePath = .ok file ∧ Chosen tree modulePath file) ∧
    (lastComponent modulePath ≠ "init".toList → ∀ file, realPath (.ofTree tree) modulePath = .ok file →
      file ∈ modulesAt tree modulePath ∪ initsAt tree modulePath →
      ∀ other, (other ∈ fourCandidates modulePath ∧ tree.isFile other = true) ↔ other = file) ∧
    ((initsAt tree modulePath).Nonempty → tree.isDirectory modulePath = true) := by
  intro tree
  have above := isDirectory_of_initsAt (FileTree.waysLead_ofStorings storings) driveless
  refine ⟨realPath_eq_ambiguous_iff above, realPath_eq_notFound_iff above, exists_chosen above,
    fun notInit file resolved mem other => ?_, above⟩
  rw [isFile_fourCandidates_iff notInit]
  refine ⟨(chosen_of_realPath above resolved).eq_of_mem, ?_⟩
  rintro rfl
  exact mem

/-- A directory spelled with more slashes than it needs, and the `init` file in it. -/
theorem resolution_decided_of_slashes :
    let tree : FileTree := .ofStorings [.file "/lib/init.lua".toList [], .directory "/lib/init.luau".toList]
    let modulePath := "/./lib//".toList
    let file := "/./lib/init.lua".toList
    Driveless modulePath ∧ ¬ Contested tree modulePath ∧
      realPath (.ofTree tree) modulePath = .ok file ∧
      ∀ other, (other ∈ fourCandidates modulePath ∧ tree.isFile other = true) ↔ other = file := by
  intro tree modulePath file
  have driveless : Driveless modulePath := .inr ⟨_, .inl rfl⟩
  have resolved : realPath (.ofTree tree) modulePath = .ok file := by decide +kernel
  obtain ⟨contested, -, -, only, -⟩ := resolution_decided
    [.file "/lib/init.lua".toList [], .directory "/lib/init.luau".toList] driveless
  refine ⟨driveless, fun h => ?_, resolved, only (by decide) file resolved (.inr ⟨.inr rfl, ?_⟩)⟩
  · cases resolved.symm.trans (contested.mpr h)
  · decide +kernel

end Cursor
end ScriptHost

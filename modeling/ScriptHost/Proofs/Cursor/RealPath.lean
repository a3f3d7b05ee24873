/-
What a module path resolves to: the only file with a module ending, or else, for a directory, the only
`init` file in it or the directory itself (`realPath_eq_ok_iff`).
-/
import Mathlib.Data.List.TakeWhile
import ScriptHost.Proofs.FileTree.Storing
import ScriptHost.Cursor

namespace ScriptHost.Cursor

open ScriptHost.Path

/-! ## Candidates -/

/-- The files that a module path names with a module ending. The name `init` alone names none. -/
def moduleFiles (fs : FileSystem) (modulePath : Text) : List Text :=
  if lastComponent modulePath = "init".toList then [] else candidates fs modulePath suffixes

/-- The files that stand for a directory. -/
def initFiles (fs : FileSystem) (directory : Text) : List Text :=
  candidates fs (trimSlashes directory) initSuffixes

theorem mem_candidates {fs : FileSystem} {base file : Text} {endings : List Text} :
    file ∈ candidates fs base endings ↔
      ∃ ending ∈ endings, file = base ++ ending ∧ fs.isFile file = true := by
  simp only [candidates, List.mem_filter, List.mem_map]
  constructor
  · rintro ⟨⟨ending, mem, rfl⟩, isFile⟩
    exact ⟨ending, mem, rfl, isFile⟩
  · rintro ⟨ending, mem, rfl, isFile⟩
    exact ⟨⟨ending, mem, rfl⟩, isFile⟩

theorem mem_moduleFiles {fs : FileSystem} {modulePath file : Text} :
    file ∈ moduleFiles fs modulePath ↔
      lastComponent modulePath ≠ "init".toList ∧
        ∃ ending ∈ suffixes, file = modulePath ++ ending ∧ fs.isFile file = true := by
  unfold moduleFiles
  split
  · next h => simp only [h, ne_eq, not_true_eq_false, List.not_mem_nil, false_and]
  · next h => simp only [h, ne_eq, not_false_eq_true, true_and, mem_candidates]

theorem mem_initFiles {fs : FileSystem} {directory file : Text} :
    file ∈ initFiles fs directory ↔
      ∃ ending ∈ initSuffixes, file = trimSlashes directory ++ ending ∧ fs.isFile file = true :=
  mem_candidates

/-! ## Resolving -/

/-- What a module path resolves to. -/
theorem realPath_eq_ok_iff {fs : FileSystem} {modulePath file : Text} :
    realPath fs modulePath = .ok file ↔
      (moduleFiles fs modulePath = [file] ∧ fs.isDirectory modulePath = false) ∨
        (moduleFiles fs modulePath = [] ∧ fs.isDirectory modulePath = true ∧
          (initFiles fs modulePath = [file] ∨
            initFiles fs modulePath = [] ∧ file = modulePath)) := by
  simp only [realPath]
  rw [← moduleFiles, ← initFiles]
  cases directory : fs.isDirectory modulePath <;> rcases moduleFiles fs modulePath with _ | ⟨f, _ | _⟩ <;>
    rcases initFiles fs modulePath with _ | ⟨i, _ | _⟩ <;> simp [eq_comm]

/-- A path that names no place, whatever is put behind it, resolves to nothing. -/
theorem realPath_of_nowhere {fs : FileSystem} {modulePath : Text}
    (files : ∀ ending ∈ suffixes, fs.isFile (modulePath ++ ending) = false)
    (directory : fs.isDirectory modulePath = false) (file : Text) :
    realPath fs modulePath ≠ .ok file := by
  intro h
  rcases realPath_eq_ok_iff.mp h with ⟨h, -⟩ | ⟨-, h, -⟩
  · have found : file ∈ moduleFiles fs modulePath := by simp [h]
    obtain ⟨-, ending, mem, rfl, isFile⟩ := mem_moduleFiles.mp found
    simp [files ending mem] at isFile
  · simp [directory] at h

/-- Above the root nothing resolves. -/
theorem realPath_up_slash (tree : FileTree) (path file : Text) :
    realPath (.ofTree tree) ('.' :: '.' :: '/' :: path) ≠ .ok file :=
  realPath_of_nowhere (fun _ _ => by simp [FileSystem.ofTree, FileTree.isFile])
    (by simp [FileSystem.ofTree, FileTree.isDirectory]) file

/-! ## The parts of a module path -/

theorem lastComponent_append_slash (path : Text) {last : Text} (whole : '/' ∉ last) :
    lastComponent (path ++ '/' :: last) = last := by
  have all : ∀ c ∈ last.reverse, decide (c ≠ '/') = true := fun c mem =>
    decide_eq_true fun slash => whole (slash ▸ List.mem_reverse.mp mem)
  rw [lastComponent, List.reverse_append, List.reverse_cons, List.append_assoc,
    List.takeWhile_append_of_pos all]
  simp

/-- A `.` before a path with a slash changes nothing behind the last slash. -/
theorem lastComponent_cons {path : Text} (h : '/' ∈ path) (c : Char) :
    lastComponent (c :: path) = lastComponent path := by
  have short : ¬ (path.reverse.takeWhile (· ≠ '/')).length = path.reverse.length := by
    intro e
    have all := List.takeWhile_eq_self_iff.mp
      (List.IsPrefix.eq_of_length (List.takeWhile_prefix _) e)
    simpa using all '/' (List.mem_reverse.mpr h)
  simp only [lastComponent, List.reverse_cons, List.takeWhile_append, if_neg short]

theorem trimSlashes_dot (path : Text) : trimSlashes ('.' :: path) = '.' :: trimSlashes path := by
  simp only [trimSlashes, List.reverse_cons, List.dropWhile_append]
  split
  · next h =>
    rw [List.isEmpty_iff] at h
    simp [h]
  · simp

theorem trimSlashes_slash (path : Text) : trimSlashes (path ++ ['/']) = trimSlashes path := by
  simp [trimSlashes]

theorem trimSlashes_of_getLast? {path : Text} (h : path.getLast? ≠ some '/') :
    trimSlashes path = path := by
  rcases List.eq_nil_or_concat path with rfl | ⟨front, c, rfl⟩
  · rfl
  · have other : c ≠ '/' := by simpa using h
    simp [trimSlashes, other]

/-- The slashes at the end of a path are all that is trimmed. -/
theorem exists_trimSlashes_append (path : Text) :
    ∃ n, trimSlashes path ++ List.replicate n '/' = path := by
  refine ⟨(path.reverse.takeWhile (· = '/')).length, ?_⟩
  have slashes : path.reverse.takeWhile (· = '/') =
      List.replicate (path.reverse.takeWhile (· = '/')).length '/' :=
    List.eq_replicate_of_mem fun c mem => by simpa using List.mem_takeWhile_imp mem
  rw [trimSlashes, ← List.reverse_replicate, ← slashes, ← List.reverse_append,
    List.takeWhile_append_dropWhile, List.reverse_reverse]

theorem names_append_replicate_slash (path : Text) (n : Nat) :
    names (path ++ List.replicate n '/') = names path := by
  induction n generalizing path with
  | zero => simp
  | succ n ih =>
    rw [List.replicate_succ, names_append_slash, ← List.nil_append (List.replicate n '/'), ih]
    simp

theorem names_trimSlashes (path : Text) : names (trimSlashes path) = names path := by
  obtain ⟨n, h⟩ := exists_trimSlashes_append path
  rw [← congrArg names h, names_append_replicate_slash]

/-- From the root a path stays one, or nothing is left of it. -/
theorem trimSlashes_from_root (path : Text) :
    trimSlashes ('/' :: path) = [] ∨ ∃ rest, trimSlashes ('/' :: path) = '/' :: rest := by
  obtain ⟨n, h⟩ := exists_trimSlashes_append ('/' :: path)
  cases trimmed : trimSlashes ('/' :: path) with
  | nil => exact .inl rfl
  | cons c rest =>
    obtain rfl : c = '/' := by simpa [trimmed] using congrArg List.head? h
    exact .inr ⟨rest, rfl⟩

/-- A file in a directory from the root has one more name than the directory. -/
theorem trimSlashes_slash_append (path : Text) {name : Text} (unbroken : Unbroken name)
    (isName : isName name = true) :
    ∃ longer, trimSlashes ('/' :: path) ++ '/' :: name = '/' :: longer ∧
      names longer = names path ++ [name] := by
  have all : names (trimSlashes ('/' :: path) ++ '/' :: name) = names path ++ [name] := by
    rw [names_append_slash, names_trimSlashes, names_slash, names_of_unbroken unbroken isName]
  rcases trimSlashes_from_root path with trimmed | ⟨rest, trimmed⟩ <;> rw [trimmed] at all ⊢
  · exact ⟨name, rfl, by simpa using all⟩
  · exact ⟨rest ++ '/' :: name, rfl, by simpa using all⟩

end ScriptHost.Cursor

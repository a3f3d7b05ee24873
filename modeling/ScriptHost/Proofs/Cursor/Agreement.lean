/-
The file a cursor stands on and the file it stands on from the root. In a tree whose files have plain
names, wherever a cursor gets to, the two are one file, if the first is a file at all
(`Standing.move`).
-/
import ScriptHost.Proofs.Cursor.Spellings

namespace ScriptHost.Cursor

open ScriptHost.Path

/-! ## Landing -/

theorem land_eq_ok_iff {fs : FileSystem} {t : Target} {c : Cursor} :
    land fs t = .ok c ↔
      ∃ file absoluteFile, realPath fs t.modulePath = .ok file ∧
        realPath fs t.absoluteModulePath = .ok absoluteFile ∧
        c = { modulePath := t.modulePath
              absoluteModulePath := t.absoluteModulePath
              filePath := if fs.isAbsolute file then t.drive ++ file else file
              absoluteFilePath := t.drive ++ absoluteFile
              drive := t.drive } := by
  unfold land
  cases realPath fs t.modulePath with
  | error e => simp [bind, Except.bind]
  | ok file =>
    cases realPath fs t.absoluteModulePath with
    | error e => simp [bind, Except.bind]
    | ok absoluteFile =>
      simp only [bind, Except.bind, pure, Except.pure, Except.ok.injEq, exists_and_left]
      constructor
      · rintro rfl
        exact ⟨file, rfl, absoluteFile, rfl, rfl⟩
      · rintro ⟨_, rfl, _, rfl, rfl⟩
        rfl

theorem target_of_land {fs : FileSystem} {t : Target} {c : Cursor} (h : land fs t = .ok c) :
    c.target = t := by
  obtain ⟨file, absoluteFile, -, -, rfl⟩ := land_eq_ok_iff.mp h
  rfl

/-- The names of the files that stand for a directory. -/
theorem initSuffixes_name {ending : Text} (mem : ending ∈ initSuffixes) :
    ∃ name, ending = '/' :: name ∧ Unbroken name ∧ isName name = true ∧ name ≠ up := by
  rw [initSuffixes_eq] at mem
  obtain ⟨name, isInit, rfl⟩ := List.mem_map.mp mem
  have plain := endsPlainly_initName isInit
  exact ⟨name, rfl, plain.unbroken, plain.isName, plain.not_up⟩

/-- What a path resolves to starts as the path does before its first slash. -/
theorem realPath_append_slash {fs : FileSystem} {lead path file : Text}
    (trims : ∀ path, trimSlashes (lead ++ path) = lead ++ trimSlashes path)
    (h : realPath fs (lead ++ '/' :: path) = .ok file) : ∃ rest, file = lead ++ '/' :: rest := by
  rcases realPath_eq_ok_iff.mp h with ⟨files, -⟩ | ⟨-, -, inits | ⟨-, rfl⟩⟩
  · have found : file ∈ moduleFiles fs (lead ++ '/' :: path) := by simp [files]
    obtain ⟨-, ending, -, rfl, -⟩ := mem_moduleFiles.mp found
    exact ⟨path ++ ending, List.append_assoc lead ('/' :: path) ending⟩
  · have found : file ∈ initFiles fs (lead ++ '/' :: path) := by simp [inits]
    obtain ⟨ending, mem, rfl, -⟩ := mem_initFiles.mp found
    obtain ⟨name, rfl, -⟩ := initSuffixes_name mem
    rw [trims, List.append_assoc]
    rcases trimSlashes_from_root path with trimmed | ⟨rest, trimmed⟩ <;> rw [trimmed]
    · exact ⟨name, rfl⟩
    · exact ⟨rest ++ '/' :: name, rfl⟩
  · exact ⟨path, rfl⟩

theorem realPath_slash {fs : FileSystem} {path file : Text}
    (h : realPath fs ('/' :: path) = .ok file) : ∃ rest, file = '/' :: rest :=
  @realPath_append_slash fs [] path file (fun _ => rfl) h

/-! ## One file under two spellings -/

section Plain

variable {tree : FileTree} (plain : tree.FilesAmong FileKey.Plain)

include plain

/-- A file in a directory behind a `.` makes the directory one from the root too. -/
theorem isDirectory_slash_of_init {path name longer : Text} {key : FileKey}
    (names : names longer = names path ++ [name]) (isName : isName name = true) (down : name ≠ up)
    (isFile : tree.isFile ('.' :: '/' :: longer) = true)
    (place : FileKey.ofPath ('.' :: '/' :: path) = some key) :
    FileKey.ofPath ('/' :: path) = some key := by
  have longerPlace := FileKey.ofPath_dot_slash_of_names names isName down
  rw [place, Option.map_some] at longerPlace
  obtain ⟨_, contents, same, found⟩ := FileTree.isFile_iff.mp isFile
  obtain rfl := Option.some.inj (longerPlace.symm.trans same)
  have noDrive := (plain.of_contents? found).not_drive
  rw [FileKey.ofPath_slash_of_dot_slash place, FileKey.withoutDrive_of_head]
  intro first mem
  exact noDrive first (List.mem_append_left _ (List.mem_of_mem_head? mem))

/-- If a path behind a `.` resolves to a file, and the path from the root resolves at all, then to the
same file. -/
theorem realPath_agree {path file absoluteFile : Text}
    (relative : realPath (.ofTree tree) ('.' :: '/' :: path) = .ok file)
    (absolute : realPath (.ofTree tree) ('/' :: path) = .ok absoluteFile)
    (isFile : tree.isFile file = true) : file = '.' :: absoluteFile := by
  have component : lastComponent ('.' :: '/' :: path) = lastComponent ('/' :: path) :=
    lastComponent_cons (by simp) '.'
  have noFile : moduleFiles (.ofTree tree) ('/' :: path) ≠ [] →
      tree.isDirectory ('/' :: path) = false ∧
        ∀ f ∈ moduleFiles (.ofTree tree) ('/' :: path), f = absoluteFile := by
    intro ne
    rcases realPath_eq_ok_iff.mp absolute with ⟨files, dir⟩ | ⟨files, -⟩
    · exact ⟨dir, by simp [files]⟩
    · exact absurd files ne
  rcases realPath_eq_ok_iff.mp relative with ⟨files, -⟩ | ⟨-, dir, inits | ⟨inits, rfl⟩⟩
  · -- A module file: from the root it is a module file as well.
    have found : file ∈ moduleFiles (.ofTree tree) ('.' :: '/' :: path) := by simp [files]
    obtain ⟨notInit, ending, mem, rfl, -⟩ := mem_moduleFiles.mp found
    have here : '/' :: path ++ ending ∈ moduleFiles (.ofTree tree) ('/' :: path) :=
      mem_moduleFiles.mpr ⟨component ▸ notInit, ending, mem, rfl, (plain.isFile_slash isFile).1⟩
    rw [← (noFile (List.ne_nil_of_mem here)).2 _ here]
    rfl
  · -- A file for its directory: from the root there is the same directory with the same file.
    have found : file ∈ initFiles (.ofTree tree) ('.' :: '/' :: path) := by simp [inits]
    obtain ⟨ending, mem, eq, -⟩ := mem_initFiles.mp found
    obtain ⟨name, rfl, unbroken, isName, down⟩ := initSuffixes_name mem
    obtain ⟨longer, spelled, more⟩ := trimSlashes_slash_append path unbroken isName
    rw [trimSlashes_dot, List.cons_append, spelled] at eq
    subst eq
    obtain ⟨key, place, isDir⟩ := FileTree.isDirectory_iff.mp dir
    have place' := isDirectory_slash_of_init plain more isName down isFile place
    have dir' : tree.isDirectory ('/' :: path) = true :=
      FileTree.isDirectory_iff.mpr ⟨key, place', isDir⟩
    have here : '/' :: longer ∈ initFiles (.ofTree tree) ('/' :: path) :=
      mem_initFiles.mpr ⟨_, mem, spelled.symm, (plain.isFile_slash isFile).1⟩
    rcases realPath_eq_ok_iff.mp absolute with ⟨-, no⟩ | ⟨-, -, inits' | ⟨none, -⟩⟩
    · exact absurd (dir'.symm.trans no) (by simp)
    · obtain rfl : '/' :: longer = absoluteFile := by simpa [inits'] using here
      rfl
    · simp [none] at here
  · -- The directory itself, which is a file as well: from the root no file stands for it either.
    obtain ⟨key, contents, place, stored⟩ := FileTree.isFile_iff.mp isFile
    have isPlain := plain.of_contents? stored
    have place' := FileKey.ofPath_slash_of_dot_slash place
    rw [isPlain.withoutDrive] at place'
    have dir' : tree.isDirectory ('/' :: path) = true := by
      rw [FileTree.isDirectory_of_ofPath place', ← FileTree.isDirectory_of_ofPath place]
      exact dir
    rcases realPath_eq_ok_iff.mp absolute with ⟨-, no⟩ | ⟨-, -, inits' | ⟨-, rfl⟩⟩
    · exact absurd (dir'.symm.trans no) (by simp)
    · have here : absoluteFile ∈ initFiles (.ofTree tree) ('/' :: path) := by simp [inits']
      obtain ⟨ending, mem, rfl, isFile'⟩ := mem_initFiles.mp here
      obtain ⟨name, rfl, unbroken, isName, down⟩ := initSuffixes_name mem
      obtain ⟨longer, spelled, more⟩ := trimSlashes_slash_append path unbroken isName
      have longerPlace := FileKey.ofPath_dot_slash_of_names more isName down
      rw [place, Option.map_some] at longerPlace
      have longerPlace' := FileKey.ofPath_slash_of_dot_slash longerPlace
      rw [FileKey.withoutDrive_append isPlain.ne_nil, isPlain.withoutDrive] at longerPlace'
      have present : '.' :: '/' :: longer ∈ initFiles (.ofTree tree) ('.' :: '/' :: path) := by
        refine mem_initFiles.mpr ⟨_, mem, ?_, ?_⟩
        · rw [trimSlashes_dot, List.cons_append, spelled]
        · rw [spelled] at isFile'
          exact (FileTree.isFile_of_ofPath longerPlace).trans
            ((FileTree.isFile_of_ofPath longerPlace').symm.trans isFile')
      simp [inits] at present
    · rfl

/-- A module path that leads above the root resolves to nothing. -/
theorem realPath_of_climbs {modulePath : Text} (h : Climbs modulePath) (file : Text) :
    realPath (.ofTree tree) modulePath ≠ .ok file := by
  rcases h with rfl | ⟨rest, rfl⟩
  · have noFile : ∀ ending ∈ suffixes, tree.isFile (up ++ ending) = false := by
      intro ending mem
      simp only [suffixes, List.mem_cons, List.not_mem_nil, or_false] at mem
      rcases mem with rfl | rfl
      · exact plain.isFile_up _ (by decide) (by decide)
      · exact plain.isFile_up _ (by decide) (by decide)
    exact realPath_of_nowhere noFile (by simp [FileSystem.ofTree, FileTree.isDirectory]) file
  · exact realPath_up_slash tree rest file

/-- The root is no file. -/
theorem isFile_nil : tree.isFile [] = false := by
  rw [← Bool.not_eq_true]
  intro isFile
  obtain ⟨key, contents, place, found⟩ := FileTree.isFile_iff.mp isFile
  obtain rfl : [] = key := by simpa using place
  exact (plain.of_contents? found).ne_nil rfl

end Plain

/-- Above the root there are the files that stand for it, and the root itself. -/
theorem realPath_nil {tree : FileTree} {file : Text} (h : realPath (.ofTree tree) [] = .ok file) :
    file = [] ∨ ∃ rest, file = '/' :: rest := by
  have root : tree.isDirectory [] = true := by simp [FileTree.isDirectory, FileTree.hasDirectory]
  rcases realPath_eq_ok_iff.mp h with ⟨-, no⟩ | ⟨-, -, inits | ⟨-, rfl⟩⟩
  · exact absurd (root.symm.trans no) (by simp)
  · have found : file ∈ initFiles (.ofTree tree) [] := by simp [inits]
    obtain ⟨ending, mem, rfl, -⟩ := mem_initFiles.mp found
    obtain ⟨name, rfl, -⟩ := initSuffixes_name mem
    exact .inr ⟨name, rfl⟩
  · exact .inl rfl

/-! ## Wherever a cursor gets to -/

/-- If a cursor stands on a file, the file from the root lies at the same place. -/
def Agrees (tree : FileTree) (c : Cursor) : Prop :=
  tree.isFile c.filePath = true →
    FileKey.ofPath c.absoluteFilePath = FileKey.ofPath c.filePath

/-- A coherent cursor that agrees with itself about its file. -/
structure Standing (tree : FileTree) (c : Cursor) : Prop where
  coherent : c.target.Coherent
  agrees : Agrees tree c

theorem Standing.start (tree : FileTree) : Standing tree .start :=
  ⟨.inl ⟨rfl, .inr ⟨[], rfl⟩⟩, fun _ => rfl⟩

theorem Standing.stdin (tree : FileTree) : Standing tree .stdin :=
  ⟨.inr ⟨"stdin".toList, rfl, rfl, rfl⟩, fun _ => by decide +kernel⟩

section Plain

variable {tree : FileTree} (plain : tree.FilesAmong FileKey.Plain)

include plain

theorem agrees_of_land {t : Target} (coherent : t.Coherent) {c : Cursor}
    (h : land (.ofTree tree) t = .ok c) : Agrees tree c := by
  obtain ⟨file, absoluteFile, resolved, resolved', rfl⟩ := land_eq_ok_iff.mp h
  intro isFile
  rcases coherent with ⟨same, above⟩ | ⟨rest, spelled, spelled', noDrive⟩
  · -- One path: the files are spelled alike, unless there is none above the root.
    rw [← same, resolved] at resolved'
    cases resolved'
    cases absolute : isAbsolute file with
    | true => simp [FileSystem.ofTree, absolute]
    | false =>
      simp only [FileSystem.ofTree, absolute, Bool.false_eq_true, if_false] at isFile
      rcases above with nothing | ⟨rest, spelled⟩
      · rw [nothing] at resolved
        rcases realPath_nil resolved with rfl | ⟨more, rfl⟩
        · simp [isFile_nil plain] at isFile
        · simp [isAbsolute_slash] at absolute
      · rw [spelled] at resolved
        obtain ⟨more, rfl⟩ := realPath_slash resolved
        simp [isAbsolute_slash] at absolute
  · rw [spelled] at resolved
    rw [spelled'] at resolved'
    obtain ⟨more, rfl⟩ := realPath_slash resolved'
    have relative : ∀ f, (FileSystem.ofTree tree).isAbsolute ('.' :: f) = false := isAbsolute_dot
    have spelledFile : file = '.' :: '/' :: more := by
      refine realPath_agree plain resolved resolved' ?_
      cases absolute : (FileSystem.ofTree tree).isAbsolute file with
      | true => simpa [absolute, noDrive] using isFile
      | false => simpa [absolute] using isFile
    subst spelledFile
    simp only [relative, Bool.false_eq_true, if_false, noDrive, List.nil_append] at isFile ⊢
    exact (plain.isFile_slash isFile).2

/-- A cursor that lands is standing, wherever it was sent. -/
theorem Standing.of_land {t : Target} (ht : t.Coherent ∨ Climbs t.modulePath) {c : Cursor}
    (h : land (.ofTree tree) t = .ok c) : Standing tree c := by
  rcases ht with coherent | climbs
  · exact ⟨target_of_land h ▸ coherent, agrees_of_land plain coherent h⟩
  · obtain ⟨file, -, resolved, -⟩ := land_eq_ok_iff.mp h
    exact absurd resolved (realPath_of_climbs plain climbs file)

/-- Every move keeps a cursor standing. -/
theorem Standing.move {c : Cursor} (standing : Standing tree c) (m : Move) :
    Standing tree (c.move (.ofTree tree) m).2 := by
  refine kept_by_move (Standing tree) standing (.stdin tree) (fun t c' leads landed => ?_) m
  have usual := FileSystem.usualPaths_ofTree tree
  exact .of_land plain (leads.coherent usual rfl standing.coherent) landed

end Plain

end ScriptHost.Cursor

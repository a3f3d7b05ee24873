/-
Which paths lead to one entry of a tree. The place of a path from the root is made of the names of its
normal form, but a first name that ends in a colon is dropped as if it were a drive, however long it is
(`exists_ofPath_dropped`). Two paths that drop the same, or nothing, lead to one entry exactly if they have
one normal form (`entries_by_normal_form`).
-/
import ScriptHost.Proofs.FileTree.BelowRoot
import ScriptHost.Proofs.FileTree.History
import ScriptHost.Proofs.Path.FixedPoints

namespace ScriptHost

open ScriptHost.Path

/-! ## Paths without a drive letter -/

theorem Path.exists_separator_of_noLetter {path : Text} (absolute : isAbsolute path = true)
    (noLetter : driveLetter? path = none) : ∃ s rest, isSeparator s = true ∧ path = s :: rest := by
  obtain ⟨drive, s, rest, isDrive, separates, rfl⟩ := exists_drive_of_isAbsolute absolute
  rw [driveLetter?_append_separator isDrive separates] at noLetter
  cases isDrive with
  | none => exact ⟨s, rest, separates, rfl⟩
  | letter => cases noLetter

namespace FileKey

/-- The first name of a path, if it looks like a drive and is dropped. -/
def dropped (path : Text) : Option Text :=
  (names (normalize path)).head?.filter fun first => IsDrive first

theorem toList_append_withoutDrive (key : FileKey) :
    (key.head?.filter fun first => IsDrive first).toList ++ withoutDrive key = key := by
  cases key with
  | nil => rfl
  | cons first rest =>
    by_cases isDrive : IsDrive first
    · simp [Option.filter, isDrive, withoutDrive_cons isDrive]
    · rw [withoutDrive_of_head (by simpa using isDrive)]
      simp [Option.filter, isDrive]

section NoLetter

variable {path : Text} (absolute : isAbsolute path = true) (noLetter : driveLetter? path = none)

include absolute noLetter

/-- The normal form is spelled by its names alone. -/
theorem normalize_eq_spell_names : normalize path = spell ['/'] (names (normalize path)) := by
  obtain ⟨s, rest, separates, rfl⟩ := exists_separator_of_noLetter absolute noLetter
  rw [names_normalize_of_separator separates, normalize_of_separator separates]
  exact closeUp_append_slash_join [] _

theorem exists_ofPath_dropped :
    ∃ key, ofPath path = some key ∧ names (normalize path) = (dropped path).toList ++ key := by
  obtain ⟨s, rest, separates, rfl⟩ := exists_separator_of_noLetter absolute noLetter
  refine ⟨withoutDrive (names (normalize (s :: rest))), ?_, (toList_append_withoutDrive _).symm⟩
  rw [ofPath_of_separator separates, names_normalize_of_separator separates]

/-- Every name counts exactly if none is dropped. -/
theorem ofPath_eq_names_iff : ofPath path = some (names (normalize path)) ↔ dropped path = none := by
  obtain ⟨key, place, all⟩ := exists_ofPath_dropped absolute noLetter
  rw [place, all, Option.some.injEq, List.self_eq_append_left, Option.toList_eq_nil_iff]

end NoLetter

end FileKey

/-! ## Two paths to one entry -/

/-- Whether no tree in memory makes a difference between two paths, the texts of its errors aside. -/
structure FileTree.Alike (p q : Text) : Prop where
  isFile : ∀ tree : FileTree, tree.isFile p = tree.isFile q
  isDirectory : ∀ tree : FileTree, tree.isDirectory p = tree.isDirectory q
  read : ∀ tree : FileTree, (tree.read p).toOption = (tree.read q).toOption
  readDirectory : ∀ tree : FileTree, (tree.readDirectory p).toOption = (tree.readDirectory q).toOption
  insert : ∀ (tree : FileTree) (contents : Bytes), tree.insert p contents = tree.insert q contents
  insertDirectory : ∀ tree : FileTree, tree.insertDirectory p = tree.insertDirectory q

namespace FileTree

theorem alike_of_ofPath_eq {p q : Text} (same : FileKey.ofPath p = FileKey.ofPath q) : Alike p q where
  isFile tree := tree.isFile_congr same
  isDirectory tree := by rw [isDirectory, same, isDirectory]
  read tree := by rw [toOption_read, toOption_read, same]
  readDirectory tree := by
    rw [readDirectory, readDirectory, same]
    cases FileKey.ofPath q with
    | none => rfl
    | some key => cases found : tree.hasDirectory key <;> simp [found, Except.toOption]
  insert tree contents := by rw [insert, same, insert]
  insertDirectory tree := by rw [insertDirectory, same, insertDirectory]

/-- What was stored is found at the paths of its place, beside what was found before. -/
theorem isFile_insert_iff {p q : Text} {key : FileKey} (place : FileKey.ofPath p = some key)
    (tree : FileTree) (contents : Bytes) :
    (tree.insert p contents).isFile q = true ↔
      FileKey.ofPath p = FileKey.ofPath q ∨ tree.isFile q = true := by
  have stored := tree.contents?_store (.file p contents)
  cases place' : FileKey.ofPath q with
  | none => simp [isFile, place, place']
  | some other =>
    have found : (tree.insert p contents).contents? other = _ := stored other
    rw [isFile_of_ofPath place', isFile_of_ofPath place', found, Storing.contentsAt]
    split <;> simp_all

/-- Two paths are alike exactly if they name one place: a file stored under the one tells them apart
otherwise. -/
theorem alike_iff {p q : Text} {key : FileKey} (place : FileKey.ofPath p = some key) :
    Alike p q ↔ FileKey.ofPath p = FileKey.ofPath q := by
  refine ⟨fun alike => ?_, alike_of_ofPath_eq⟩
  have found : (empty.insert p []).isFile q = true := by
    rw [← alike.isFile, isFile_insert_iff place]
    exact .inl rfl
  refine ((isFile_insert_iff place empty []).mp found).resolve_right ?_
  simp [isFile_iff, empty, contents?]

end FileTree

/-- An operating system is asked for one path exactly if the places are one. -/
theorem DiskTree.systemPath_eq_iff {p q : Text} {key other : FileKey}
    (place : FileKey.ofPath p = some key) (place' : FileKey.ofPath q = some other) (root : Text) :
    systemPath root p = systemPath root q ↔ FileKey.ofPath p = FileKey.ofPath q := by
  refine ⟨fun same => ?_, fun same => by rw [systemPath, same, place', systemPath, place']⟩
  simp only [systemPath, place, place', Except.ok.injEq] at same
  have led := congrArg (locate []) same
  rw [locate_foldl_joinPart (fun _ => FileKey.properName_of_ofPath place),
    locate_foldl_joinPart (fun _ => FileKey.properName_of_ofPath place')] at led
  rw [place, place', List.append_cancel_left led]

/-! ## One entry, one normal form -/

namespace FileKey

/-- One normal form is one place and one dropped name. -/
theorem normalize_eq_iff {p q : Text} (absolute : isAbsolute p = true)
    (absolute' : isAbsolute q = true) (noLetter : driveLetter? p = none)
    (noLetter' : driveLetter? q = none) :
    normalize p = normalize q ↔ ofPath p = ofPath q ∧ dropped p = dropped q := by
  obtain ⟨key, place, all⟩ := exists_ofPath_dropped absolute noLetter
  obtain ⟨other, place', all'⟩ := exists_ofPath_dropped absolute' noLetter'
  constructor
  · intro same
    have drops : dropped p = dropped q := by rw [dropped, same, dropped]
    have tails : key = other := by
      rw [same, all', drops] at all
      exact (List.append_cancel_left all).symm
    exact ⟨by rw [place, place', tails], drops⟩
  · rintro ⟨same, drops⟩
    rw [place, place', Option.some.injEq] at same
    rw [normalize_eq_spell_names absolute noLetter, normalize_eq_spell_names absolute' noLetter', all, all',
      same, drops]

/-- **Only what looks like a drive is ignored.** The place of a path from the root without a drive letter is
made of the names that its normal form is spelled with, and of all of them exactly if the first one is not
dropped for the colon that it ends in. If two such paths drop the same name, or none, they lead to one entry
in memory and on a disk exactly if they have one normal form, and a file stored under the one is found under
the other only then, unless one was there before. Paths of one normal form drop the same. -/
theorem entries_by_normal_form {p q : Text} (absolute : isAbsolute p = true)
    (absolute' : isAbsolute q = true) (noLetter : driveLetter? p = none)
    (noLetter' : driveLetter? q = none) :
    (normalize p = spell ['/'] (names (normalize p)) ∧
      (∃ key, ofPath p = some key ∧ names (normalize p) = (dropped p).toList ++ key) ∧
      (ofPath p = some (names (normalize p)) ↔ dropped p = none)) ∧
    (normalize p = normalize q → dropped p = dropped q) ∧
    (dropped p = dropped q →
      (FileTree.Alike p q ↔ normalize p = normalize q) ∧
      (∀ root, DiskTree.systemPath root p = DiskTree.systemPath root q ↔ normalize p = normalize q) ∧
      ∀ (tree : FileTree) (contents : Bytes), (tree.insert p contents).isFile q = true ↔
        normalize p = normalize q ∨ tree.isFile q = true) := by
  obtain ⟨key, place, all⟩ := exists_ofPath_dropped absolute noLetter
  obtain ⟨other, place', -⟩ := exists_ofPath_dropped absolute' noLetter'
  have one := normalize_eq_iff absolute absolute' noLetter noLetter'
  refine ⟨⟨normalize_eq_spell_names absolute noLetter, ⟨key, place, all⟩,
    ofPath_eq_names_iff absolute noLetter⟩, fun same => (one.mp same).2, fun drops => ?_⟩
  have one' : normalize p = normalize q ↔ ofPath p = ofPath q := one.trans (and_iff_left drops)
  rw [one']
  exact ⟨FileTree.alike_iff place, DiskTree.systemPath_eq_iff place place',
    FileTree.isFile_insert_iff place⟩

/-- Two spellings of one entry with a colon inside, and what is stored under one of them. -/
theorem entries_by_normal_form_of_colon :
    let p := "/lib/./x:".toList
    let q := "\\lib\\y\\..\\x:".toList
    normalize p = "/lib/x:".toList ∧ ofPath p = some ["lib".toList, "x:".toList] ∧ FileTree.Alike p q ∧
      (∀ root, DiskTree.systemPath root p = DiskTree.systemPath root q) ∧
      ∀ (tree : FileTree) (contents : Bytes), (tree.insert p contents).isFile q = true := by
  intro p q
  obtain ⟨⟨-, -, whole⟩, drops, entries⟩ := @entries_by_normal_form p q (by decide) (by decide)
    (by decide) (by decide)
  have one : normalize p = normalize q := by decide +kernel
  obtain ⟨memory, disk, stored⟩ := entries (drops one)
  have place := whole.mpr (by decide +kernel)
  exact ⟨by decide +kernel, place.trans (by decide +kernel), memory.mpr one,
    fun root => (disk root).mpr one, fun tree contents => (stored tree contents).mpr (.inl one)⟩

/-- A name of two letters is dropped as well, so what is stored below it is found beside it. -/
theorem entries_of_long_drive :
    let p := "/ab:/x".toList
    let q := "/x".toList
    isAbsolute p = true ∧ isAbsolute q = true ∧ driveLetter? p = none ∧ driveLetter? q = none ∧
      names (normalize p) = ["ab:".toList, "x".toList] ∧ ofPath p = some ["x".toList] ∧
      normalize p ≠ normalize q ∧ FileTree.Alike p q ∧
      (FileTree.empty.insert p []).isFile q = true := by
  intro p q
  have one : ofPath p = ofPath q := by decide +kernel
  exact ⟨by decide, by decide, by decide, by decide, by decide +kernel, by decide +kernel,
    by decide +kernel, FileTree.alike_of_ofPath_eq one, by decide +kernel⟩

end FileKey
end ScriptHost

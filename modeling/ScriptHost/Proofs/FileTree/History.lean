/-
A tree by its history. At every place there is what was last stored there as a file, and a directory exactly
where something was stored below, or a directory was stored: what one storing changes is said by
`contents?_store` and `mem_directories_store`, and what a whole history leaves by `contents?_ofStorings` and
`mem_directories_ofStorings`.
-/
import ScriptHost.Proofs.FileTree.Listing

namespace ScriptHost

/-! ## What storing something does to a place -/

namespace Storing

/-- The contents that are stored at a place, if a file is. -/
def contentsAt (key : FileKey) : Storing → Option Bytes
  | file path contents => if FileKey.ofPath path = some key then some contents else none
  | directory _ => none

/-- Whether a place becomes a directory: it is above a file, or it is a directory that is stored or above
one. -/
def Opens (key : FileKey) : Storing → Prop
  | file path _ => ∃ whole, FileKey.ofPath path = some whole ∧ key <+: whole ∧ key ≠ whole
  | directory path => ∃ whole, FileKey.ofPath path = some whole ∧ key <+: whole

/-- Whether something is stored at a place or below it. -/
def Reaches (key : FileKey) (storing : Storing) : Prop :=
  ∃ whole, FileKey.ofPath storing.path = some whole ∧ key <+: whole

theorem isSome_contentsAt_iff {key : FileKey} {storing : Storing} :
    (storing.contentsAt key).isSome = true ↔
      ∃ path contents, storing = .file path contents ∧ FileKey.ofPath path = some key := by
  cases storing with
  | file path contents => simp [contentsAt]
  | directory path => simp [contentsAt]

/-- What is reached is a file that is stored, or a directory. -/
theorem reaches_iff {key : FileKey} {storing : Storing} :
    storing.Reaches key ↔ (storing.contentsAt key).isSome = true ∨ storing.Opens key := by
  cases storing with
  | file path contents =>
    simp only [Reaches, Storing.path, Opens, contentsAt]
    constructor
    · rintro ⟨whole, place, under⟩
      by_cases same : key = whole
      · exact .inl (by simp [place, same])
      · exact .inr ⟨whole, place, under, same⟩
    · rintro (stored | ⟨whole, place, under, -⟩)
      · exact ⟨key, by simpa using stored, List.prefix_refl key⟩
      · exact ⟨whole, place, under⟩
  | directory path => simp [Reaches, Storing.path, Opens, contentsAt]

end Storing

namespace FileTree

open Storing

/-! ## One storing -/

theorem lookup_filter_of_ne {files : List (FileKey × Bytes)} {key other : FileKey} (ne : key ≠ other) :
    (files.filter fun entry => entry.1 ≠ other).lookup key = files.lookup key := by
  induction files with
  | nil => rfl
  | cons entry files ih =>
    by_cases same : entry.1 = other
    · have away : (key == entry.1) = false := beq_false_of_ne (same ▸ ne)
      rw [List.filter_cons_of_neg (by simp [same]), ih, List.lookup_cons, away]
    · rw [List.filter_cons_of_pos (by simp [same]), List.lookup_cons, List.lookup_cons, ih]

theorem contents?_addFile (tree : FileTree) (place key : FileKey) (contents : Bytes) :
    (tree.addFile place contents).contents? key =
      if place = key then some contents else tree.contents? key := by
  rw [contents?, addFile, List.lookup_cons]
  by_cases same : place = key
  · simp [same]
  · have away : (key == place) = false := beq_false_of_ne (Ne.symm same)
    rw [away, if_neg same]
    exact lookup_filter_of_ne (Ne.symm same)

/-- A place has the contents that are stored there, and otherwise those it had. -/
theorem contents?_store (tree : FileTree) (storing : Storing) (key : FileKey) :
    (tree.store storing).contents? key = (storing.contentsAt key).or (tree.contents? key) := by
  cases storing with
  | file path contents =>
    simp only [store, insert, contentsAt]
    cases FileKey.ofPath path with
    | none => simp
    | some place =>
      simp only [contents?_addFile, Option.some.injEq]
      split <;> rfl
  | directory path =>
    simp only [store, insertDirectory, contentsAt]
    cases FileKey.ofPath path <;> rfl

/-- The directories are those there were and those that become ones. -/
theorem mem_directories_store {tree : FileTree} {storing : Storing} {key : FileKey} :
    key ∈ (tree.store storing).directories ↔ key ∈ tree.directories ∨ storing.Opens key := by
  cases storing with
  | file path contents =>
    simp only [store, insert, Opens]
    cases FileKey.ofPath path with
    | none => simp
    | some place =>
      simp only [addFile, mem_addDirectories, mem_ancestors_iff, Option.some.injEq, exists_eq_left']
  | directory path =>
    simp only [store, insertDirectory, Opens]
    cases FileKey.ofPath path with
    | none => simp
    | some place =>
      have here : key <+: place ∧ key ≠ place ∨ key = place ↔ key <+: place := by
        by_cases same : key = place <;> simp [same]
      simp only [mem_addDirectories, List.mem_append, List.mem_singleton, mem_ancestors_iff, here,
        Option.some.injEq, exists_eq_left']

/-- What climbs above the root changes nothing. -/
theorem store_of_none {storing : Storing} (h : FileKey.ofPath storing.path = none) (tree : FileTree) :
    tree.store storing = tree := by
  cases storing <;> simp_all [store, Storing.path, insert, insertDirectory]

/-! ## A whole history -/

theorem ofStorings_concat (storings : List Storing) (last : Storing) :
    ofStorings (storings ++ [last]) = (ofStorings storings).store last := by
  simp [ofStorings]

/-- The contents that were stored at a place, the last ones at the end. -/
def contentsStored (storings : List Storing) (key : FileKey) : List Bytes :=
  storings.filterMap (Storing.contentsAt key)

theorem contents?_ofStorings (storings : List Storing) (key : FileKey) :
    (ofStorings storings).contents? key = (contentsStored storings key).getLast? := by
  induction storings using List.reverseRecOn with
  | nil => rfl
  | append_singleton storings last ih =>
    rw [ofStorings_concat, contents?_store, ih, contentsStored, contentsStored, List.filterMap_append,
      List.getLast?_append]
    cases h : last.contentsAt key <;> simp [h]

theorem mem_directories_ofStorings {storings : List Storing} {key : FileKey} :
    key ∈ (ofStorings storings).directories ↔ ∃ storing ∈ storings, storing.Opens key := by
  induction storings using List.reverseRecOn with
  | nil => simp [ofStorings, empty]
  | append_singleton storings last ih =>
    rw [ofStorings_concat, mem_directories_store, ih]
    simp [or_and_right, exists_or]

theorem hasDirectory_ofStorings {storings : List Storing} {key : FileKey} :
    (ofStorings storings).hasDirectory key = true ↔ key = [] ∨ ∃ storing ∈ storings, storing.Opens key := by
  rw [hasDirectory_iff, mem_directories_ofStorings]

theorem isSome_contents?_ofStorings {storings : List Storing} {key : FileKey} :
    ((ofStorings storings).contents? key).isSome = true ↔
      ∃ storing ∈ storings, (storing.contentsAt key).isSome = true := by
  rw [contents?_ofStorings, Option.isSome_iff_ne_none, ne_eq, List.getLast?_eq_none_iff, contentsStored,
    List.filterMap_eq_nil_iff]
  simp [Option.isSome_iff_ne_none]

/-- Listed in a directory is what was stored right below it, and what leads to something further below. -/
theorem mem_names_ofStorings {storings : List Storing} {directory : FileKey} {name : Text} :
    name ∈ (ofStorings storings).names directory ↔
      ∃ storing ∈ storings, storing.Reaches (directory ++ [name]) := by
  rw [mem_names_iff, isSome_contents?_ofStorings, mem_directories_ofStorings]
  simp only [reaches_iff, and_or_left, exists_or]

/-! ## What is answered -/

theorem isFile_ofStorings {storings : List Storing} {path : Text} :
    (ofStorings storings).isFile path = true ↔ ∃ key, FileKey.ofPath path = some key ∧
      ∃ source contents, .file source contents ∈ storings ∧ FileKey.ofPath source = some key := by
  cases place : FileKey.ofPath path with
  | none => simp [isFile, place]
  | some key =>
    rw [isFile_of_ofPath place, isSome_contents?_ofStorings]
    simp only [isSome_contentsAt_iff, Option.some.injEq, exists_eq_left']
    constructor
    · rintro ⟨_, mem, source, contents, rfl, stored⟩
      exact ⟨source, contents, mem, stored⟩
    · rintro ⟨source, contents, mem, stored⟩
      exact ⟨_, mem, source, contents, rfl, stored⟩

theorem read_ofStorings (storings : List Storing) (path : Text) :
    (ofStorings storings).read path =
      match (FileKey.ofPath path).bind fun key => (contentsStored storings key).getLast? with
      | some contents => .ok contents
      | none => .error (.notFound path) := by
  cases place : FileKey.ofPath path with
  | none => simp [read, place]
  | some key =>
    simp only [read, place, contents?_ofStorings, Option.bind_some]
    cases (contentsStored storings key).getLast? <;> rfl

theorem isDirectory_ofStorings {storings : List Storing} {path : Text} :
    (ofStorings storings).isDirectory path = true ↔ ∃ key, FileKey.ofPath path = some key ∧
      (key = [] ∨ ∃ storing ∈ storings, storing.Opens key) := by
  rw [isDirectory_iff]
  simp only [hasDirectory_ofStorings]

/-- A file is what can be read. -/
theorem isFile_iff_read {tree : FileTree} {path : Text} :
    tree.isFile path = true ↔ ∃ contents, tree.read path = .ok contents := by
  unfold isFile read
  cases FileKey.ofPath path with
  | none => simp
  | some key => cases found : tree.contents? key <;> simp [found]

theorem readDirectory_eq_ok_iff {tree : FileTree} {path : Text} {names : List Text} :
    tree.readDirectory path = .ok names ↔
      ∃ key, FileKey.ofPath path = some key ∧ tree.hasDirectory key = true ∧ tree.names key = names := by
  unfold readDirectory
  cases FileKey.ofPath path with
  | none => simp
  | some key => by_cases directory : tree.hasDirectory key = true <;> simp [directory]

/-- A directory is what can be listed. -/
theorem isDirectory_iff_readDirectory {tree : FileTree} {path : Text} :
    tree.isDirectory path = true ↔ ∃ names, tree.readDirectory path = .ok names := by
  simp only [isDirectory_iff, readDirectory_eq_ok_iff]
  constructor
  · rintro ⟨key, place, directory⟩
    exact ⟨_, key, place, directory, rfl⟩
  · rintro ⟨-, key, place, directory, -⟩
    exact ⟨key, place, directory⟩

theorem readDirectory_of_not_isDirectory {tree : FileTree} {path : Text}
    (h : tree.isDirectory path = false) : tree.readDirectory path = .error (.notFound path) := by
  unfold isDirectory at h
  unfold readDirectory
  cases place : FileKey.ofPath path with
  | none => rfl
  | some key =>
    rw [place] at h
    simp only [h, Bool.false_eq_true, if_false]

/-- What a tree answers at a path, told by what was stored. -/
structure Tells (storings : List Storing) (tree : FileTree) (path : Text) : Prop where
  isFile : tree.isFile path = true ↔ ∃ key, FileKey.ofPath path = some key ∧
    ∃ source contents, .file source contents ∈ storings ∧ FileKey.ofPath source = some key
  readable : (∃ contents, tree.read path = .ok contents) ↔ tree.isFile path = true
  /-- The last contents stored there are read. -/
  read : tree.read path =
    match (FileKey.ofPath path).bind fun key => (contentsStored storings key).getLast? with
    | some contents => .ok contents
    | none => .error (.notFound path)
  isDirectory : tree.isDirectory path = true ↔ ∃ key, FileKey.ofPath path = some key ∧
    (key = [] ∨ ∃ storing ∈ storings, storing.Opens key)
  listable : (∃ names, tree.readDirectory path = .ok names) ↔ tree.isDirectory path = true
  unlisted : tree.isDirectory path = false → tree.readDirectory path = .error (.notFound path)
  /-- Names are listed in the order of their bytes, each once. -/
  ordered : ∀ names, tree.readDirectory path = .ok names →
    names.Pairwise fun a b => Utf8.encode a < Utf8.encode b
  listed : ∀ names, tree.readDirectory path = .ok names → ∀ name, name ∈ names ↔
    ∃ key, FileKey.ofPath path = some key ∧ ∃ storing ∈ storings, storing.Reaches (key ++ [name])

theorem tells_ofStorings (storings : List Storing) (path : Text) :
    Tells storings (ofStorings storings) path where
  isFile := isFile_ofStorings
  readable := isFile_iff_read.symm
  read := read_ofStorings storings path
  isDirectory := isDirectory_ofStorings
  listable := isDirectory_iff_readDirectory.symm
  unlisted := readDirectory_of_not_isDirectory
  ordered := by
    intro names read
    obtain ⟨key, -, -, rfl⟩ := readDirectory_eq_ok_iff.mp read
    exact pairwise_lt_names _ key
  listed := by
    intro names read name
    obtain ⟨key, place, -, rfl⟩ := readDirectory_eq_ok_iff.mp read
    simp only [place, mem_names_ofStorings, Option.some.injEq, exists_eq_left']

/-- **A tree is what its history tells.** At every path it answers by what was stored there, above or below,
and of two files stored there by the last; what was stored above the root might as well not have been. -/
theorem tree_is_its_history (storings : List Storing) :
    (∀ path, Tells storings (ofStorings storings) path) ∧
    ∀ before storing after, storings = before ++ storing :: after →
      FileKey.ofPath storing.path = none → ofStorings storings = ofStorings (before ++ after) := by
  refine ⟨tells_ofStorings storings, ?_⟩
  rintro before storing after rfl climbs
  simp [ofStorings, store_of_none climbs]

end FileTree
end ScriptHost

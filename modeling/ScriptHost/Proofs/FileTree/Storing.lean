/-
Trees by the way they came about. What a tree holds was stored under a path that names its place.
-/
import ScriptHost.Proofs.FileTree.Key

namespace ScriptHost

/-- Something to be stored in a tree. -/
inductive Storing where
  | file (path : Text) (contents : Bytes)
  | directory (path : Text)
  deriving DecidableEq, Repr

/-- The path under which something is to be stored. -/
def Storing.path : Storing → Text
  | file path _ => path
  | directory path => path

namespace FileTree

/-- A tree with one more thing stored in it. -/
def store (tree : FileTree) : Storing → FileTree
  | .file path contents => tree.insert path contents
  | .directory path => tree.insertDirectory path

/-- The tree that storing things one after the other makes of the empty one. -/
def ofStorings (storings : List Storing) : FileTree :=
  storings.foldl store empty

/-! ## Asking -/

theorem isFile_iff {tree : FileTree} {path : Text} :
    tree.isFile path = true ↔
      ∃ key contents, FileKey.ofPath path = some key ∧ tree.contents? key = some contents := by
  unfold isFile
  cases FileKey.ofPath path with
  | none => simp
  | some key => simp [Option.isSome_iff_exists]

theorem isFile_of_ofPath {tree : FileTree} {path : Text} {key : FileKey}
    (h : FileKey.ofPath path = some key) : tree.isFile path = (tree.contents? key).isSome := by
  simp [isFile, h]

theorem isFile_congr (tree : FileTree) {p q : Text} (h : FileKey.ofPath p = FileKey.ofPath q) :
    tree.isFile p = tree.isFile q := by
  rw [isFile, h, isFile]

theorem isDirectory_of_ofPath {tree : FileTree} {path : Text} {key : FileKey}
    (h : FileKey.ofPath path = some key) : tree.isDirectory path = tree.hasDirectory key := by
  simp [isDirectory, h]

theorem isDirectory_iff {tree : FileTree} {path : Text} :
    tree.isDirectory path = true ↔
      ∃ key, FileKey.ofPath path = some key ∧ tree.hasDirectory key = true := by
  unfold isDirectory
  cases FileKey.ofPath path <;> simp

/-- There is a file or a directory at a place. -/
def Has (tree : FileTree) (key : FileKey) : Prop :=
  (tree.contents? key).isSome = true ∨ tree.hasDirectory key = true

instance (tree : FileTree) (key : FileKey) : Decidable (tree.Has key) :=
  inferInstanceAs (Decidable (_ ∨ _))

theorem read_of_contents? {tree : FileTree} {path : Text} {key : FileKey} {contents : Bytes}
    (place : FileKey.ofPath path = some key) (h : tree.contents? key = some contents) :
    tree.read path = .ok contents := by
  simp [read, place, h]

/-- Whether there is a file, and what it holds, depends on the place of the path alone. -/
theorem isFile_eq (tree : FileTree) (path : Text) :
    tree.isFile path = ((FileKey.ofPath path).bind tree.contents?).isSome := by
  unfold isFile
  cases FileKey.ofPath path <;> rfl

theorem toOption_read (tree : FileTree) (path : Text) :
    (tree.read path).toOption = (FileKey.ofPath path).bind tree.contents? := by
  unfold read
  cases FileKey.ofPath path with
  | none => rfl
  | some key => cases found : tree.contents? key <;> simp [found, Except.toOption]

/-! ## What was stored -/

/-- Every file of a tree has a place that is among some keys. -/
def FilesAmong (tree : FileTree) (keys : FileKey → Prop) : Prop :=
  ∀ entry ∈ tree.files, keys entry.1

theorem FilesAmong.of_contents? {tree : FileTree} {keys : FileKey → Prop}
    (h : tree.FilesAmong keys) {key : FileKey} {contents : Bytes}
    (found : tree.contents? key = some contents) : keys key := by
  unfold contents? at found
  obtain ⟨before, after, eq, -⟩ := List.lookup_eq_some_iff.mp found
  exact h (key, contents) (by simp [eq])

theorem FilesAmong.store {tree : FileTree} {keys : FileKey → Prop} (h : tree.FilesAmong keys)
    {storing : Storing}
    (among : ∀ key, FileKey.ofPath storing.path = some key → keys key) :
    (tree.store storing).FilesAmong keys := by
  cases storing with
  | file path contents =>
    simp only [FileTree.store, insert]
    split
    · exact h
    · next key place =>
      intro entry mem
      simp only [addFile, addDirectories, List.mem_cons, List.mem_filter] at mem
      rcases mem with rfl | ⟨mem, -⟩
      · exact among key place
      · exact h entry mem
  | directory path =>
    simp only [FileTree.store, insertDirectory]
    split
    · exact h
    · exact h

theorem FilesAmong.foldl_store {keys : FileKey → Prop} {storings : List Storing} {tree : FileTree}
    (h : tree.FilesAmong keys)
    (among : ∀ storing ∈ storings, ∀ key, FileKey.ofPath storing.path = some key → keys key) :
    (storings.foldl FileTree.store tree).FilesAmong keys := by
  induction storings generalizing tree with
  | nil => exact h
  | cons storing storings ih =>
    exact ih (h.store (among storing (by simp))) fun later mem => among later (by simp [mem])

/-- The files of a tree lie at places that something was stored at. -/
theorem filesAmong_ofStorings {keys : FileKey → Prop} {storings : List Storing}
    (among : ∀ storing ∈ storings, ∀ key, FileKey.ofPath storing.path = some key → keys key) :
    (ofStorings storings).FilesAmong keys :=
  FilesAmong.foldl_store (by simp [FilesAmong, empty]) among

/-! ## Directories on the way -/

theorem mem_addDirectories {tree : FileTree} {keys : List FileKey} {key : FileKey} :
    key ∈ (tree.addDirectories keys).directories ↔ key ∈ tree.directories ∨ key ∈ keys := by
  have folded : ∀ dirs : List FileKey, key ∈ keys.foldl (fun dirs key => dirs.insert key) dirs ↔
      key ∈ dirs ∨ key ∈ keys := by
    induction keys with
    | nil => simp
    | cons first keys ih =>
      intro dirs
      rw [List.foldl_cons, ih, List.mem_insert_iff, List.mem_cons, or_comm (a := key = first), or_assoc]
  exact folded tree.directories

theorem hasDirectory_iff {tree : FileTree} {key : FileKey} :
    tree.hasDirectory key = true ↔ key = [] ∨ key ∈ tree.directories := by
  simp [hasDirectory]

theorem mem_ancestors_iff {key above : FileKey} :
    above ∈ ancestors key ↔ above <+: key ∧ above ≠ key := by
  constructor
  · intro mem
    obtain ⟨depth, shorter, rfl⟩ := List.mem_map.mp mem
    refine ⟨List.take_prefix depth key, fun whole => ?_⟩
    have := congrArg List.length whole
    rw [List.length_take] at this
    rw [List.mem_range] at shorter
    omega
  · rintro ⟨under, ne⟩
    have shorter : above.length < key.length :=
      Nat.lt_of_le_of_ne under.length_le fun e => ne (under.eq_of_length e)
    exact List.mem_map.mpr
      ⟨above.length, by simpa using shorter, (List.prefix_iff_eq_take.mp under).symm⟩

/-- Whatever lies above a file is a directory. -/
def WaysLead (tree : FileTree) : Prop :=
  tree.FilesAmong fun key => ∀ above, above <+: key → above ≠ key → tree.hasDirectory above = true

theorem WaysLead.store {tree : FileTree} (h : tree.WaysLead) (storing : Storing) :
    (tree.store storing).WaysLead := by
  have grown : ∀ keys key, tree.hasDirectory key = true →
      (tree.addDirectories keys).hasDirectory key = true := by
    intro keys key dir
    rw [hasDirectory_iff] at dir ⊢
    exact dir.imp_right fun mem => mem_addDirectories.mpr (.inl mem)
  cases storing with
  | file path contents =>
    simp only [FileTree.store, insert]
    cases place : FileKey.ofPath path with
    | none => exact h
    | some key =>
      rintro entry mem above under ne
      change (tree.addDirectories (ancestors key)).hasDirectory above = true
      simp only [addFile, addDirectories, List.mem_cons, List.mem_filter] at mem
      rcases mem with rfl | ⟨mem, -⟩
      · rw [hasDirectory_iff]
        exact .inr (mem_addDirectories.mpr (.inr (mem_ancestors_iff.mpr ⟨under, ne⟩)))
      · exact grown _ _ (h entry mem above under ne)
  | directory path =>
    simp only [FileTree.store, insertDirectory]
    cases FileKey.ofPath path with
    | none => exact h
    | some key => exact fun entry mem above under ne => grown _ _ (h entry mem above under ne)

theorem waysLead_ofStorings (storings : List Storing) : (ofStorings storings).WaysLead := by
  have step : ∀ (storings : List Storing) (tree : FileTree), tree.WaysLead →
      (storings.foldl FileTree.store tree).WaysLead := by
    intro storings
    induction storings with
    | nil => exact fun _ h => h
    | cons storing storings ih => exact fun tree h => ih _ (h.store storing)
  exact step storings empty (by simp [WaysLead, FilesAmong, empty])

end FileTree
end ScriptHost

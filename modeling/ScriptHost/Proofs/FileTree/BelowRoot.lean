/-
Where lookups can lead. A path leads above the root if it is relative and its normal form starts with
`..`, and then it names no place. Any other names a place whose names all lead down (`properName_of_ofPath`).
What is found on a disk stands at that place (`nodeAt_of_findPath`), and the path that an operating system
is asked for leads there from the root of the disk, wherever that is (`locate_foldl_joinPart`).
-/
import ScriptHost.Proofs.FileTree.Key
import ScriptHost.Proofs.Path.Composing
import ScriptHost.FileSystem

namespace ScriptHost

open ScriptHost.Path

/-! ## Paths above the root -/

/-- Whether a path leads above what it starts from. -/
def Climbs (path : Text) : Prop :=
  isAbsolute path = false ∧ up <+: normalize path

theorem climbs_iff {path : Text} :
    Climbs path ↔ isAbsolute path = false ∧ up ∈ resolve false (names path) := by
  refine and_congr_right fun relative => ?_
  by_cases climbs : up ∈ resolve false (names path)
  · obtain ⟨rest, eq⟩ := normalize_climbing relative climbs
    exact iff_of_true ⟨'/' :: rest, eq.symm⟩ climbs
  · obtain ⟨rest, eq⟩ := exists_normalize_slash path
    refine iff_of_false ?_ climbs
    simp [normalize_staying relative climbs, eq, up]

namespace FileKey

theorem ofPath_eq_none_iff {path : Text} : ofPath path = none ↔ Climbs path := by
  cases absolute : isAbsolute path with
  | true =>
    obtain ⟨key, place⟩ := exists_ofPath_of_isAbsolute absolute
    simp [place, climbs_iff, absolute]
  | false => simp [ofPath_of_relative absolute, climbs_iff, absolute]

/-! ## Names below the root -/

/-- Every name of a place leads one step down. -/
theorem properName_of_ofPath {path name : Text} {key : FileKey} (place : ofPath path = some key)
    (mem : name ∈ key) : ProperName name := by
  simp only [ofPath_eq, Option.ite_none_left_eq_some, Option.some.injEq] at place
  obtain ⟨stays, rfl⟩ := place
  have named : name ∈ names (normalize path) := by
    split at mem
    · exact mem_of_mem_withoutDrive mem
    · exact mem
  exact ⟨unbroken_of_mem_names named, (List.mem_filter.mp named).2, fun e => stays (e ▸ mem)⟩

end FileKey

/-! ## Paths of an operating system -/

namespace DiskTree

/-- Where one name of a path leads from a place, links aside. Nothing and `.` stay there, and `..` leads
back up, but not above the top. -/
def enter (place : FileKey) (name : Text) : FileKey :=
  if name = [] ∨ name = here then place
  else if name = up then place.dropLast
  else place ++ [name]

/-- The place that an operating system finds at a path: from the top if the path starts with a slash and
from the current directory if not, one name after the other. Only slashes separate names. -/
def locate (current : FileKey) (path : Text) : FileKey :=
  (path.splitOn '/').foldl enter (if path.head? = some '/' then [] else current)

@[simp] theorem enter_nil (place : FileKey) : enter place [] = place := rfl

theorem enter_of_properName {name : Text} (proper : ProperName name) (place : FileKey) :
    enter place name = place ++ [name] := by
  obtain ⟨ne, other⟩ := isName_iff.mp proper.isName
  simp [enter, ne, other, proper.down]

/-- Names that lead down lead to what lies below, from any place. -/
theorem foldl_enter {key : FileKey} (proper : ∀ name ∈ key, ProperName name) (place : FileKey) :
    key.foldl enter place = place ++ key := by
  induction key generalizing place with
  | nil => simp
  | cons name key ih =>
    rw [List.foldl_cons, enter_of_properName (proper name (by simp)),
      ih fun other mem => proper other (by simp [mem])]
    simp

theorem splitOn_append_slash (before behind : Text) :
    (before ++ '/' :: behind).splitOn '/' = before.splitOn '/' ++ behind.splitOn '/' := by
  simp only [List.splitOn_eq_splitOnP]
  exact List.splitOnP_append_cons before behind rfl

theorem splitOn_of_properName {name : Text} (proper : ProperName name) : name.splitOn '/' = [name] := by
  rw [List.splitOn_eq_splitOnP]
  refine List.splitOnP_eq_singleton fun c mem => ?_
  exact beq_false_of_ne fun e => proper.slash_notMem (e ▸ mem)

theorem head?_append_slash (before behind behind' : Text) :
    (before ++ '/' :: behind).head? = (before ++ '/' :: behind').head? := by
  cases before <;> rfl

/-- A slash behind a path that is not empty leads nowhere else. -/
theorem locate_append_slash (current : FileKey) {path : Text} (ne : path ≠ []) :
    locate current (path ++ ['/']) = locate current path := by
  obtain ⟨c, rest, rfl⟩ := List.exists_cons_of_ne_nil ne
  rw [locate, splitOn_append_slash]
  simp [locate]

/-- A name behind a slash leads one step down from what is before it. -/
theorem locate_append_name {name : Text} (proper : ProperName name) (current : FileKey) (before : Text) :
    locate current (before ++ '/' :: name) = locate current (before ++ ['/']) ++ [name] := by
  rw [locate, locate, splitOn_append_slash, splitOn_append_slash, splitOn_of_properName proper,
    head?_append_slash before name []]
  simp [enter_of_properName proper]

theorem locate_joinPart {name : Text} (proper : ProperName name) (current : FileKey) (path : Text) :
    locate current (joinPart path name) = locate current path ++ [name] := by
  have relative : ¬ name.head? = some '/' := fun first => proper.slash_notMem (List.mem_of_head? first)
  rw [joinPart, if_neg relative]
  split
  · next closed =>
    rcases closed with rfl | closed
    · simp [locate, relative, splitOn_of_properName proper, enter_of_properName proper]
    · obtain ⟨before, rfl⟩ := List.getLast?_eq_some_iff.mp closed
      rw [List.append_assoc]
      exact locate_append_name proper current before
  · next opened =>
    have ne : path ≠ [] := fun e => opened (.inl e)
    rw [locate_append_name proper, locate_append_slash current ne]

theorem locate_foldl_joinPart {key : FileKey} (proper : ∀ name ∈ key, ProperName name)
    (current : FileKey) (root : Text) :
    locate current (key.foldl joinPart root) = locate current root ++ key := by
  induction key generalizing root with
  | nil => simp
  | cons name key ih =>
    rw [List.foldl_cons, ih fun other mem => proper other (by simp [mem]),
      locate_joinPart (proper name (by simp))]
    simp

/-! ## What is found on a disk -/

/-- A walk that comes to an end has found what stands where its names lead. -/
theorem nodeAt_of_findFrom {tree : FileTree} {names : List Text} {place : FileKey} {node : FileNode}
    (found : findFrom tree place names = .ok node) : nodeAt tree (place ++ names) = .ok node := by
  induction names generalizing place with
  | nil => rwa [List.append_nil]
  | cons name names ih =>
    simp only [findFrom, bind, Except.bind] at found
    split at found
    · cases found
    · split at found
      · cases found
      · split at found
        · cases found
        · have further := ih found
          rwa [List.append_assoc, List.singleton_append] at further

theorem nodeAt_of_findPath {root : Text} {tree : FileTree} {path : Text} {key : FileKey} {node : FileNode}
    (place : FileKey.ofPath path = some key) (found : findPath root tree path = .ok node) :
    nodeAt tree key = .ok node := by
  simp only [findPath, place, find] at found
  split at found
  · cases found
  · split at found
    · cases found
    · cases walk : findFrom tree [] key with
      | error kind => simp [walk, Except.mapError] at found
      | ok other =>
        obtain rfl : other = node := by simpa [walk, Except.mapError] using found
        exact nodeAt_of_findFrom walk

end DiskTree

/-! ## Lookups -/

/-- Whether nothing is found at a path. -/
def FileSystem.Lacks (fs : FileSystem) (path : Text) : Prop :=
  fs.isFile path = false ∧ fs.isDirectory path = false ∧ fs.read path = .error (.notFound path) ∧
    fs.readDirectory path = .error (.notFound path)

theorem FileSystem.lacks_ofTree {path : Text} (h : FileKey.ofPath path = none) (tree : FileTree) :
    (ofTree tree).Lacks path := by
  simp [Lacks, ofTree, FileTree.isFile, FileTree.isDirectory, FileTree.read, FileTree.readDirectory, h]

theorem FileSystem.lacks_ofDisk {path : Text} (h : FileKey.ofPath path = none) (root : Text) (tree : FileTree) :
    (ofDisk root tree).Lacks path := by
  have refused : DiskTree.findPath root tree path = .error (.notFound path) := by
    simp [DiskTree.findPath, h]
  simp [Lacks, ofDisk, DiskTree.isFile, DiskTree.isDirectory, DiskTree.read, DiskTree.readDirectory,
    refused, bind, Except.bind]

/-- **Lookups cannot escape the root.** A path names no place exactly if it is relative and its normal form
starts with `..`; then nothing is found in memory or on a disk, and no operating system is asked. Any
other path names a place by names that lead down from wherever they start, one after the other. What is
found on a disk stands there, wherever the root of the disk is, and the path that an operating system is asked
for leads there from the root. -/
theorem lookups_stay_below_root (path : Text) :
    (Climbs path ∧ FileKey.ofPath path = none ∧
      (∀ tree, (FileSystem.ofTree tree).Lacks path ∧ ∀ root, (FileSystem.ofDisk root tree).Lacks path) ∧
      ∀ root, DiskTree.systemPath root path = .error (.notFound path)) ∨
    (¬ Climbs path ∧ ∃ key, FileKey.ofPath path = some key ∧ (∀ name ∈ key, ProperName name) ∧
      (∀ place depth, (key.take depth).foldl DiskTree.enter place = place ++ key.take depth) ∧
      (∀ root tree node, DiskTree.findPath root tree path = .ok node → DiskTree.nodeAt tree key = .ok node) ∧
      ∀ root, ∃ asked, DiskTree.systemPath root path = .ok asked ∧
        ∀ current, DiskTree.locate current asked = DiskTree.locate current root ++ key) := by
  cases place : FileKey.ofPath path with
  | none =>
    refine .inl ⟨FileKey.ofPath_eq_none_iff.mp place, rfl, fun tree => ?_, fun root => ?_⟩
    · exact ⟨FileSystem.lacks_ofTree place tree, fun root => FileSystem.lacks_ofDisk place root tree⟩
    · simp [DiskTree.systemPath, place]
  | some key =>
    have proper : ∀ name ∈ key, ProperName name := fun _ => FileKey.properName_of_ofPath place
    refine .inr ⟨fun climbs => ?_, key, rfl, proper, fun start depth => ?_,
      fun root tree node => DiskTree.nodeAt_of_findPath place, fun root => ?_⟩
    · simp [FileKey.ofPath_eq_none_iff.mpr climbs] at place
    · exact DiskTree.foldl_enter (fun name mem => proper name (List.mem_of_mem_take mem)) start
    · refine ⟨key.foldl DiskTree.joinPart root, by simp [DiskTree.systemPath, place], fun current => ?_⟩
      exact DiskTree.locate_foldl_joinPart proper current root

end ScriptHost

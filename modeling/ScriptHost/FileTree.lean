/-
A tree of files and directories held in memory. A path names a place by the components below the
root; a path that climbs above the root names none. Storing a file makes every directory above it.
The same tree also stands for a directory on disk, which takes names as they are spelled and is walked
name by name (`DiskTree`).
-/
import ScriptHost.Path
import ScriptHost.IoError

namespace ScriptHost

/-- A place below the root. The empty key is the root itself. -/
abbrev FileKey := List Text

/-- The place a path names, none if it climbs above the root. An absolute path may start with a
drive, which names no directory. -/
def FileKey.ofPath (path : Text) : Option FileKey :=
  let normal := Path.normalize path
  let names := (Path.split normal).filter fun name => !name.isEmpty && name ≠ Path.here
  let below := match names with
    | [] => []
    | first :: rest => if Path.isAbsolute normal && first.getLast? = some ':' then rest else names
  if Path.up ∈ below then none else some below

inductive FileNode where
  | file (contents : Bytes)
  | directory
  deriving DecidableEq, Repr

/-- Files with their contents, the latest first, and the directories. -/
structure FileTree where
  files : List (FileKey × Bytes)
  directories : List FileKey
  deriving DecidableEq, Repr

namespace FileTree

/-- Nothing but the root, which is always there. -/
def empty : FileTree :=
  ⟨[], []⟩

/-! ## Storing -/

/-- Every directory on the way to a key, the root first and the key itself left out. -/
def ancestors (key : FileKey) : List FileKey :=
  (List.range key.length).map fun depth => key.take depth

/-- Marks some places as directories. -/
def addDirectories (tree : FileTree) (keys : List FileKey) : FileTree :=
  { tree with directories := keys.foldl (fun dirs key => dirs.insert key) tree.directories }

/-- Puts contents under a key, in place of what was there. -/
def addFile (tree : FileTree) (key : FileKey) (contents : Bytes) : FileTree :=
  { tree with files := (key, contents) :: tree.files.filter fun entry => entry.1 ≠ key }

/-- Stores a file, with the directories above it. A path above the root changes nothing. -/
def insert (tree : FileTree) (path : Text) (contents : Bytes) : FileTree :=
  match FileKey.ofPath path with
  | none => tree
  | some key => (tree.addDirectories (ancestors key)).addFile key contents

/-- Stores an empty directory, with those above it. A path above the root changes nothing. -/
def insertDirectory (tree : FileTree) (path : Text) : FileTree :=
  match FileKey.ofPath path with
  | none => tree
  | some key => tree.addDirectories (ancestors key ++ [key])

/-- The tree of some files, stored in order, and then some directories. -/
def build (files : List (Text × Bytes)) (directories : List Text) : FileTree :=
  let stored := files.foldl (fun tree file => tree.insert file.1 file.2) empty
  directories.foldl insertDirectory stored

/-! ## Asking -/

def contents? (tree : FileTree) (key : FileKey) : Option Bytes :=
  tree.files.lookup key

def isFile (tree : FileTree) (path : Text) : Bool :=
  match FileKey.ofPath path with
  | none => false
  | some key => (tree.contents? key).isSome

/-- Whether a key is a directory. The root always is. -/
def hasDirectory (tree : FileTree) (key : FileKey) : Bool :=
  key.isEmpty || tree.directories.contains key

def isDirectory (tree : FileTree) (path : Text) : Bool :=
  match FileKey.ofPath path with
  | none => false
  | some key => tree.hasDirectory key

def read (tree : FileTree) (path : Text) : Except IoError Bytes :=
  match FileKey.ofPath path with
  | none => .error (.notFound path)
  | some key =>
    match tree.contents? key with
    | none => .error (.notFound path)
    | some contents => .ok contents

/-- The name under which an entry lies directly in a directory. -/
def nameIn (directory entry : FileKey) : Option Text :=
  if entry.length = directory.length + 1 ∧ directory.isPrefixOf entry then entry.getLast? else none

/-- The order of names, by code points: a name comes before the longer ones that start with it. -/
def nameLe : Text → Text → Bool
  | [], _ => true
  | _ :: _, [] => false
  | a :: as, b :: bs => a.toNat < b.toNat || (a == b && nameLe as bs)

/-- The names in a directory, each once and in order. -/
def names (tree : FileTree) (directory : FileKey) : List Text :=
  let entries := tree.files.map (·.1) ++ tree.directories
  (entries.filterMap (nameIn directory)).eraseDups.mergeSort nameLe

def readDirectory (tree : FileTree) (path : Text) : Except IoError (List Text) :=
  match FileKey.ofPath path with
  | none => .error (.notFound path)
  | some key => if tree.hasDirectory key then .ok (tree.names key) else .error (.notFound path)

end FileTree

/-! ## The tree as a directory on disk -/

namespace DiskTree

/-! ### Names -/

/-- The most bytes a name may take. -/
def longestName : Nat := 255

/-- Whether a name takes more bytes than a disk has room for. -/
def isTooLong (name : Text) : Bool :=
  longestName < (Utf8.encode name).length

/-- Whether a name has a zero character, where an operating system would see its end. -/
def hasZero (name : Text) : Bool :=
  name.contains '\x00'

/-! ### Storing

A disk takes names as they are spelled: one with a backslash is a name like any other, and so is a
drive. -/

/-- The places that names lead through, one after the other, with the one they start from. None if
they lead above the root. -/
def places (start : FileKey) : List Text → Option (List FileKey)
  | [] => some [start]
  | name :: rest =>
    if name ≠ Path.up then (places (start ++ [name]) rest).map (start :: ·)
    else if start.isEmpty then none
    else (places start.dropLast rest).map (start :: ·)

/-- The places that a path leads through from the root, the one it names last. None if it leads above
the root or has a name that no disk takes. -/
def placesOf (path : Text) : Option (List FileKey) :=
  let names := (path.splitOn '/').filter fun name => !name.isEmpty && name ≠ Path.here
  if names.any fun name => hasZero name || isTooLong name then none else places [] names

/-- Stores a file, with the directories on the way. Nothing can be stored below a file, and no file
in the place of a directory. -/
def insert (tree : FileTree) (path : Text) (contents : Bytes) : FileTree :=
  match placesOf path with
  | none => tree
  | some keys =>
    let key := keys.getLast?.getD []
    let way := keys.dropLast
    if way.any (fun above => (tree.contents? above).isSome) || tree.hasDirectory key then tree
    else (tree.addDirectories way).addFile key contents

/-- Stores an empty directory, with those on the way. Nothing can be stored below a file, and no
directory in the place of one. -/
def insertDirectory (tree : FileTree) (path : Text) : FileTree :=
  match placesOf path with
  | none => tree
  | some keys =>
    if keys.any fun key => (tree.contents? key).isSome then tree else tree.addDirectories keys

/-- The disk with some files, stored in order, and then some directories. -/
def build (files : List (Text × Bytes)) (directories : List Text) : FileTree :=
  let stored := files.foldl (fun tree file => insert tree file.1 file.2) FileTree.empty
  directories.foldl insertDirectory stored

/-! ### Asking -/

/-- The most bytes a path may take, the path of the root itself counted in. -/
def longestPath : Nat := 4095

/-- One more part behind a path, as an operating system joins them. A part that starts with a slash is a
path of its own, and no slash is put where there is one already. -/
def joinPart (path part : Text) : Text :=
  if part.head? = some '/' then part
  else if path = [] ∨ path.getLast? = some '/' then path ++ part
  else path ++ '/' :: part

/-- The path an operating system is asked for, when it knows the root under a path of its own. A path
above the root is refused. -/
def systemPath (root path : Text) : Except IoError Text :=
  match FileKey.ofPath path with
  | none => .error (.notFound path)
  | some key => .ok (key.foldl joinPart root)

def nodeAt (tree : FileTree) (place : FileKey) : Except IoErrorKind FileNode :=
  match tree.contents? place with
  | some contents => .ok (.file contents)
  | none => if tree.hasDirectory place then .ok .directory else .error .notFound

/-- What stands where names lead from a place, found one name at a time as an operating system does,
so the first name that fails decides: nothing lies below a file, and no name is too long. -/
def findFrom (tree : FileTree) (place : FileKey) : List Text → Except IoErrorKind FileNode
  | [] => nodeAt tree place
  | name :: rest => do
    match ← nodeAt tree place with
    | .file _ => .error .notADirectory
    | .directory =>
      if isTooLong name then .error .invalidFilename
      else findFrom tree (place ++ [name]) rest

/-- What stands at a key of a disk whose root is known under a path. One that is too long as a whole is not
walked at all. -/
def find (root : Text) (tree : FileTree) (key : FileKey) : Except IoErrorKind FileNode :=
  if longestPath < (Utf8.encode (key.foldl joinPart root)).length then .error .invalidFilename
  else findFrom tree [] key

/-- What stands at a path. A path above the root and a zero character are refused before the disk is
asked. -/
def findPath (root : Text) (tree : FileTree) (path : Text) : Except IoError FileNode :=
  match FileKey.ofPath path with
  | none => .error (.notFound path)
  | some key =>
    if key.any hasZero then .error .zeroInName
    else (find root tree key).mapError .system

def isFile (root : Text) (tree : FileTree) (path : Text) : Bool :=
  match findPath root tree path with
  | .ok (.file _) => true
  | _ => false

def isDirectory (root : Text) (tree : FileTree) (path : Text) : Bool :=
  match findPath root tree path with
  | .ok .directory => true
  | _ => false

def read (root : Text) (tree : FileTree) (path : Text) : Except IoError Bytes := do
  match ← findPath root tree path with
  | .file contents => .ok contents
  | .directory => .error (.system .isADirectory)

def readDirectory (root : Text) (tree : FileTree) (path : Text) : Except IoError (List Text) := do
  match ← findPath root tree path with
  | .directory => tree.readDirectory path
  | .file _ => .error (.system .notADirectory)

end DiskTree
end ScriptHost

/-
What navigation needs from a file system. Any functions will do; a tree supplies the usual ones.
-/
import ScriptHost.FileTree

namespace ScriptHost

/-- Read-only access to files, with the path arithmetic that goes with it. -/
structure FileSystem where
  isFile : Text → Bool
  isDirectory : Text → Bool
  read : Text → Except IoError Bytes
  readDirectory : Text → Except IoError (List Text)
  /-- What relative paths are resolved against. The empty text means the root. -/
  workingDirectory : Text
  join : List Text → Text
  normalize : Text → Text
  isAbsolute : Text → Bool

namespace FileSystem

/-- The usual path arithmetic, relative to the root. -/
def UsualPaths (fs : FileSystem) : Prop :=
  fs.join = Path.join ∧ fs.normalize = Path.normalize ∧ fs.isAbsolute = Path.isAbsolute

/-- The usual path arithmetic, relative to the root or to an absolute path. -/
structure Conventional (fs : FileSystem) : Prop where
  usual : fs.UsualPaths
  directory : fs.workingDirectory = [] ∨ Path.isAbsolute fs.workingDirectory = true

def ofTree (tree : FileTree) : FileSystem where
  isFile := tree.isFile
  isDirectory := tree.isDirectory
  read := tree.read
  readDirectory := tree.readDirectory
  workingDirectory := []
  join := Path.join
  normalize := Path.normalize
  isAbsolute := Path.isAbsolute

/-- A disk whose root an operating system knows under a path. -/
def ofDisk (root : Text) (tree : FileTree) : FileSystem :=
  { ofTree tree with
    isFile := DiskTree.isFile root tree
    isDirectory := DiskTree.isDirectory root tree
    read := DiskTree.read root tree
    readDirectory := DiskTree.readDirectory root tree }

/-- The same files, with relative paths resolved against another directory. -/
def within (fs : FileSystem) (directory : Text) : FileSystem :=
  { fs with workingDirectory := directory }

/-- The same files, with paths taken as they are spelled. -/
def asSpelled (fs : FileSystem) : FileSystem :=
  { fs with normalize := id }

/-- The same files, with no directory anywhere. -/
def flat (fs : FileSystem) : FileSystem :=
  { fs with isDirectory := fun _ => false }

theorem usualPaths_ofTree (tree : FileTree) : (ofTree tree).UsualPaths := ⟨rfl, rfl, rfl⟩

theorem conventional_ofTree (tree : FileTree) : (ofTree tree).Conventional :=
  ⟨usualPaths_ofTree tree, .inl rfl⟩

theorem usualPaths_ofDisk (root : Text) (tree : FileTree) : (ofDisk root tree).UsualPaths := ⟨rfl, rfl, rfl⟩

end FileSystem
end ScriptHost

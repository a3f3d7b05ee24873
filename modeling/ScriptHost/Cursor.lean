/-
A cursor over a file system that stands on the module being resolved. It keeps two spellings of
its place, as it was reached and from the root, each with the file it resolved to. A move first
makes out where it would land and resolves both spellings; only then does the cursor go there.
-/
import ScriptHost.FileSystem
import ScriptHost.Navigation
import ScriptHost.Text.Quoted

namespace ScriptHost

/-- Where a cursor stands. -/
structure Cursor where
  /-- The module as it was reached. -/
  modulePath : Text
  /-- The module from the root, without its drive. -/
  absoluteModulePath : Text
  /-- The file or directory the module resolved to. -/
  filePath : Text
  /-- The same from the root, with its drive. -/
  absoluteFilePath : Text
  /-- What stands before the first slash of an absolute path. -/
  drive : Text
  deriving DecidableEq, Repr

namespace Cursor

def root : Text := ['/']

/-- A cursor that has not moved yet stands at the root. -/
def start : Cursor :=
  ⟨root, root, root, root, []⟩

/-- Where code stands that came from no file. -/
def stdin : Cursor :=
  ⟨"./stdin".toList, "/stdin".toList, "./stdin".toList, "/stdin".toList, []⟩

/-! ## Modules and files -/

def suffixes : List Text :=
  [".luau".toList, ".lua".toList]

/-- The endings of the file that stands for its directory. -/
def initSuffixes : List Text :=
  ["/init.luau".toList, "/init.lua".toList]

def stripSuffix? (path ending : Text) : Option Text :=
  if ending.isSuffixOf path then some (path.take (path.length - ending.length)) else none

/-- The module a file path stands for: exactly one ending goes, and the longer ones first. -/
def stripModuleSuffix (path : Text) : Text :=
  ((initSuffixes ++ suffixes).findSome? (stripSuffix? path)).getD path

def lastComponent (path : Text) : Text :=
  (path.reverse.takeWhile (· ≠ '/')).reverse

def trimSlashes (path : Text) : Text :=
  (path.reverse.dropWhile (· = '/')).reverse

/-- What stands before the first slash, empty if there is none. -/
def driveOf (path : Text) : Text :=
  if '/' ∈ path then path.takeWhile (· ≠ '/') else []

/-- The files among `base` with each of the endings. -/
def candidates (fs : FileSystem) (base : Text) (endings : List Text) : List Text :=
  (endings.map (base ++ ·)).filter fs.isFile

/-- The file or directory of a module. A module is a file with one of the endings or a directory,
not both. A directory stands for the `init` file in it, or for itself when there is none. The name
`init` alone names no file. -/
def realPath (fs : FileSystem) (modulePath : Text) : Except NavigateError Text :=
  let files :=
    if lastComponent modulePath = "init".toList then [] else candidates fs modulePath suffixes
  match files with
  | [] =>
    if fs.isDirectory modulePath then
      match candidates fs (trimSlashes modulePath) initSuffixes with
      | [] => .ok modulePath
      | [init] => .ok init
      | _ => .error .ambiguous
    else .error .notFound
  | [file] => if fs.isDirectory modulePath then .error .ambiguous else .ok file
  | _ => .error .ambiguous

/-- A file path with slashes only, and the module path it stands for: without its drive and without
one ending. -/
def splitFilePath (fs : FileSystem) (filePath : Text) : Text × Text :=
  let path := filePath.map fun c => if c = '\\' then '/' else c
  let view := if fs.isAbsolute path && path.contains '/' then path.dropWhile (· ≠ '/') else path
  let module := stripModuleSuffix view
  (path, if module = Path.here then [] else module)

/-! ## Moves -/

/-- A place to move to: both spellings and the drive. -/
structure Target where
  modulePath : Text
  absoluteModulePath : Text
  drive : Text
  deriving DecidableEq, Repr

/-- Resolves both spellings. If both fail, the first failure counts. -/
def land (fs : FileSystem) (t : Target) : Except NavigateError Cursor := do
  let file ← realPath fs t.modulePath
  let absoluteFile ← realPath fs t.absoluteModulePath
  return {
    modulePath := t.modulePath
    absoluteModulePath := t.absoluteModulePath
    filePath := if fs.isAbsolute file then t.drive ++ file else file
    absoluteFilePath := t.drive ++ absoluteFile
    drive := t.drive }

/-- The root, where a module path is empty. -/
def orRoot (modulePath : Text) : Text :=
  if modulePath.isEmpty then root else modulePath

/-- Where a file path leads, wherever the cursor stands. A relative one is joined to the working
directory for its spelling from the root. -/
def pathTarget (fs : FileSystem) (path : Text) : Target :=
  let normal := fs.normalize path
  let (file, module) := splitFilePath fs normal
  if fs.isAbsolute normal then ⟨orRoot module, orRoot module, driveOf file⟩
  else
    let (joined, absoluteModule) :=
      splitFilePath fs (fs.normalize (fs.join [fs.workingDirectory, file]))
    ⟨orRoot module, orRoot absoluteModule, driveOf joined⟩

def stepTarget (fs : FileSystem) (c : Cursor) (component : Text) : Target where
  modulePath := fs.normalize (fs.join [c.modulePath, component])
  absoluteModulePath := fs.normalize (fs.join [c.absoluteModulePath, component])
  drive := c.drive

/-- Where the parent is. Above the root stands the empty module path, and nothing above that. -/
def parentTarget (fs : FileSystem) (c : Cursor) : Except NavigateError Target :=
  let path := c.absoluteModulePath
  if path.isEmpty then .error .notFound
  else if path = root then .ok ⟨[], [], c.drive⟩
  else match path.count '/' with
    | 0 =>
      let shown := String.ofList (Text.quoted path)
      .error (.other ("module path " ++ shown ++ " has no parent"))
    | 1 => .ok ⟨[], [], c.drive⟩
    | _ => .ok (stepTarget fs c Path.up)

inductive Move where
  | stdin
  | path (path : Text)
  | parent
  | child (name : Text)
  deriving DecidableEq, Repr

def destination (fs : FileSystem) (c : Cursor) : Move → Except NavigateError Cursor
  | .stdin => .ok stdin
  | .path path => land fs (pathTarget fs path)
  | .parent => do land fs (← parentTarget fs c)
  | .child name => land fs (stepTarget fs c name)

/-- Makes a move. One that fails leaves the cursor where it was. -/
def move (fs : FileSystem) (c : Cursor) (m : Move) : NavigationResult × Cursor :=
  match destination fs c m with
  | .ok c' => (.ok (), c')
  | .error e => (.error e, c)

/-- Where the configuration file of the current module would lie. -/
def configPath (fs : FileSystem) (c : Cursor) : Text :=
  fs.join [stripModuleSuffix c.filePath, ".luaurc".toList]

end Cursor
end ScriptHost

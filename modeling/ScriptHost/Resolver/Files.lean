/-
The resolver over a file system. A cursor walks it; the module is the file under the cursor, and its
cache key is a fixed beginning and the path of the file from the root.
-/
import ScriptHost.Resolver.Basic
import ScriptHost.Cursor
import ScriptHost.Settings

namespace ScriptHost

/-- What a resolver over files was made with. -/
structure FileResolver where
  files : FileSystem
  settings : Settings
  /-- The environment of loaded modules, the globals if there is none. -/
  environment : Option HandleId := none

namespace FileResolver

/-- The chunk name of code that was typed in. -/
def typedIn : Text := "=repl".toList

def cacheKey (r : FileResolver) (c : Cursor) : Text :=
  r.settings.cachePrefix ++ '@' :: c.absoluteFilePath

/-- The move that stands on a chunk. -/
def moveTo (chunkName : Text) : Cursor.Move :=
  if chunkName = typedIn then .stdin else .path chunkName

/-- What is reported of an operation. -/
def reports (r : FileResolver) (c : Cursor) : Operation → List LogEvent
  | .isAllowed _ | .cacheKey => []
  | .reset name => [.resolving "resetting require" [("chunk_name", name)]]
  | .jumpToAlias path => [.resolving "jumping to alias" [("path", path)]]
  | .toParent => [.resolving "navigating to parent" [("from", c.modulePath)]]
  | .toChild name => [.resolving "navigating to child" [("from", c.modulePath), ("name", name)]]
  | .hasModule => [.resolving "checking for module" [("path", c.filePath)]]
  | .hasConfig => [.resolving "checking for config" [("path", c.configPath r.files)]]
  | .config => [.resolving "reading config" [("path", c.configPath r.files)]]
  | .load _ => [.resolving "loading module" [("chunk_name", c.absoluteFilePath)]]

def move (r : FileResolver) (m : Cursor.Move) (s : Scene Cursor) :
    Outcome NavigationResult × Scene Cursor :=
  let (result, cursor) := s.own.move r.files m
  (.returned result, { s with own := cursor })

def load (r : FileResolver) (loader : ChunkLoader) (s : Scene Cursor) :
    Outcome (Except Error HandleId) × Scene Cursor :=
  let name := s.own.absoluteFilePath
  match r.files.read name with
  | .error e => (.returned (.error (.io e)), s)
  | .ok code =>
    let chunk : Chunk := { name := String.ofList name, code, environment := r.environment }
    let (outcome, host) := loader.load chunk s.host
    (outcome, { s with host })

/-- What an operation does, reports aside. An alias has to lead to an absolute path. -/
def perform (r : FileResolver) : Resolver Cursor
  | .isAllowed _, s => (.returned true, s)
  | .reset name, s => r.move (moveTo name) s
  | .jumpToAlias path, s =>
    if r.files.isAbsolute path then r.move (.path path) s
    else (.returned (.error .notFound), s)
  | .toParent, s => r.move .parent s
  | .toChild name, s => r.move (.child name) s
  | .hasModule, s => (.returned (r.files.isFile s.own.filePath), s)
  | .cacheKey, s => (.returned (r.cacheKey s.own), s)
  | .hasConfig, s => (.returned (r.files.isFile (s.own.configPath r.files)), s)
  | .config, s => (.returned (r.files.read (s.own.configPath r.files)), s)
  | .load loader, s => r.load loader s

/-- The resolver. It reports each operation if the settings ask for it. -/
def resolver (r : FileResolver) : Resolver Cursor := fun op s =>
  r.perform op (if r.settings.debug then s.report (r.reports s.own op) else s)

end FileResolver
end ScriptHost

/-
The module that a resolver over a tree says there is is the module that it loads.
-/
import ScriptHost.Proofs.Resolver.Runs
import ScriptHost.Proofs.Cursor.Agreement

namespace ScriptHost.FileResolver

/-- A resolver over the tree of some storings. -/
def overTree (storings : List Storing) (settings : Settings) (environment : Option HandleId) :
    FileResolver :=
  ⟨.ofTree (.ofStorings storings), settings, environment⟩

/-- After any operations, a resolver over a tree stands on a place whose two spellings agree. -/
theorem standing_after {storings : List Storing}
    (plain : ∀ storing ∈ storings, ∀ key ∈ FileKey.ofPath storing.path, key.Plain)
    (settings : Settings) (environment : Option HandleId) (ops : List Operation) (host : HostState)
    (log : List LogEvent) :
    Cursor.Standing (.ofStorings storings)
      ((overTree storings settings environment).resolver.after ops ⟨.start, host, log⟩).own :=
  own_after_keeps (Cursor.Standing.start _) fun _ _ m _ _ standing =>
    standing.move (FileTree.filesAmong_ofStorings plain) m

/-- **The module that is there is the module that is loaded.** Over a tree whose files and directories
have plain names, after any operations: if the resolver says that there is a module, then the path from
the root names the very file that it saw, and a loader is given the contents of this file under that
path. -/
theorem load_of_hasModule {storings : List Storing}
    (plain : ∀ storing ∈ storings, ∀ key ∈ FileKey.ofPath storing.path, key.Plain)
    (settings : Settings) (environment : Option HandleId) (ops : List Operation) (host : HostState)
    (log : List LogEvent) :
    let r := overTree storings settings environment
    let s := r.resolver.after ops ⟨.start, host, log⟩
    (r.resolver .hasModule s).1 = .returned true →
      ∃ key contents, FileKey.ofPath s.own.filePath = some key ∧
        FileKey.ofPath s.own.absoluteFilePath = some key ∧
        (FileTree.ofStorings storings).contents? key = some contents ∧
        r.files.read s.own.absoluteFilePath = .ok contents ∧
        ∀ loader : ChunkLoader,
          let chunk : Chunk :=
            { name := String.ofList s.own.absoluteFilePath, code := contents, environment }
          (r.resolver (.load loader) s).1 = (loader.load chunk s.host).1 ∧
            (r.resolver (.load loader) s).2.host = (loader.load chunk s.host).2 := by
  intro r s has
  have standing : Cursor.Standing _ s.own := standing_after plain settings environment ops host log
  have isFile : (FileTree.ofStorings storings).isFile s.own.filePath = true :=
    Outcome.returned.inj ((r.resolver_hasModule s).symm.trans has)
  obtain ⟨key, contents, place, found⟩ := FileTree.isFile_iff.mp isFile
  have place' : FileKey.ofPath s.own.absoluteFilePath = some key :=
    (standing.agrees isFile).trans place
  have read : r.files.read s.own.absoluteFilePath = .ok contents :=
    FileTree.read_of_contents? place' found
  exact ⟨key, contents, place, place', found, read, fun loader => resolver_load read loader⟩

/-- A walk to the `init` file of a directory beside the main file. -/
theorem load_of_walk_to_init :
    let storings : List Storing :=
      [.file "app/main.luau".toList [], .file "app/lib/init.luau".toList [49]]
    let r := overTree storings {} none
    let ops : List Operation := [.reset "app/main.luau".toList, .toParent, .toChild "lib".toList]
    let s := r.resolver.after ops ⟨.start, {}, []⟩
    (r.resolver .hasModule s).1 = .returned true ∧
      ∃ key contents, FileKey.ofPath s.own.filePath = some key ∧
        FileKey.ofPath s.own.absoluteFilePath = some key ∧
        (FileTree.ofStorings storings).contents? key = some contents ∧
        r.files.read s.own.absoluteFilePath = .ok contents ∧
        ∀ loader : ChunkLoader,
          let chunk : Chunk :=
            { name := String.ofList s.own.absoluteFilePath, code := contents, environment := none }
          (r.resolver (.load loader) s).1 = (loader.load chunk s.host).1 ∧
            (r.resolver (.load loader) s).2.host = (loader.load chunk s.host).2 := by
  refine ⟨?has, load_of_hasModule ?plain {} none _ {} [] ?has⟩
  case plain => decide +kernel
  case has =>
    rw [resolver_hasModule]
    refine congrArg Outcome.returned ?_
    show (_ : Bool) = true
    decide +kernel

end ScriptHost.FileResolver

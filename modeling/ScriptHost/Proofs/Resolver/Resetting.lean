/-
A chunk is its own place. Reset to the path of a module file, a resolver over a tree stands on this file and
loads it, or the path is ambiguous.
-/
import ScriptHost.Proofs.Cursor.OwnFile
import ScriptHost.Proofs.Resolver.Module

namespace ScriptHost.FileResolver

open ScriptHost.Path

/-- What a resolver answers where it stands on a file: that there is a module, and what a loader makes of the
contents of this file under its path. -/
structure Offers (r : FileResolver) (s : Scene Cursor) (path : Text) (contents : Bytes) : Prop where
  module : (r.resolver .hasModule s).1 = .returned true
  loaded : ∀ loader : ChunkLoader,
    let chunk : Chunk := { name := String.ofList path, code := contents, environment := r.environment }
    (r.resolver (.load loader) s).1 = (loader.load chunk s.host).1 ∧
      (r.resolver (.load loader) s).2.host = (loader.load chunk s.host).2

/-- Typed in code comes from no absolute path. -/
theorem ne_typedIn_of_isAbsolute {path : Text} (absolute : isAbsolute path = true) : path ≠ typedIn := by
  rintro rfl
  cases absolute

/-- Where its two spellings name a file, a resolver offers it. -/
theorem Offers.of_read {r : FileResolver} {s : Scene Cursor} {path : Text} {contents : Bytes}
    (file : s.own.filePath = path) (absoluteFile : s.own.absoluteFilePath = path)
    (isFile : r.files.isFile path = true) (read : r.files.read path = .ok contents) :
    r.Offers s path contents := by
  subst file
  refine ⟨(r.resolver_hasModule s).trans (by rw [isFile]), fun loader => ?_⟩
  rw [← absoluteFile] at read ⊢
  exact resolver_load read loader

/-- **A chunk resets onto itself.** Over the tree of any storings, take an absolute path of a file, with no
colon but that of a drive letter, whose normal form has a module ending. From anywhere, a move to this path
is refused as ambiguous, and then more than one thing stands for its module path, or the cursor gets to the
file and spells it both ways as the normal form. So does a reset of a resolver, which then says that there is
a module and loads the contents of the file. -/
theorem reset_onto_itself (storings : List Storing) (settings : Settings)
    (environment : Option HandleId) {path : Text} (absolute : isAbsolute path = true)
    (colons : ColonsInDrive path) (isFile : (FileTree.ofStorings storings).isFile path = true)
    (ends : ∃ ending ∈ Cursor.suffixes, ending <:+ normalize path) :
    let tree : FileTree := .ofStorings storings
    let r := overTree storings settings environment
    let modulePath := (Cursor.pathTarget (.ofTree tree) path).modulePath
    (∀ c : Cursor,
      (Cursor.Contested tree modulePath ∧
        c.move (.ofTree tree) (.path path) = (.error .ambiguous, c)) ∨
      (¬ Cursor.Contested tree modulePath ∧ ∃ c', c.move (.ofTree tree) (.path path) = (.ok (), c') ∧
        c'.filePath = normalize path ∧ c'.absoluteFilePath = normalize path)) ∧
    ∀ s : Scene Cursor, ∃ s',
      (r.walk s (.reset path) = (.returned (.error .ambiguous), s') ∧ s'.own = s.own) ∨
      (r.walk s (.reset path) = (.returned (.ok ()), s') ∧ s'.own.filePath = normalize path ∧
        s'.own.absoluteFilePath = normalize path ∧
        ∃ contents, tree.read path = .ok contents ∧ r.Offers s' (normalize path) contents) := by
  intro tree r modulePath
  have moves := Cursor.move_to_file absolute colons ends isFile (FileTree.waysLead_ofStorings storings)
  refine ⟨moves, fun s => ?_⟩
  have isReset : (FileResolver.Walk.reset path).move = .path path :=
    Walk.move_reset (ne_typedIn_of_isAbsolute absolute)
  obtain ⟨answer, own, -⟩ := walk_of_allowed (r := r) (w := .reset path) nofun s
  rw [isReset, show r.files = .ofTree tree from rfl] at answer own
  generalize r.walk s (.reset path) = asked at answer own ⊢
  obtain ⟨outcome, s'⟩ := asked
  obtain rfl : outcome = _ := answer
  rcases moves s.own with ⟨-, refused⟩ | ⟨-, c, reached, file, absoluteFile⟩
  · rw [refused] at own ⊢
    exact ⟨s', .inl ⟨rfl, own⟩⟩
  · rw [reached] at own ⊢
    obtain rfl : s'.own = c := own
    obtain ⟨key, contents, place, found⟩ := FileTree.isFile_iff.mp isFile
    have normal : FileKey.ofPath (normalize path) = some key := (FileKey.ofPath_normalize path).trans place
    exact ⟨s', .inr ⟨rfl, file, absoluteFile, contents, FileTree.read_of_contents? place found,
      .of_read file absoluteFile (FileTree.isFile_iff.mpr ⟨key, contents, normal, found⟩)
        (FileTree.read_of_contents? normal found)⟩⟩

/-- A file with two module endings, spelled with a drive and a detour, beside a file of its stem. -/
theorem reset_onto_itself_of_two_endings :
    let storings : List Storing := [.file "/lib/x.luau".toList [49], .file "/lib/x.lua.luau".toList [50]]
    let r := overTree storings {} none
    let path := "C:\\lib\\y\\../x.lua.luau".toList
    let file := "C:/lib/x.lua.luau".toList
    isAbsolute path = true ∧ ColonsInDrive path ∧ (FileTree.ofStorings storings).isFile path = true ∧
      (∃ ending ∈ Cursor.suffixes, ending <:+ normalize path) ∧
      ∃ s, r.walk ⟨.start, {}, []⟩ (.reset path) = (.returned (.ok ()), s) ∧
        s.own.filePath = file ∧ s.own.absoluteFilePath = file ∧ r.Offers s file [50] := by
  intro storings r path file
  have absolute : isAbsolute path = true := by decide
  have colons : ColonsInDrive path := by decide
  have isFile : (FileTree.ofStorings storings).isFile path = true := by decide +kernel
  have normal : normalize path = file := by decide +kernel
  have ends : ∃ ending ∈ Cursor.suffixes, ending <:+ normalize path := by
    rw [normal]
    exact ⟨".luau".toList, by decide, by decide⟩
  have stored : (FileTree.ofStorings storings).read path = .ok [50] := by decide +kernel
  have allowed : (r.walk ⟨.start, {}, []⟩ (.reset path)).1 ≠ .returned (.error .ambiguous) := by
    decide +kernel
  obtain ⟨-, resets⟩ := reset_onto_itself storings {} none absolute colons isFile ends
  obtain ⟨s, ⟨refused, -⟩ | ⟨gone, spelled, spelled', contents, read, offers⟩⟩ := resets ⟨.start, {}, []⟩
  · exact absurd (congrArg Prod.fst refused) allowed
  · cases read.symm.trans stored
    rw [normal] at spelled spelled' offers
    exact ⟨absolute, colons, isFile, ends, s, gone, spelled, spelled', offers⟩

end ScriptHost.FileResolver

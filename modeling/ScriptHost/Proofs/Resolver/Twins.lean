/-
A resolver that is reset to a path below the root and one that is reset to the same path from the root.
They walk alike from then on and answer alike wherever they get to: the files they see are the same
files, and the module they load is the same chunk. The name of typed in code is the one path for which
this fails, since a reset to it goes to no file.
-/
import ScriptHost.Proofs.Resolver.Module
import ScriptHost.Proofs.Cursor.Twins

namespace ScriptHost.FileResolver

open ScriptHost.Path

/-! ## Alike answers -/

/-- What two resolvers answer that stand on one place. A configuration file that neither has may be
missing under two spellings. -/
structure AnswerAlike (r : FileResolver) (s t : Scene Cursor) : Prop where
  hasModule : (r.resolver .hasModule s).1 = (r.resolver .hasModule t).1
  hasConfig : (r.resolver .hasConfig s).1 = (r.resolver .hasConfig t).1
  config : (r.resolver .config s).1 = (r.resolver .config t).1 ∨
    ∃ path path', (r.resolver .config s).1 = .returned (.error (.notFound path)) ∧
      (r.resolver .config t).1 = .returned (.error (.notFound path'))
  cacheKey : (r.resolver .cacheKey s).1 = (r.resolver .cacheKey t).1
  load : ∀ loader, (r.resolver (.load loader) s).1 = (r.resolver (.load loader) t).1 ∧
    (r.resolver (.load loader) s).2.host = (r.resolver (.load loader) t).2.host

/-- A walk over plain names, and up again. -/
def Walk.Plain : Walk → Prop
  | toChild name => Path.Plain name
  | toParent => True
  | reset _ | jumpToAlias _ => False

section

variable {tree : FileTree} {settings : Settings} {environment : Option HandleId}

/-- Paths that name one place are read alike. -/
theorem read_congr {p q : Text} (same : FileKey.ofPath p = FileKey.ofPath q) :
    tree.read p = tree.read q ∨
      ∃ path path', tree.read p = .error (.notFound path) ∧ tree.read q = .error (.notFound path') := by
  unfold FileTree.read
  rw [same]
  cases FileKey.ofPath q with
  | none => exact .inr ⟨p, q, rfl, rfl⟩
  | some key =>
    simp only
    cases tree.contents? key with
    | none => exact .inr ⟨p, q, rfl, rfl⟩
    | some contents => exact .inl rfl

theorem answerAlike_of_alike {s t : Scene Cursor} (alike : Cursor.Alike s.own t.own)
    (host : s.host = t.host) : AnswerAlike ⟨.ofTree tree, settings, environment⟩ s t where
  hasModule := by
    rw [resolver_hasModule, resolver_hasModule]
    exact congrArg Outcome.returned (tree.isFile_congr alike.ofPath_filePath)
  hasConfig := by
    rw [resolver_hasConfig, resolver_hasConfig]
    exact congrArg Outcome.returned (tree.isFile_congr (alike.ofPath_configPath tree))
  config := by
    rw [resolver_config, resolver_config]
    rcases read_congr (alike.ofPath_configPath tree) with same | ⟨path, path', missing, missing'⟩
    · exact .inl (congrArg Outcome.returned same)
    · exact .inr ⟨path, path', congrArg Outcome.returned missing, congrArg Outcome.returned missing'⟩
  cacheKey := by
    rw [resolver_cacheKey, resolver_cacheKey, FileResolver.cacheKey, alike.absoluteFilePath]
    rfl
  load loader := resolver_load_congr _ loader alike.absoluteFilePath host

/-! ## Alike walks -/

/-- Walks of two resolvers that lead them to one place. -/
theorem walk_alike {r : FileResolver} {s t : Scene Cursor} (alike : Cursor.Alike s.own t.own)
    (host : s.host = t.host) {w w' : Walk} (allowed : w.Allowed r) (allowed' : w'.Allowed r)
    (ends : Cursor.EndAlike (s.own.destination r.files w.move) (t.own.destination r.files w'.move)) :
    (r.walk s w).1 = (r.walk t w').1 ∧ Cursor.Alike (r.walk s w).2.own (r.walk t w').2.own ∧
      (r.walk s w).2.host = (r.walk t w').2.host := by
  obtain ⟨answer, own, kept⟩ := walk_of_allowed allowed s
  obtain ⟨answer', own', kept'⟩ := walk_of_allowed allowed' t
  obtain ⟨result, moved⟩ := alike.move ends
  rw [answer, answer', own, own', kept, kept', result]
  exact ⟨rfl, moved, host⟩

/-- Resolvers on one place stay on one place whatever plain names they walk. -/
theorem walks_alike {ws : List Walk} (plain : ∀ w ∈ ws, w.Plain) {s t : Scene Cursor}
    (alike : Cursor.Alike s.own t.own) (host : s.host = t.host) :
    let r : FileResolver := ⟨.ofTree tree, settings, environment⟩
    (r.walks ws s).1 = (r.walks ws t).1 ∧
      Cursor.Alike (r.walks ws s).2.own (r.walks ws t).2.own ∧
      (r.walks ws s).2.host = (r.walks ws t).2.host := by
  intro r
  induction ws generalizing s t with
  | nil => exact ⟨rfl, alike, host⟩
  | cons w ws ih =>
    have step : (r.walk s w).1 = (r.walk t w).1 ∧
        Cursor.Alike (r.walk s w).2.own (r.walk t w).2.own ∧
        (r.walk s w).2.host = (r.walk t w).2.host := by
      have named : w.Plain := plain w List.mem_cons_self
      cases w with
      | reset | jumpToAlias => exact named.elim
      | toParent => exact walk_alike alike host nofun nofun (alike.parent tree)
      | toChild name => exact walk_alike alike host nofun nofun (alike.child tree named)
    obtain ⟨answer, alike', host'⟩ := step
    obtain ⟨answers, later⟩ := ih (fun w mem => plain w (List.mem_cons_of_mem _ mem)) alike' host'
    exact ⟨by rw [walks, walks, answer, answers], later⟩

/-- **Two spellings of a path are walked alike.** Over any tree, a resolver that is reset to some plain
names below the root and one with the same settings that is reset to them from the root, but for the name
of typed in code: whatever plain names they walk down, and however often they walk up between, every
walk of the one ends as that of the other, and both answer alike wherever they have got to. -/
theorem reset_below_root_alike (tree : FileTree) (settings : Settings)
    (environment : Option HandleId) {parts : List Text} (plain : ∀ name ∈ parts, Path.Plain name)
    (isFile : join parts ≠ typedIn) {ws : List Walk} (further : ∀ w ∈ ws, w.Plain)
    (host : HostState) (log : List LogEvent) :
    let r : FileResolver := ⟨.ofTree tree, settings, environment⟩
    let below := r.walks (.reset (join parts) :: ws) ⟨.start, host, log⟩
    let rooted := r.walks (.reset ('/' :: join parts) :: ws) ⟨.start, host, log⟩
    below.1 = rooted.1 ∧ AnswerAlike r below.2 rooted.2 := by
  intro r below rooted
  have isFile' : '/' :: join parts ≠ typedIn := by simp [typedIn]
  have ends : Cursor.EndAlike (Cursor.start.destination r.files (Walk.reset (join parts)).move)
      (Cursor.start.destination r.files (Walk.reset ('/' :: join parts)).move) := by
    rw [Walk.move_reset isFile, Walk.move_reset isFile']
    exact .path tree plain .start .start
  have together : Cursor.Alike (⟨.start, host, log⟩ : Scene Cursor).own
      (⟨.start, host, log⟩ : Scene Cursor).own := .same _
  have allowed : ∀ name, (Walk.reset name).Allowed r := fun _ => nofun
  obtain ⟨answer, alike, kept⟩ := walk_alike together rfl (allowed _) (allowed _) ends
  obtain ⟨answers, alike', kept'⟩ := walks_alike further alike kept
  refine ⟨?_, answerAlike_of_alike alike' kept'⟩
  show _ :: _ = _ :: _
  rw [answer]
  exact congrArg _ answers

/-- A walk past an `init` file, up to the root and on. -/
theorem reset_below_root_alike_of_app :
    let tree : FileTree := .ofStorings [.file "app/lib/init.luau".toList [], .file "x.luau".toList []]
    let r : FileResolver := ⟨.ofTree tree, {}, none⟩
    let ws : List Walk := [.toParent, .toParent, .toChild "x".toList]
    let below := r.walks (.reset "app/lib".toList :: ws) ⟨.start, {}, []⟩
    let rooted := r.walks (.reset "/app/lib".toList :: ws) ⟨.start, {}, []⟩
    below.1 = rooted.1 ∧ AnswerAlike r below.2 rooted.2 := by
  have further : ∀ w ∈ [Walk.toParent, .toParent, .toChild "x".toList], w.Plain := by
    intro w mem
    simp only [List.mem_cons, List.not_mem_nil, or_false] at mem
    rcases mem with rfl | rfl | rfl
    · trivial
    · trivial
    · exact ⟨by decide, by decide, by decide⟩
  have plain : ∀ name ∈ ["app".toList, "lib".toList], Path.Plain name := by
    intro name mem
    simp only [List.mem_cons, List.not_mem_nil, or_false] at mem
    rcases mem with rfl | rfl
    · exact ⟨by decide, by decide, by decide⟩
    · exact ⟨by decide, by decide, by decide⟩
  exact reset_below_root_alike _ {} none plain (by decide) further {} []

/-- The name of typed in code is a plain name as well. Below the root a reset to it succeeds whatever
files there are; from the root it looks for a file. -/
theorem reset_typedIn_not_alike :
    let r : FileResolver := ⟨.ofTree .empty, {}, none⟩
    Path.Plain typedIn ∧
      ¬ (r.walks [.reset (join [typedIn])] ⟨.start, {}, []⟩).1 =
        (r.walks [.reset ('/' :: join [typedIn])] ⟨.start, {}, []⟩).1 := by
  refine ⟨⟨by decide, by decide, by decide⟩, ?_⟩
  decide +kernel

end

end ScriptHost.FileResolver

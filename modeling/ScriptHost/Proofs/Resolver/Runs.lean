/-
Operations one after the other. What every operation keeps, a run keeps; of a resolver over files an
operation changes no more than a move of its cursor.
-/
import ScriptHost.Resolver.Files

namespace ScriptHost

namespace Resolver

variable {σ : Type}

/-- The scene after some operations were asked one after the other. -/
def after (r : Resolver σ) (ops : List Operation) (s : Scene σ) : Scene σ :=
  ops.foldl (fun s op => (r op s).2) s

/-- What every operation of a run keeps is kept by the run. -/
theorem after_keeps {r : Resolver σ} {kept : Scene σ → Prop} {ops : List Operation} {s : Scene σ}
    (start : kept s) (step : ∀ op ∈ ops, ∀ s, kept s → kept (r op s).2) : kept (r.after ops s) := by
  induction ops generalizing s with
  | nil => exact start
  | cons op ops ih =>
    exact ih (step op (by simp) s start) fun later mem => step later (by simp [mem])

end Resolver

namespace FileResolver

/-- A resolver only reports before it does what it is asked. -/
theorem exists_perform (r : FileResolver) (op : Operation) (s : Scene Cursor) :
    ∃ t : Scene Cursor, t.own = s.own ∧ t.host = s.host ∧ r.resolver op s = r.perform op t := by
  unfold resolver
  split
  · exact ⟨s.report (r.reports s.own op), rfl, rfl, rfl⟩
  · exact ⟨s, rfl, rfl, rfl⟩

/-- The moves that an operation may make. -/
inductive Moves : Operation → Cursor.Move → Prop
  | reset (name : Text) : Moves (.reset name) (moveTo name)
  | jumpToAlias (path : Text) : Moves (.jumpToAlias path) (.path path)
  | toParent : Moves .toParent .parent
  | toChild (name : Text) : Moves (.toChild name) (.child name)

/-- The cursor stays where it is, or it makes a move of the operation. -/
theorem own_resolver (r : FileResolver) (op : Operation) (s : Scene Cursor) :
    (r.resolver op s).2.own = s.own ∨
      ∃ m, Moves op m ∧ (r.resolver op s).2.own = (s.own.move r.files m).2 := by
  have reported : ∀ t : Scene Cursor, t.own = s.own → (r.perform op t).2.own = s.own ∨
      ∃ m, Moves op m ∧ (r.perform op t).2.own = (s.own.move r.files m).2 := by
    rintro t same
    cases op with
    | isAllowed | hasModule | cacheKey | hasConfig | config => exact .inl same
    | reset name => exact .inr ⟨_, .reset name, by rw [← same]; rfl⟩
    | jumpToAlias path =>
      cases absolute : r.files.isAbsolute path with
      | true =>
        simp only [perform, absolute]
        exact .inr ⟨_, .jumpToAlias path, by rw [← same]; rfl⟩
      | false =>
        simp only [perform, absolute, Bool.false_eq_true]
        exact .inl same
    | toParent => exact .inr ⟨_, .toParent, by rw [← same]; rfl⟩
    | toChild name => exact .inr ⟨_, .toChild name, by rw [← same]; rfl⟩
    | load loader =>
      simp only [perform, FileResolver.load]
      cases r.files.read t.own.absoluteFilePath with
      | error e => exact .inl same
      | ok code => exact .inl same
  unfold resolver
  split
  · exact reported (s.report _) rfl
  · exact reported s rfl

/-- What the moves of an operation keep of a cursor, the operation keeps. -/
theorem own_resolver_keeps {r : FileResolver} {kept : Cursor → Prop} {op : Operation} {s : Scene Cursor}
    (before : kept s.own) (step : ∀ m, Moves op m → ∀ c, kept c → kept (c.move r.files m).2) :
    kept (r.resolver op s).2.own := by
  rcases r.own_resolver op s with same | ⟨m, moves, e⟩
  · rw [same]
    exact before
  · rw [e]
    exact step m moves s.own before

/-- What every move of the operations keeps of a cursor, a run keeps. -/
theorem own_after_keeps {r : FileResolver} {kept : Cursor → Prop} {ops : List Operation}
    {s : Scene Cursor} (start : kept s.own)
    (step : ∀ op ∈ ops, ∀ m, Moves op m → ∀ c, kept c → kept (c.move r.files m).2) :
    kept (r.resolver.after ops s).own :=
  @Resolver.after_keeps Cursor r.resolver (fun s => kept s.own) ops s start fun op mem _ h =>
    own_resolver_keeps h (step op mem)

/-! ## Files that change -/

/-- An operation, and the files that are there when it is asked. -/
structure Turn where
  files : FileSystem
  operation : Operation

/-- The resolver when there are other files. -/
def withFiles (r : FileResolver) (files : FileSystem) : FileResolver :=
  { r with files }

/-- The scene after some operations, each over files of its own. -/
def afterTurns (r : FileResolver) (turns : List Turn) (s : Scene Cursor) : Scene Cursor :=
  turns.foldl (fun s turn => ((r.withFiles turn.files).resolver turn.operation s).2) s

/-- What every move over some files keeps of a cursor, operations over these files keep. -/
theorem own_afterTurns_keeps {r : FileResolver} {kept : Cursor → Prop} {turns : List Turn} {s : Scene Cursor}
    (start : kept s.own) (step : ∀ turn ∈ turns, ∀ m c, kept c → kept (c.move turn.files m).2) :
    kept (r.afterTurns turns s).own := by
  induction turns generalizing s with
  | nil => exact start
  | cons turn turns ih =>
    refine ih ?_ fun later mem => step later (List.mem_cons_of_mem _ mem)
    exact own_resolver_keeps start fun m _ => step turn List.mem_cons_self m

/-! ## Walks -/

/-- The walks that can be asked of a resolver. -/
inductive Walk where
  | reset (chunkName : Text)
  | jumpToAlias (path : Text)
  | toParent
  | toChild (name : Text)

/-- Asks for a walk. -/
def walk (r : FileResolver) (s : Scene Cursor) : Walk → Outcome NavigationResult × Scene Cursor
  | .reset name => r.resolver (.reset name) s
  | .jumpToAlias path => r.resolver (.jumpToAlias path) s
  | .toParent => r.resolver .toParent s
  | .toChild name => r.resolver (.toChild name) s

/-- The answers to some walks one after the other, and the scene they leave. -/
def walks (r : FileResolver) : List Walk → Scene Cursor →
    List (Outcome NavigationResult) × Scene Cursor
  | [], s => ([], s)
  | w :: ws, s =>
    let later := r.walks ws (r.walk s w).2
    ((r.walk s w).1 :: later.1, later.2)

/-- The move of a walk. -/
def Walk.move : Walk → Cursor.Move
  | reset name => moveTo name
  | jumpToAlias path => .path path
  | toParent => .parent
  | toChild name => .child name

theorem Walk.move_reset {name : Text} (isFile : name ≠ typedIn) : (Walk.reset name).move = .path name :=
  if_neg isFile

/-- An alias has to lead to an absolute path. -/
def Walk.Allowed (r : FileResolver) (w : Walk) : Prop :=
  ∀ path, w = .jumpToAlias path → r.files.isAbsolute path = true

/-- A walk that is allowed is one move of the cursor. -/
theorem walk_of_allowed {r : FileResolver} {w : Walk} (allowed : w.Allowed r) (s : Scene Cursor) :
    (r.walk s w).1 = .returned (s.own.move r.files w.move).1 ∧
      (r.walk s w).2.own = (s.own.move r.files w.move).2 ∧ (r.walk s w).2.host = s.host := by
  cases w with
  | reset name =>
    obtain ⟨t, own, host, asked⟩ := r.exists_perform (.reset name) s
    rw [walk, asked, ← own, ← host]
    exact ⟨rfl, rfl, rfl⟩
  | jumpToAlias path =>
    obtain ⟨t, own, host, asked⟩ := r.exists_perform (.jumpToAlias path) s
    rw [walk, asked, ← own, ← host]
    simp only [perform, allowed path rfl]
    exact ⟨rfl, rfl, rfl⟩
  | toParent =>
    obtain ⟨t, own, host, asked⟩ := r.exists_perform .toParent s
    rw [walk, asked, ← own, ← host]
    exact ⟨rfl, rfl, rfl⟩
  | toChild name =>
    obtain ⟨t, own, host, asked⟩ := r.exists_perform (.toChild name) s
    rw [walk, asked, ← own, ← host]
    exact ⟨rfl, rfl, rfl⟩

/-- Any other walk is refused on the spot. -/
theorem walk_of_relative {r : FileResolver} {path : Text} (relative : r.files.isAbsolute path = false)
    (s : Scene Cursor) :
    (r.walk s (.jumpToAlias path)).1 = .returned (.error .notFound) ∧
      (r.walk s (.jumpToAlias path)).2.own = s.own := by
  obtain ⟨t, own, -, asked⟩ := r.exists_perform (.jumpToAlias path) s
  rw [walk, asked, ← own]
  simp only [perform, relative, Bool.false_eq_true]
  exact ⟨rfl, rfl⟩

theorem Walk.allowed_or_relative (r : FileResolver) (w : Walk) :
    w.Allowed r ∨ ∃ path, w = .jumpToAlias path ∧ r.files.isAbsolute path = false := by
  cases w with
  | jumpToAlias path =>
    cases absolute : r.files.isAbsolute path with
    | true =>
      refine .inl fun path' same => ?_
      cases same
      exact absolute
    | false => exact .inr ⟨path, rfl, absolute⟩
  | reset | toParent | toChild => exact .inl nofun

/-! ## Questions -/

theorem resolver_hasModule (r : FileResolver) (s : Scene Cursor) :
    (r.resolver .hasModule s).1 = .returned (r.files.isFile s.own.filePath) := by
  unfold resolver
  split <;> rfl

theorem resolver_cacheKey (r : FileResolver) (s : Scene Cursor) :
    (r.resolver .cacheKey s).1 = .returned (r.cacheKey s.own) := by
  unfold resolver
  split <;> rfl

theorem resolver_hasConfig (r : FileResolver) (s : Scene Cursor) :
    (r.resolver .hasConfig s).1 = .returned (r.files.isFile (s.own.configPath r.files)) := by
  unfold resolver
  split <;> rfl

theorem resolver_config (r : FileResolver) (s : Scene Cursor) :
    (r.resolver .config s).1 = .returned (r.files.read (s.own.configPath r.files)) := by
  unfold resolver
  split <;> rfl

/-- What is loaded depends on the path from the root alone. -/
theorem resolver_load_congr (r : FileResolver) (loader : ChunkLoader) {s t : Scene Cursor}
    (path : s.own.absoluteFilePath = t.own.absoluteFilePath) (host : s.host = t.host) :
    (r.resolver (.load loader) s).1 = (r.resolver (.load loader) t).1 ∧
      (r.resolver (.load loader) s).2.host = (r.resolver (.load loader) t).2.host := by
  obtain ⟨s', own, host', asked⟩ := r.exists_perform (.load loader) s
  obtain ⟨t', own', host'', asked'⟩ := r.exists_perform (.load loader) t
  have path' : s'.own.absoluteFilePath = t'.own.absoluteFilePath := by rw [own, own', path]
  have hosts : s'.host = t'.host := by rw [host', host'', host]
  rw [asked, asked']
  simp only [perform, FileResolver.load, path', hosts]
  generalize r.files.read t'.own.absoluteFilePath = found
  cases found with
  | error e => exact ⟨rfl, hosts⟩
  | ok code => exact ⟨rfl, rfl⟩

/-- A file that can be read is loaded under its path from the root. -/
theorem resolver_load {r : FileResolver} {s : Scene Cursor} {code : Bytes}
    (h : r.files.read s.own.absoluteFilePath = .ok code) (loader : ChunkLoader) :
    let chunk : Chunk :=
      { name := String.ofList s.own.absoluteFilePath, code, environment := r.environment }
    (r.resolver (.load loader) s).1 = (loader.load chunk s.host).1 ∧
      (r.resolver (.load loader) s).2.host = (loader.load chunk s.host).2 := by
  intro chunk
  have loaded : ∀ t : Scene Cursor, t.own = s.own → t.host = s.host →
      (r.load loader t).1 = (loader.load chunk s.host).1 ∧
        (r.load loader t).2.host = (loader.load chunk s.host).2 := by
    rintro t own host
    simp only [FileResolver.load, own, h, host]
    exact ⟨rfl, rfl⟩
  unfold resolver
  split
  · exact loaded (s.report _) rfl rfl
  · exact loaded s rfl rfl

end FileResolver
end ScriptHost

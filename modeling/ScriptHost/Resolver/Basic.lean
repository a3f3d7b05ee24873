/-
What the engine asks when a script requires a module: it has the resolver stand on the chunk that
asks, walks it to the module, and then asks for a cache key and for the loaded function. A resolver
is any state machine that can answer; each of its operations may panic.
-/
import ScriptHost.Host.Chunk
import ScriptHost.Callback

namespace ScriptHost

/-! ## Loading -/

/-- Something that loads chunks as functions of a VM. It may panic. -/
structure ChunkLoader where
  vm : VmId
  load : Chunk → HostState → Outcome (Except Error HandleId) × HostState

namespace ChunkLoader

/-- A loader that does some work of the host. -/
def doing (vm : VmId) (work : Chunk → Host HandleId) : ChunkLoader where
  vm
  load chunk s :=
    match work chunk s with
    | .ok h s => (.returned (.ok h), s)
    | .error e s => (.returned (.error e), s)

def ofVm (vm : VmId) : ChunkLoader :=
  doing vm (Host.loadChunk vm)

end ChunkLoader

/-! ## Operations -/

inductive Operation where
  /-- Whether a chunk may require modules at all. -/
  | isAllowed (chunkName : Text)
  /-- Stands on the chunk that requires. -/
  | reset (chunkName : Text)
  /-- Stands on a path that a configuration file gave an alias for. -/
  | jumpToAlias (path : Text)
  | toParent
  | toChild (name : Text)
  | hasModule
  /-- The key under which the module here is kept. -/
  | cacheKey
  | hasConfig
  /-- The contents of the configuration file here. -/
  | config
  /-- A function that runs the module here. -/
  | load (loader : ChunkLoader)

def Operation.Answer : Operation → Type
  | isAllowed _ | hasModule | hasConfig => Bool
  | reset _ | jumpToAlias _ | toParent | toChild _ => NavigationResult
  | cacheKey => Text
  | config => Except IoError Bytes
  | load _ => Except Error HandleId

/-! ## Resolvers -/

/-- What an operation works on: the resolver's own state, the state of the host, and what was
reported so far. -/
structure Scene (σ : Type) where
  own : σ
  host : HostState
  log : List LogEvent

namespace Scene

variable {σ : Type}

/-- A scene with more reports. -/
def report (s : Scene σ) (events : List LogEvent) : Scene σ :=
  { s with log := s.log ++ events }

end Scene

/-- A resolver with a state of its own. -/
abbrev Resolver (σ : Type) := (op : Operation) → Scene σ → Outcome op.Answer × Scene σ

namespace Resolver

variable {σ : Type}

/-- A resolver that panics whatever it is asked. -/
def panicking (panic : Panic) : Resolver σ :=
  fun _ s => (.panicked panic, s)

/-- Asks a resolver, and reports a panic instead of passing it on. -/
def ask (r : Resolver σ) (op : Operation) (s : Scene σ) :
    Except CallbackPanic op.Answer × Scene σ :=
  match r op s with
  | (.returned a, s) => (.ok a, s)
  | (.panicked p, s) =>
    let recovered := (Outcome.panicked p : Outcome (Except CallbackPanic op.Answer)).recover
    (recovered.1, s.report recovered.2)

end Resolver
end ScriptHost

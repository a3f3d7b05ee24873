/-
A resolver tried out on two VMs, its own and another one: how it is reached, which environment it
loads into, which loader it is given, and what a loaded function turns out to be.
-/
import ScriptHost.Resolver.Files
import ScriptHost.Resolver.Foreign
import ScriptHost.Callback.Script

namespace ScriptHost.Trial

/-! ## Setting up -/

/-- How the resolver is reached. -/
inductive Route where
  | direct
  /-- Through the engine's interface, once or more often. -/
  | foreign (times : Nat)
  /-- Through the interface, to a resolver that panics. -/
  | panicking (message : String)
  /-- Through a table without callbacks. -/
  | missing
  /-- Through a table that hands over a function and fails at once. -/
  | contradicting (message : String)

/-- A resolver as it is seen through the interface some times. -/
def through (r : Resolver Cursor) : (times : Nat) → Resolver Cursor
  | 0 => r
  | times + 1 => (through r times).foreign

def Route.resolver (files : FileResolver) : Route → Resolver Cursor
  | direct => files.resolver
  | foreign times => through files.resolver times
  | panicking message => (Resolver.panicking (.text message)).foreign
  | missing => CallbackTable.missing.driven
  | contradicting message => (CallbackTable.contradicting message).driven

/-- The environment of loaded modules. -/
inductive EnvironmentSource where
  | none
  /-- A table of the own VM that is marked. -/
  | marked
  /-- A table of the own VM that was closed. -/
  | closed
  /-- A table of the other VM. -/
  | foreign

/-- The field of a marked environment, and what it holds. -/
def mark : Value × Value :=
  (.integer 1, .integer 99)

def markedTable (vm : VmId) : Host HandleId := do
  let table := (← Host.createTable vm).object?.getD 0
  Host.Table.set table mark.1 mark.2
  return table

def EnvironmentSource.make (own other : VmId) : EnvironmentSource → Host (Option HandleId)
  | none => return Option.none
  | marked => return some (← markedTable own)
  | closed => do
    let table ← markedTable own
    Host.closeObject table
    return some table
  | foreign => return (← Host.createTable other).object?

/-! ## Loaders -/

/-- What loads the chunks of a step. -/
inductive LoaderScript where
  | own
  | failing (message : String)
  | panicking (message : String)
  /-- Closes what it loaded. -/
  | closing
  /-- Loads on the VM, which is closed before the resolver is asked. -/
  | closingVm

def LoaderScript.loader (vm : VmId) : LoaderScript → ChunkLoader
  | own | closingVm => .ofVm vm
  | failing message => .doing vm fun _ => throw (.native message)
  | panicking message => ⟨vm, fun _ s => (.panicked (.text message), s)⟩
  | closing => .doing vm fun chunk => do
    let h ← Host.loadChunk vm chunk
    Host.closeObject h
    return h

/-- What is done before the resolver is asked, whether or not it gets as far as the loader. -/
def LoaderScript.prepare (vm : VmId) : LoaderScript → Host Unit
  | closingVm => Host.closeVm vm
  | _ => return

/-! ## Steps -/

/-- What the environment of a loaded function is. -/
inductive EnvironmentReport where
  | none
  | mark (value : Int64)
  | unmarked

/-- What a loaded function turns out to be. -/
inductive LoadReport where
  | closed
  /-- Its first two results when it is called without arguments, and its environment. -/
  | called (name code : Bytes) (environment : EnvironmentReport)

/-- The bytes of a result. -/
def resultBytes (results : List Value) (index : UInt64) : Host Bytes := do
  match (← Host.ofResult (Arguments.takeAt results .string index)).object? with
  | some h => Host.stringBytes h
  | Option.none => return []

def inspectEnvironment (function : HandleId) : Host EnvironmentReport := do
  match ← Host.Function.environment function with
  | Option.none => return .none
  | some table =>
    match ← Host.Table.get table mark.1 with
    | .integer n => return .mark n
    | _ => return .unmarked

def inspect (function : HandleId) : Host LoadReport := do
  if Host.isClosed (← get) (.object .function function) then return .closed
  let results ← Host.Function.call (Script.code [] 0) function []
  let name ← resultBytes results 0
  let code ← resultBytes results 1
  return .called name code (← inspectEnvironment function)

inductive Step where
  | ask (op : Operation)
  /-- Loads the module, and looks at the function. -/
  | load (loader : LoaderScript)

inductive Answer where
  | flag (value : Bool)
  | walked (result : NavigationResult)
  | key (value : Text)
  | contents (result : Except IoError Bytes)
  | loaded (result : Except Error LoadReport)

/-- An operation's answer among all answers. The function of a load is looked at. -/
def report : (op : Operation) → op.Answer → HostState → Answer × HostState
  | .isAllowed _, flag, s | .hasModule, flag, s | .hasConfig, flag, s => (.flag flag, s)
  | .reset _, result, s | .jumpToAlias _, result, s | .toParent, result, s | .toChild _, result, s =>
    (.walked result, s)
  | .cacheKey, key, s => (.key key, s)
  | .config, result, s => (.contents result, s)
  | .load _, .error e, s => (.loaded (.error e), s)
  | .load _, .ok h, s =>
    match inspect h s with
    | .ok r s => (.loaded (.ok r), s)
    | .error e s => (.loaded (.error e), s)

/-- The operation of a step, on a VM. -/
def Step.operation (vm : VmId) : Step → Operation
  | ask op => op
  | load script => .load (script.loader vm)

/-- Makes a step ready to be taken. -/
def Step.prepare (vm : VmId) : Step → HostState → HostState
  | ask _, s => s
  | load script, s =>
    match Host.attempt (script.prepare vm) s with
    | .ok _ s | .error _ s => s

/-- Takes a step: its answer, its reports and the scene after it. Nobody is left to recover a panic;
it is reported, and there is no answer. -/
def step (r : Resolver Cursor) (vm : VmId) (st : Step) (s : Scene Cursor) :
    Option Answer × List LogEvent × Scene Cursor :=
  let op := st.operation vm
  match r.ask op { s with host := st.prepare vm s.host, log := [] } with
  | (.ok a, s) =>
    let (answer, host) := report op a s.host
    (some answer, s.log, { s with host })
  | (.error _, s) => (none, s.log, s)

def steps (r : Resolver Cursor) (vm : VmId) : List Step → Scene Cursor →
    List (Option Answer × List LogEvent)
  | [], _ => []
  | st :: rest, s =>
    let (answer, log, s) := step r vm st s
    (answer, log) :: steps r vm rest s

/-- Sets up two VMs and an environment. -/
def setUp (source : EnvironmentSource) : Host (VmId × Option HandleId) := do
  let own ← Host.newVm
  let other ← Host.newVm
  return (own, ← source.make own other)

def run (files : FileSystem) (settings : Settings) (source : EnvironmentSource) (route : Route)
    (plan : List Step) : List (Option Answer × List LogEvent) :=
  match setUp source {} with
  | .error _ _ => []
  | .ok (own, environment) host =>
    steps (route.resolver ⟨files, settings, environment⟩) own plan ⟨.start, host, []⟩

end ScriptHost.Trial

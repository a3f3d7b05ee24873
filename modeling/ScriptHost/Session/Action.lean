/-
What a session can be told to do in one step.
-/
import ScriptHost.Session.Basic

namespace ScriptHost

/-- How a step says which value it means. -/
inductive ValueSource where
  /-- A value that needs no handle. -/
  | plain (value : Value)
  | error (message : Bytes)
  /-- A new string of the step's VM. -/
  | string (bytes : Bytes)
  /-- The value of a name, by the same handle. -/
  | named (name : String)

inductive ArgumentSource where
  | values (values : List ValueSource)
  | named (list : String)

/-- A function of a session: what it does, and the values it keeps. -/
structure FunctionSource where
  script : FunctionScript
  kept : List ValueSource

/-- What becomes of a VM before a callback of it is called. -/
inductive Fate where
  | none
  | close
  /-- Closed, and dropped by the session. -/
  | drop

/-- A chunk to load, with its environment by name. -/
structure ChunkSource where
  name : String
  code : Bytes
  mode : ChunkMode
  environment : Option String
  compiler : Option CompilerOptions

/-- A value in the engine's layout that names no object. -/
abbrev PlainCrossing := RawValue Unit

/-- Actions that run no other steps. -/
inductive Action where
  /- VMs -/
  | wrapNull
  | closeVm
  | dropVm
  | isVmClosed
  | isSameVm (other : Nat)
  | describeVm
  | objectKinds
  | globals
  | createString (bytes : Bytes)
  | createTable
  | createBuffer (length : Nat)
  | createError (message : Bytes)
  | createFunction (function : FunctionSource)
  | createUserdata (data : PayloadData) (counter : Option String)
  | loadChunk (chunk : ChunkSource)
  /-- How often the payload that a counter watches was destroyed. -/
  | drops (counter : String)
  | setCompiler (options : CompilerOptions)
  | compiler
  | setInterrupt (script : InterruptScript)
  | removeInterrupt
  | poll
  /-- Polls a new interrupt some times, without the engine. -/
  | pollDirectly (script : InterruptScript) (times : Nat)
  | arm (fault : Fault)
  /- Any value -/
  | keep (value : ValueSource)
  | describe (value : ValueSource)
  | typeOf (value : ValueSource)
  | owner (value : ValueSource)
  | close (value : ValueSource)
  | isClosed (value : ValueSource)
  | hasPointer (value : ValueSource)
  | debug (value : ValueSource)
  | equals (a b : ValueSource)
  /-- Takes the reference out of an object's wrapper, and wraps it as another kind. -/
  | retag (value : ValueSource) (kind : ObjectKind)
  /- Objects by name -/
  | stringBytes (string : String)
  | stringText (string : String)
  | describeError (error : String)
  | tableGet (table : String) (key : ValueSource)
  | tableSet (table : String) (key value : ValueSource)
  | tableLength (table : String)
  | tableIsEmpty (table : String)
  | tablePairs (table : String)
  | metatable (table : String)
  | setMetatable (table : String) (metatable : Option String)
  | call (function : String) (args : ArgumentSource)
  | environment (function : String)
  | bufferLength (buffer : String)
  | bufferIsEmpty (buffer : String)
  | bufferToBytes (buffer : String)
  | bufferRead (buffer : String) (offset length : UInt64)
  | bufferWrite (buffer : String) (offset : UInt64) (data : Bytes)
  | holds (userdata : String) (type : PayloadType)
  /- Lists -/
  | newList (values : List ValueSource)
  /-- A list of values that are checked to be open and of the step's VM. -/
  | checkedList (values : List ValueSource)
  | push (list : String) (value : ValueSource)
  | pop (list : String)
  | listAt (list : String) (accessor : Accessor) (index : UInt64)
  | showList (list : String)
  | closeList (list : String)
  /- Callbacks without the engine -/
  | callDirectly (function : FunctionSource) (args : List ValueSource)
  /-- Fills the record of a host function as the engine does; there may be no list of arguments. -/
  | fillFunction (function : FunctionSource) (args : Option (List PlainCrossing)) (fate : Fate)
  | fillInterrupt (script : InterruptScript) (times : Nat) (fate : Fate)

inductive Step where
  /-- An action on a VM, with a name for what comes of it. -/
  | act (vm : Nat) (keep : Option String) (action : Action)
  /-- Steps under a guard on a VM. -/
  | withVm (vm : Nat) (steps : List Step)
  /-- Steps under guards on an object and its VM. -/
  | withValue (vm : Nat) (value : ValueSource) (steps : List Step)
  /-- A walk over the pairs of a table, perhaps with steps after each pair. It sees the pairs and
  what the steps answer, and fails when it has seen a number of these. -/
  | forEach (table : String) (stop : Option Nat) (steps : Option (List Step))
  /-- Steps while the payload of a userdata is borrowed. An exclusive borrow adds a value first. -/
  | borrow (userdata : String) (type : PayloadType) (added : Option PayloadData) (steps : List Step)
  deriving Inhabited

end ScriptHost

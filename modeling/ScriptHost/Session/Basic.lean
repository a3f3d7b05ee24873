/-
A session drives the host step by step. It holds VMs by position, values and lists of values by name,
and describes what it got in answers.
-/
import ScriptHost.Host.Reclaim
import ScriptHost.Host.Chunk
import ScriptHost.Host.Buffer
import ScriptHost.Host.Userdata
import ScriptHost.Callback.Script

namespace ScriptHost

/-! ## Answers -/

/-- A value as an answer describes it. -/
inductive Shown where
  | nil
  | boolean (value : Bool)
  | lightUserdata (address : UInt64)
  | integer (value : Int64)
  | number (bits : UInt64)
  | vector (x y z : UInt32)
  /-- A string by its contents, if they can be read. -/
  | string (contents : Except Error Bytes)
  /-- An error by its message, if it is open. -/
  | error (message : Option Bytes)
  | object (kind : ObjectKind) (closed : Bool)
  | other

/-- What a host function left in its record. -/
structure CallReport where
  argumentsTaken : Bool
  error : Option CString
  values : Option (RawList (Option ReferenceId))

inductive Answer where
  | nothing
  | flag (value : Bool)
  | count (value : Nat)
  | text (value : String)
  | bytes (value : Bytes)
  | value (value : Shown)
  | many (answers : List Answer)
  /-- Success, with what came of it. -/
  | ok (answer : Answer)
  | failed (cause : Error)
  | settings (options : CompilerOptions)
  | state (state : PollState)
  | polled (record : PollRecord)
  | called (report : CallReport)
  /-- An error value: its message, whether it is closed, and its text in two ways. -/
  | message (bytes : Option Bytes) (closed : Bool) (display lossy : String)
  | values (shown : List Shown)
  /-- How a walk over pairs ended, and what it saw. -/
  | visited (result : Except Error Unit) (seen : List Answer)
  /-- A borrowed payload, and the steps while it was borrowed. -/
  | borrowed (data : PayloadData) (steps : List Answer)
  deriving Inhabited

namespace Answer

/-- A result: success with nothing to tell, or a failure. -/
def ofResult (result : Except Error Answer) : Answer :=
  match result with
  | .ok a => a
  | .error e => .failed e

/-- Success with nothing to tell. -/
def done : Answer := .ok .nothing

def okValue (v : Shown) : Answer := .ok (.value v)

def okValues (vs : List Shown) : Answer := .ok (.many (vs.map .value))

end Answer

/-- Describes a value. Reading a string's contents is work of the engine, too. -/
def Host.describe (v : Value) : Host Shown :=
  match v with
  | .nil => return .nil
  | .boolean b => return .boolean b
  | .lightUserdata a => return .lightUserdata a
  | .integer n => return .integer n
  | .number bits => return .number bits
  | .vector x y z => return .vector x y z
  | .object .string h => return .string (← attempt (stringBytes h))
  | .object kind h => return .object kind (isClosed (← get) (.object kind h))
  | .error e => return .error (errorMessage? (← get) e)
  | .other => return .other

/-! ## Sessions -/

/-- What the steps around a step keep alive while it runs. -/
structure Frame where
  vms : List VmId
  values : List Value
  deriving Repr

structure Session where
  host : HostState := {}
  /-- The session's references to VMs, none where it dropped one. -/
  vms : List (Option VmId) := []
  values : List (String × Value) := []
  lists : List (String × List Value) := []
  /-- The scripts of the callbacks, by their numbers. -/
  scripts : List Script := []
  /-- The latest payload that each counter watches. -/
  counters : List (String × PayloadId) := []
  frames : List Frame := []

/-- Work of a session. -/
abbrev SessionM := EStateM Error Session

namespace Session

/-- A value under a name, in place of what was there. -/
def put {α : Type} (name : String) (a : α) (names : List (String × α)) : List (String × α) :=
  (name, a) :: names.filter (·.1 ≠ name)

def roots (s : Session) : Roots where
  vms := s.vms.filterMap id ++ s.frames.flatMap (·.vms)
  values := s.values.map (·.2) ++ s.lists.flatMap (·.2) ++ s.frames.flatMap (·.values)
  callbacks := []

/-- The session without what nobody refers to any more. A callback in flight keeps what it keeps. -/
def reclaimed (s : Session) (inFlight : List CallbackId) : Session :=
  { s with host := s.host.reclaim { s.roots with callbacks := inFlight } }

/-- Work of the host within a session. -/
def onHost {α : Type} (work : Host α) : SessionM α := fun s =>
  match work s.host with
  | .ok a host => .ok a { s with host }
  | .error e host => .error e { s with host }

/-- The code of the session's callbacks, deep enough for some arguments. -/
def code (s : Session) (args : List Value) : HostCode :=
  Script.code s.scripts (Script.depthFor args)

def start (vms : Nat) : Session :=
  let more (s : Session) (_ : Nat) : Session :=
    match Host.newVm s.host with
    | .ok vm host => { s with host, vms := s.vms ++ [some vm] }
    | .error _ host => { s with host }
  (List.range vms).foldl more {}

/-! ## Names -/

/-- The failure of asking for a name that nothing has. -/
def unnamed {α : Type} (name : String) : SessionM α :=
  throw (.nullPointer name)

def vmAt (index : Nat) : SessionM VmId := do
  match ((← get).vms[index]?).join with
  | some vm => return vm
  | none => unnamed "Lua VM"

def valueNamed (name : String) : SessionM Value := do
  match (← get).values.lookup name with
  | some v => return v
  | none => unnamed name

def objectNamed (name : String) : SessionM HandleId := do
  match (← valueNamed name).object? with
  | some h => return h
  | none => unnamed name

def listNamed (name : String) : SessionM (List Value) := do
  match (← get).lists.lookup name with
  | some vs => return vs
  | none => unnamed name

def keepValue (name : String) (v : Value) : SessionM Unit :=
  modify fun s => { s with values := put name v s.values }

def keepList (name : String) (vs : List Value) : SessionM Unit :=
  modify fun s => { s with lists := put name vs s.lists }

/-! ## Answers with values -/

/-- Answers with a value, and keeps it under a name if there is one. -/
def answerKept (keep : Option String) (v : Value) : SessionM Answer := do
  let shown ← onHost (Host.describe v)
  match keep with
  | some name => keepValue name v
  | none => return .okValue shown
  return .okValue shown

/-- Answers with a value that the engine handed out: without a name to keep it under, it is closed. -/
def answerOwned (keep : Option String) (v : Value) : SessionM Answer := do
  let answer ← answerKept keep v
  if keep.isNone then onHost (Host.ignoringFailure (Host.close v))
  return answer

/-- Answers with a list, and keeps it under a name if there is one. -/
def answerList (keep : Option String) (vs : List Value) : SessionM Answer := do
  let shown ← onHost (vs.mapM Host.describe)
  match keep with
  | some name => keepList name vs
  | none => return .okValues shown
  return .okValues shown

end Session
end ScriptHost

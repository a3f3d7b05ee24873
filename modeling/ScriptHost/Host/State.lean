/-
What the host knows while it works with the engine: VMs and the wrappers of engine objects behind
handles, error messages, callbacks given to the engine, and the payloads of userdata. Everything is
known by number, and numbers are never used twice.
-/
import ScriptHost.Engine.Functions
import ScriptHost.Handle
import ScriptHost.Value.Arguments

namespace ScriptHost

abbrev VmId := Nat

/-- A VM as the host holds it. -/
structure Vm where
  lock : Handle MachineId
  /-- Nothing of the host refers to it any more. Callbacks do not count. -/
  gone : Bool := false
  deriving Repr

/-- An engine object as the host holds it. -/
structure Wrapper where
  vm : VmId
  lock : Handle ReferenceId
  deriving Repr

/-- A callback that was made for a VM. It does not keep the VM. -/
structure Callback where
  vm : VmId
  /-- The values it keeps for its calls. -/
  kept : List Value
  calls : Nat := 0
  deriving Repr

/-! ## Payloads -/

inductive PayloadType where
  | integer
  | text
  | integers
  /-- A payload of which only its end matters. -/
  | token
  deriving DecidableEq, Repr

/-- What a type of payload is called when a borrow asks for it in vain. -/
def PayloadType.name : PayloadType → String
  | integer => "i64"
  | text => "alloc::string::String"
  | integers => "alloc::vec::Vec<i64>"
  | token => "token"

inductive PayloadData where
  | integer (value : Int64)
  | text (value : String)
  | integers (values : List Int64)
  | token
  deriving DecidableEq, Repr

def PayloadData.type : PayloadData → PayloadType
  | integer _ => .integer
  | text _ => .text
  | integers _ => .integers
  | token => .token

/-- The borrows of a payload that are under way. -/
inductive Borrowing where
  | shared (count : Nat)
  | exclusive
  deriving DecidableEq, Repr

/-- A value of the host inside a userdata. -/
structure Payload where
  data : PayloadData
  borrowing : Borrowing := .shared 0
  deriving DecidableEq, Repr

/-! ## The state -/

structure HostState where
  engine : Engine := {}
  vms : List Vm := []
  wrappers : List Wrapper := []
  errors : List (Handle Bytes) := []
  /-- The error values whose messages were freed, once for every time. -/
  freed : List ErrorId := []
  callbacks : List Callback := []
  payloads : List Payload := []
  deriving Repr

/-- Frees the message of an error value. -/
def HostState.freeMessage (s : HostState) (error : ErrorId) : HostState :=
  { s with freed := s.freed ++ [error] }

/-- What a text of the engine is to the host. -/
def Error.ofMessage (message : CString) : Error :=
  .native message.text

def Error.ofField : Engine.FieldFailure → Error
  | .text message => .ofMessage message
  | .endless => .abort .endless

/-- Work of the host. A failure undoes nothing. -/
abbrev Host := EStateM Error HostState

namespace Host

/-- Work inside the engine. -/
def inEngine {α : Type} (work : Engine → α × Engine) : Host α :=
  modifyGet fun s =>
    let (a, engine) := work s.engine
    (a, { s with engine })

/-- The value of a step that may fail. -/
def ofResult {α : Type} (result : Except Error α) : Host α :=
  match result with
  | .ok a => pure a
  | .error e => throw e

/-- Work inside the engine that may fail, with what its failures are to the host. -/
def tryInEngine {ε α : Type} (failure : ε → Error) (work : Engine → Except ε α × Engine) : Host α := do
  match ← inEngine work with
  | .ok a => return a
  | .error e => throw (failure e)

/-- How some work ends, as a value. Whoever attempts work that may be aborted throws the abort again. -/
def attempt {α : Type} (work : Host α) : Host (Except Error α) := fun s =>
  match work s with
  | .ok a s => .ok (.ok a) s
  | .error e s => .ok (.error e) s

/-- Some work, whose failure nobody hears of. -/
def ignoringFailure (work : Host Unit) : Host Unit := do
  let _ ← attempt work

end Host

/-- How machines are named among handles. -/
def HandleKind.vm : HandleKind := ⟨"vm", true⟩

/-- How the objects of a kind are named among handles. -/
def HandleKind.ofObject (kind : ObjectKind) : HandleKind := ⟨kind.name, true⟩

/-- The kinds of handles that a VM has for its objects. -/
def HandleKind.objects : List HandleKind :=
  [ofObject .string, ofObject .table, ofObject .function, ofObject .thread, ofObject .buffer,
    ofObject .userdata]

def HandleKind.error : HandleKind := ⟨"error", true⟩

end ScriptHost

/-
Wrappers: making them for references that the engine hands out, and closing, disarming and comparing
them. Each armed wrapper holds one reference of its own.
-/
import ScriptHost.Host.Locks
import ScriptHost.Text.Quoted

namespace ScriptHost.Host

/-! ## Making -/

/-- Wraps a reference that the host owns; there is no wrapper for null. -/
def wrap (vm : VmId) (kind : ObjectKind) (ref : Option ReferenceId) : Host (Option HandleId) := do
  match Handle.new ref (.ofObject kind) with
  | none => return none
  | some lock => modifyGet fun s =>
    (some s.wrappers.length, { s with wrappers := s.wrappers ++ [⟨vm, lock⟩] })

/-- Wraps what the engine made, or fails with what it should have been. -/
def wrapOrFail (vm : VmId) (kind : ObjectKind) (what : String) (ref : Option ReferenceId) :
    Host Value := do
  match ← wrap vm kind ref with
  | none => throw (.nullPointer what)
  | some h => return .object kind h

/-- An error value with its own message. -/
def newError (message : Bytes) : Host Value :=
  modifyGet fun s =>
    (.error s.errors.length, { s with errors := s.errors ++ [.arm message .error] })

/-! ## Closing -/

def closeObject (object : HandleId) : Host Unit := do
  let s ← get
  match s.wrappers[object]? with
  | none => return
  | some w =>
    let ⟨lock, destroyed, _⟩ ← ofResult (w.lock.close .returns)
    set { s with wrappers := s.wrappers.set object { w with lock } }
    match destroyed with
    | none => return
    | some ref => inEngine fun e => ((), e.giveBack ref)

def closeError (error : ErrorId) : Host Unit := do
  let s ← get
  match s.errors[error]? with
  | none => return
  | some h =>
    let ⟨lock, destroyed, _⟩ ← ofResult (h.close .returns)
    set { s with errors := s.errors.set error lock }
    match destroyed with
    | none => return
    | some _ => modify (·.freeMessage error)

/-- Closes a value. Plain values need no closing. -/
def close (value : Value) : Host Unit :=
  match value with
  | .object _ h => closeObject h
  | .error e => closeError e
  | _ => return

/-- Closes every value, and reports all failures together. -/
def closeAll (values : List Value) : Host Unit := do
  let results ← values.mapM fun v => attempt (close v)
  ofResult (Error.together (results.filterMap fun
    | .ok () => none
    | .error e => some e))

/-- Takes the reference out of a wrapper, to own it without one. -/
def disarm (object : HandleId) : Host ReferenceId := do
  let s ← get
  match s.wrappers[object]? with
  | none => throw .disarmClosed
  | some w =>
    let (ref, lock) ← ofResult w.lock.disarm
    set { s with wrappers := s.wrappers.set object { w with lock } }
    return ref

/-! ## Questions -/

/-- Whether a value was closed. Plain values never are. -/
def isClosed (s : HostState) (value : Value) : Bool :=
  match value with
  | .object _ h => (s.wrappers[h]?).elim true (·.lock.isClosed)
  | .error e => (s.errors[e]?).elim true (·.isClosed)
  | _ => false

/-- The VM that owns a value. Only objects have one. -/
def owner? (s : HostState) (value : Value) : Option VmId :=
  value.object?.bind fun h => (s.wrappers[h]?).map (·.vm)

/-- The reference behind an object, none once it or its VM is closed. -/
def pointer (object : HandleId) : Host (Option ReferenceId) := do
  match ← attempt (withObject "get pointer" object fun _ _ ref => return ref) with
  | .ok ref => return some ref
  | .error _ => return none

/-- Whether two objects of one VM have the same open reference. -/
def sameObject (a b : HandleId) : Host Bool := do
  let s ← get
  if (s.wrappers[a]?).map (·.vm) ≠ (s.wrappers[b]?).map (·.vm) then return false
  match ← pointer a with
  | none => return false
  | some ref => return (← pointer b) = some ref

/-- The message of an error value, none once it is closed. -/
def errorMessage? (s : HostState) (error : ErrorId) : Option Bytes :=
  (s.errors[error]?).bind (·.pointer)

/-- The message of an error value as text, empty once it is closed. -/
def errorText (s : HostState) (error : ErrorId) : String :=
  ((errorMessage? s error).map Utf8.asString).getD ""

/-- Whether two error values say the same. -/
def sameError (s : HostState) (a b : ErrorId) : Bool :=
  errorText s a = errorText s b

/-! ## Shown -/

/-- How the wrappers of a kind are shown. -/
def wrapperName : ObjectKind → String
  | .string => "LuaString"
  | .table => "LuaTable"
  | .function => "LuaFunction"
  | .thread => "LuaThread"
  | .userdata => "LuaUserData"
  | .buffer => "LuaBuffer"

def shownObject (kind : ObjectKind) (object : HandleId) : Host String := do
  match ← pointer object with
  | none => return "<closed " ++ wrapperName kind ++ ">"
  | some _ => return "<" ++ wrapperName kind ++ " 0x_>"

def shownError (s : HostState) (error : ErrorId) : String :=
  "ErrorVariant(" ++ String.ofList (Text.quoted (errorText s error).toList) ++ ")"

end ScriptHost.Host

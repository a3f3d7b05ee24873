/-
The state of the engine: objects, the references it handed out, its machines, and the failures it
was told to have. Numbers are never used twice: what is gone leaves its place empty.
-/
import ScriptHost.Engine.Table
import ScriptHost.CompilerOptions

namespace ScriptHost

/-- The engine functions that can be told to fail. -/
inductive EngineFunction where
  | cloneRef
  | globals
  | createString
  | createTable
  | createBuffer
  | createFunction
  | createUserdata
  | stringBytes
  | userdataPayload
  | loadChunk
  | tablePairs
  | functionCall
  deriving DecidableEq, Repr

/-- A failure to come, after some calls that pass. -/
structure Fault where
  function : EngineFunction
  skip : Nat
  /-- How the function fails, where it has more than one way. -/
  mode : String
  deriving DecidableEq, Repr

structure Machine where
  globals : ObjectId
  interrupt : Option CallbackId
  /-- The settings for chunks that bring none. -/
  compiler : Option CompilerOptions
  deriving DecidableEq, Repr

structure Engine where
  /-- Objects by number, none where one was freed. -/
  objects : List (Option Object) := []
  /-- What each reference is to, none where it was given back. -/
  references : List (Option ObjectId) := []
  /-- The references that were given back, the latest first. -/
  returned : List ReferenceId := []
  /-- The references in lists that were freed, which nobody can give back any more. -/
  leaked : List ReferenceId := []
  /-- Machines by number, none where one was closed. -/
  machines : List (Option Machine) := []
  /-- The machines that were ended, the latest first. -/
  stopped : List MachineId := []
  /-- The failures to come, those of one function in order. -/
  faults : List Fault := []
  deriving Repr

namespace Engine

/-! ## Objects -/

/-- An object that was not freed. -/
def object? (e : Engine) (id : ObjectId) : Option Object :=
  (e.objects[id]?).join

def allocate (e : Engine) (o : Object) : ObjectId × Engine :=
  (e.objects.length, { e with objects := e.objects ++ [some o] })

def setObject (e : Engine) (id : ObjectId) (o : Object) : Engine :=
  { e with objects := e.objects.set id (some o) }

/-- What a value is compared by when it is a key. -/
def keyOf (e : Engine) : Datum → Option Key
  | .boolean b => some (.boolean b)
  | .integer n => some (.integer n)
  | .number bits => some (.number bits)
  | .lightUserdata a => some (.lightUserdata a)
  | .object _ id =>
    match e.object? id with
    | some (.string bytes) => some (.string bytes)
    | _ => some (.object id)
  | .nil | .vector .. | .error _ | .other => none

/-! ## References -/

/-- The object of a reference that was not given back. -/
def target? (e : Engine) (ref : ReferenceId) : Option ObjectId :=
  (e.references[ref]?).join

/-- What a reference leads to. -/
def deref? (e : Engine) (ref : ReferenceId) : Option Object :=
  (e.target? ref).bind e.object?

def refer (e : Engine) (id : ObjectId) : ReferenceId × Engine :=
  (e.references.length, { e with references := e.references ++ [some id] })

def giveBack (e : Engine) (ref : ReferenceId) : Engine :=
  { e with references := e.references.set ref none, returned := ref :: e.returned }

/-- Frees a list. The references that are still in it are not given back. -/
def freeList (e : Engine) (list : RawList (Option ReferenceId)) : Engine :=
  { e with leaked := RawList.carried list ++ e.leaked }

def create (e : Engine) (o : Object) : ReferenceId × Engine :=
  let (id, e) := e.allocate o
  e.refer id

/-- Takes a value over from the host, with the reference in it. A null object is nil. -/
def receive (e : Engine) : Crossing → Datum × Engine
  | .nil => (.nil, e)
  | .boolean b => (.boolean b, e)
  | .lightUserdata a => (.lightUserdata a, e)
  | .integer n => (.integer n, e)
  | .number bits => (.number bits, e)
  | .vector x y z => (.vector x y z, e)
  | .error m => (.error m, e)
  | .other => (.other, e)
  | .object kind pointer =>
    match pointer with
    | none => (.nil, e)
    | some ref => ((e.target? ref).elim .nil (.object kind), e.giveBack ref)

def receiveAll (e : Engine) : RawList (Option ReferenceId) → List Datum × Engine
  | [] => ([], e)
  | first :: rest =>
    let (d, e) := e.receive first
    let (ds, e) := e.receiveAll rest
    (d :: ds, e)

/-- Hands a value out to the host, an object by a new reference. -/
def hand (e : Engine) : Datum → Crossing × Engine
  | .nil => (.nil, e)
  | .boolean b => (.boolean b, e)
  | .lightUserdata a => (.lightUserdata a, e)
  | .integer n => (.integer n, e)
  | .number bits => (.number bits, e)
  | .vector x y z => (.vector x y z, e)
  | .error m => (.error m, e)
  | .other => (.other, e)
  | .object kind id =>
    let (ref, e) := e.refer id
    (.object kind (some ref), e)

def handAll (e : Engine) : List Datum → RawList (Option ReferenceId) × Engine
  | [] => ([], e)
  | first :: rest =>
    let (c, e) := e.hand first
    let (cs, e) := e.handAll rest
    (c :: cs, e)

/-! ## Machines -/

/-- A machine that was not closed. -/
def machine? (e : Engine) (id : MachineId) : Option Machine :=
  (e.machines[id]?).join

/-- A new machine with a global table of its own. -/
def start (e : Engine) : MachineId × Engine :=
  let (globals, e) := e.allocate .emptyTable
  (e.machines.length, { e with machines := e.machines ++ [some ⟨globals, none, none⟩] })

def setMachine (e : Engine) (id : MachineId) (m : Machine) : Engine :=
  { e with machines := e.machines.set id (some m) }

/-- Ends a machine. What only it kept alive goes with it. -/
def stop (e : Engine) (id : MachineId) : Engine :=
  { e with machines := e.machines.set id none, stopped := id :: e.stopped }

/-! ## Failures to come -/

def arm (e : Engine) (fault : Fault) : Engine :=
  { e with faults := e.faults ++ [fault] }

/-- Counts a call of a function against its first failure to come. -/
def countCall (f : EngineFunction) : List Fault → Option String × List Fault
  | [] => (none, [])
  | first :: rest =>
    if first.function = f then
      if first.skip = 0 then (some first.mode, rest)
      else (none, { first with skip := first.skip - 1 } :: rest)
    else
      let (mode, rest) := countCall f rest
      (mode, first :: rest)

/-- Whether a call of a function fails, and how. -/
def failing (e : Engine) (f : EngineFunction) : Option String × Engine :=
  let (mode, faults) := countCall f e.faults
  (mode, { e with faults := faults })

/-! ## What is kept alive -/

/-- Every object that something keeps alive, as often as it does: a reference, a machine's globals
or another object. -/
def heldObjects (e : Engine) : List ObjectId :=
  e.references.filterMap id ++ (e.machines.filterMap id).map (·.globals) ++
    (e.objects.filterMap id).flatMap Object.held

/-- Every callback that a function or a machine keeps alive. -/
def heldCallbacks (e : Engine) : List CallbackId :=
  (e.objects.filterMap id).filterMap Object.callback? ++
    (e.machines.filterMap id).filterMap (·.interrupt)

/-- Frees the objects that nothing keeps alive. What they kept alive themselves may be next. -/
def freeUnheld (e : Engine) : Engine :=
  let held := e.heldObjects
  { e with objects := e.objects.mapIdx fun id o => if held.contains id then o else none }

/-- The payloads of the userdata that were not freed. -/
def payloads (e : Engine) : List PayloadId :=
  (e.objects.filterMap id).filterMap fun
    | .userdata p => some p
    | _ => none

end Engine
end ScriptHost

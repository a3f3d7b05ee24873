/-
Handles under names, driven step by step. Each handle is made from a pointer of its own, and the
shelf counts how often the destructor ran on every pointer. Its destructors do nothing but count, so
every run of them returns.
-/
import ScriptHost.Handle

namespace ScriptHost

/-- A step on the handle of some name. -/
inductive HandleStep where
  /-- Makes a handle, which replaces the one of the same name. A null pointer makes none and
  leaves the name as it was. -/
  | create (name : String) (kind : HandleKind) (null : Bool)
  | pointer (name : String)
  | isClosed (name : String)
  | close (name : String)
  | disarm (name : String)
  /-- Runs the destructor on the pointer that disarming gave out. -/
  | release (name : String)
  | describe (name : String)
  /-- Takes a read guard for the duration of some steps. -/
  | read (name : String) (steps : List HandleStep)
  | drop (name : String)
  deriving Inhabited

def HandleStep.name : HandleStep → String
  | create n .. | pointer n | isClosed n | close n | disarm n | release n | describe n | read n _
  | drop n => n

inductive HandleAnswer where
  | noHandle
  | busy
  | nothingToRelease
  | null
  | created (kind : String)
  | flag (value : Bool)
  /-- Whether a pointer is the one the handle was made from. -/
  | same (result : Except Error Bool)
  | closed (result : Except Error Unit)
  | released
  | dropped
  | description (text : String)

/-- An answer, or the answers of the steps under a read guard, with the destructor runs of the
name's latest pointer and the events of the step. -/
inductive HandleReply where
  | plain (answer : HandleAnswer) (runs : Option Nat) (log : List LogEvent)
  | read (steps : List HandleReply) (runs : Option Nat) (log : List LogEvent)

/-- A handle, and how often the destructor ran on its pointer. -/
structure ShelfEntry where
  handle : Handle Nat
  runs : Nat

/-- Entries by number, which is also their pointer, and what each name stands for. -/
structure HandleShelf where
  entries : List ShelfEntry := []
  handles : List (String × Nat) := []
  /-- The latest pointer of each name. -/
  latest : List (String × Nat) := []
  /-- Pointers given out by disarming and not released yet. -/
  loose : List (String × Nat) := []
  /-- Events since the last reply, for the next one to tell. -/
  pending : List LogEvent := []

namespace HandleShelf

def setName (table : List (String × Nat)) (name : String) (value : Nat) : List (String × Nat) :=
  (name, value) :: table.filter (·.1 ≠ name)

def unsetName (table : List (String × Nat)) (name : String) : List (String × Nat) :=
  table.filter (·.1 ≠ name)

/-- How often the destructor ran on the latest pointer of a name. -/
def runs (s : HandleShelf) (name : String) : Option Nat := do
  let id ← s.latest.lookup name
  return (← s.entries[id]?).runs

/-- The handle of a name, with its number. -/
def find (s : HandleShelf) (name : String) : Option (Nat × Handle Nat) := do
  let id ← s.handles.lookup name
  return (id, (← s.entries[id]?).handle)

def destroy (s : HandleShelf) (pointer : Option Nat) : HandleShelf :=
  match pointer with
  | none => s
  | some id =>
    { s with entries := s.entries.modify id fun e => { e with runs := e.runs + 1 } }

def put (s : HandleShelf) (id : Nat) (handle : Handle Nat) : HandleShelf :=
  { s with entries := s.entries.modify id fun e => { e with handle := handle } }

def finalize (s : HandleShelf) (id : Nat) : HandleShelf × List LogEvent :=
  match s.entries[id]? with
  | none => (s, [])
  | some e =>
    let release := e.handle.finalize .returns
    ((s.put id release.handle).destroy release.destroyed, e.handle.finalizeLog)

/-- Takes a name's handle away. One that is being read through stays until the last guard goes. -/
def remove (s : HandleShelf) (name : String) : HandleShelf × List LogEvent :=
  match s.find name with
  | none => (s, [])
  | some (id, handle) =>
    let s := { s with handles := unsetName s.handles name }
    if handle.readers = 0 then s.finalize id else (s, [])

/-- Makes a handle for a new pointer. The pointer that the name's former handle gave out is
forgotten, and that handle goes away only once the step has been answered: what its finalizer
tells is left for the next reply. -/
def create (s : HandleShelf) (name : String) (kind : HandleKind) (null : Bool) :
    HandleAnswer × HandleShelf × List LogEvent :=
  let id := s.entries.length
  match Handle.new (if null then none else some id) kind with
  | none => (.null, s, [])
  | some handle =>
    let (s, left) := s.remove name
    (.created kind.name,
      { s with
        entries := s.entries ++ [⟨handle, 0⟩]
        handles := setName s.handles name id
        latest := setName s.latest name id
        loose := unsetName s.loose name },
      left)

/-- A step on a handle that exists, guards apart. -/
def act (s : HandleShelf) (id : Nat) (handle : Handle Nat) :
    HandleStep → HandleAnswer × HandleShelf × List LogEvent
  | .pointer _ => (.same (handle.current.map (· == id)), s, [])
  | .isClosed _ => (.flag handle.isClosed, s, [])
  | .describe _ => (.description handle.shown, s, [])
  | .close _ =>
    match handle.close .returns with
    | .error e => (.closed (.error e), s, [])
    | .ok release =>
      (.closed (.ok ()), (s.put id release.handle).destroy release.destroyed, handle.closeLog .returns)
  | .disarm name =>
    match handle.disarm with
    | .error e => (.same (.error e), s, [])
    | .ok (pointer, disarmed) =>
      (.same (.ok (pointer == id)),
        { s.put id disarmed with loose := setName s.loose name pointer }, handle.disarmLog)
  | .drop name =>
    if handle.readers ≠ 0 then (.busy, s, [])
    else
      let (s, log) := s.remove name
      (.dropped, s, log)
  | _ => (.null, s, [])

/-- Runs the destructor on the loose pointer of a name. -/
def release (s : HandleShelf) (name : String) : HandleAnswer × HandleShelf :=
  match s.loose.lookup name with
  | none => (.nothingToRelease, s)
  | some pointer => (.released, { s with loose := unsetName s.loose name }.destroy (some pointer))

/-- Ends a read guard. The last one of a handle without name finalizes it. -/
def endRead (s : HandleShelf) (id : Nat) : HandleShelf × List LogEvent :=
  match s.entries[id]? with
  | none => (s, [])
  | some e =>
    let s := s.put id e.handle.giveBack
    if e.handle.readers ≤ 1 && !s.handles.any (·.2 = id) then s.finalize id else (s, [])

/-- Answers a step, which tells what is pending first and then its own events. -/
def reply (s : HandleShelf) (answer : HandleAnswer) (name : String) (log : List LogEvent) :
    HandleReply × HandleShelf :=
  (.plain answer (s.runs name) (s.pending ++ log), { s with pending := [] })

mutual

def step (s : HandleShelf) : HandleStep → HandleReply × HandleShelf
  | .create name kind null =>
    let (answer, s, left) := s.create name kind null
    let (reply, s) := s.reply answer name []
    (reply, { s with pending := left })
  | .release name =>
    let (answer, s) := s.release name
    s.reply answer name []
  | .read name steps =>
    match s.find name with
    | none => s.reply .noHandle name []
    | some (id, handle) =>
      match handle.acquire with
      | .error e => s.reply (.closed (.error e)) name []
      | .ok (_, held) =>
        let (replies, s) := run (s.put id held) steps
        let (s, log) := s.endRead id
        (.read replies (s.runs name) (s.pending ++ log), { s with pending := [] })
  | other =>
    match s.find other.name with
    | none => s.reply .noHandle other.name []
    | some (id, handle) =>
      let (answer, s, log) := s.act id handle other
      s.reply answer other.name log

def run (s : HandleShelf) : List HandleStep → List HandleReply × HandleShelf
  | [] => ([], s)
  | first :: rest =>
    let (reply, s) := s.step first
    let (replies, s) := run s rest
    (reply :: replies, s)

end

end HandleShelf
end ScriptHost

/-
Borrowing the payload of a userdata: any number of readers, or one writer. A borrow keeps a read
guard on the object, so that the payload cannot go away under it.
-/
import ScriptHost.Host.Locks

namespace ScriptHost

/-- A borrow under way. -/
structure Borrow where
  object : HandleId
  payload : PayloadId
  exclusive : Bool
  deriving DecidableEq, Repr

namespace Borrowing

/-- A payload's borrows with one more. -/
def add (exclusive : Bool) : Borrowing → Except BorrowError Borrowing
  | .exclusive => .error .alreadyMutable
  | .shared n =>
    if !exclusive then .ok (.shared (n + 1))
    else if n = 0 then .ok .exclusive
    else .error .alreadyImmutable

def remove : Borrowing → Borrowing
  | .exclusive => .shared 0
  | .shared n => .shared (n - 1)

end Borrowing

namespace Host.Userdata

/-- Takes a read guard on a userdata and asks the engine for its payload. -/
def enterPayload (action : String) (userdata : HandleId) : Host (Option PayloadId) := do
  withVm action (← vmOf userdata) fun _ => do
    let ref ← enterObject userdata
    inEngine (·.userdataPayload ref)

/-- The payload under a number, if it is of a type. -/
def payload? (s : HostState) (type : PayloadType) (id : Option PayloadId) :
    Option (PayloadId × Payload) :=
  id.bind fun id => (s.payloads[id]?).bind fun p =>
    if p.data.type = type then some (id, p) else none

/-- Whether the payload of a userdata is of a type. -/
def holds (type : PayloadType) (userdata : HandleId) : Host Bool := do
  match ← attempt (enterPayload "inspect userdata" userdata) with
  | .error _ => return false
  | .ok id =>
    leaveObject userdata
    return (payload? (← get) type id).isSome

/-- Takes note of a borrow of a payload of a type, if there can be one more. -/
def addBorrow (type : PayloadType) (exclusive : Bool) (id : Option PayloadId) : Host PayloadId := do
  let s ← get
  match payload? s type id with
  | none => throw (.borrow (.wrongType type.name))
  | some (id, p) =>
    match p.borrowing.add exclusive with
    | .error cause => throw (.borrow cause)
    | .ok borrowing =>
      set { s with payloads := s.payloads.set id { p with borrowing } }
      return id

/-- Borrows the payload of a userdata. The guard on the object is given back if that fails. -/
def borrow (type : PayloadType) (exclusive : Bool) (userdata : HandleId) : Host Borrow := do
  let id ← enterPayload "borrow userdata" userdata
  try
    let payload ← addBorrow type exclusive id
    return ⟨userdata, payload, exclusive⟩
  catch e =>
    leaveObject userdata
    throw e

def borrowed? (s : HostState) (b : Borrow) : Option PayloadData :=
  (s.payloads[b.payload]?).map (·.data)

def change (b : Borrow) (f : PayloadData → PayloadData) : Host Unit :=
  modify fun s =>
    { s with payloads := s.payloads.modify b.payload fun p => { p with data := f p.data } }

def endBorrow (b : Borrow) : Host Unit := do
  modify fun s => { s with payloads := s.payloads.modify b.payload fun p =>
    { p with borrowing := p.borrowing.remove } }
  leaveObject b.object

end Host.Userdata
end ScriptHost

/-
Tables: fields, length, all pairs, and metatables.
-/
import ScriptHost.Host.Transfer

namespace ScriptHost.Host.Table

/-! ## Fields -/

/-- The value of a field. A lookup that goes round in a circle never comes back. -/
def get (table : HandleId) (key : Value) : Host Value :=
  withObject "get table field" table fun vm _ ref => do
    let key ← send vm key
    receive vm (← tryInEngine .ofField (·.tableGet ref key))

/-- Sets a field. A key whose value cannot be sent is taken back. -/
def set (table : HandleId) (key value : Value) : Host Unit :=
  withObject "set table field" table fun vm _ ref => do
    let key ← send vm key
    let value ← try send vm value catch e =>
      release key
      throw e
    tryInEngine .ofMessage (·.tableSet ref key value)

def length (table : HandleId) : Host Nat :=
  withObject "get table length" table fun _ _ ref => return (← getThe HostState).engine.tableLength ref

/-! ## Pairs -/

/-- Values two by two. One that is left over is dropped. -/
def pairUp : List Value → List (Value × Value)
  | k :: v :: rest => (k, v) :: pairUp rest
  | _ => []

/-- All pairs. If the engine fails, what it had given is closed. -/
def pairs (table : HandleId) : Host (List (Value × Value)) :=
  withObject "iterate table" table fun vm _ ref => do
    let (list, result) ← inEngine fun e =>
      let (list, result, e) := e.tablePairs ref
      ((list, result), e)
    let values ← receiveAll vm list
    match result with
    | .ok () => return pairUp values
    | .error message =>
      closeAll values
      throw (.native message.text)

/-- Closes pairs, the key before the value. -/
def closePairs : List (Value × Value) → Host Unit
  | [] => return
  | (k, v) :: rest => do
    close k
    close v
    closePairs rest

def isEmpty (table : HandleId) : Host Bool := do
  let found ← pairs table
  closePairs found
  return found.isEmpty

/-- Closes pairs that nobody waits for. -/
def abandon (pairs : List (Value × Value)) : Host Unit :=
  pairs.forM fun (k, v) => do
    ignoringFailure (close k)
    ignoringFailure (close v)

/-- Visits pairs up to the first visit that fails. The pairs after it are abandoned. A visit is told
which pairs are still to come. -/
def visit {m : Type → Type} [Monad m]
    (visitor : Value → Value → List (Value × Value) → m (Except Error Unit))
    (abandon : List (Value × Value) → m Unit) :
    List (Value × Value) → m (Except Error Unit)
  | [] => return .ok ()
  | (k, v) :: rest => do
    match ← visitor k v rest with
    | .ok () => visit visitor abandon rest
    | .error e =>
      abandon rest
      return .error e

/-- Visits all pairs of a table, up to the first visit that fails. -/
def forEach (table : HandleId) (visitor : Value → Value → Host Unit) : Host Unit := do
  let found ← pairs table
  ofResult (← visit (fun k v _ => attempt (visitor k v)) abandon found)

/-! ## Metatables -/

def metatable (table : HandleId) : Host (Option HandleId) := do
  let ref ← withObject "get metatable" table fun _ _ ref => inEngine (·.tableMetatable ref)
  wrap (← vmOf table) .table ref

/-- A second reference to a table of a VM, for the engine. -/
def sendTable (vm : VmId) (table : HandleId) : Host ReferenceId := do
  checkOwner vm (.object .table table)
  secondReference .table table

def setMetatable (table : HandleId) (metatable : Option HandleId) : Host Unit :=
  withObject "set metatable" table fun vm _ ref => do
    let metatable ← metatable.mapM (sendTable vm)
    tryInEngine .ofMessage (·.tableSetMetatable ref metatable)

end ScriptHost.Host.Table

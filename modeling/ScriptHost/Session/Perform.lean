/-
What the actions of a session do.
-/
import ScriptHost.Session.Action

namespace ScriptHost.Session

/-! ## Sources -/

def evaluate (vm : Nat) : ValueSource → SessionM Value
  | .plain v => return v
  | .error message => onHost (Host.newError message)
  | .string bytes => do onHost (Host.createString (← vmAt vm) bytes)
  | .named name => valueNamed name

def arguments (vm : Nat) : ArgumentSource → SessionM (List Value)
  | .values vs => vs.mapM (evaluate vm)
  | .named list => listNamed list

def newCallback (vm : VmId) (script : Script) (kept : List Value) : SessionM CallbackId := do
  let c ← onHost (Host.newCallback vm kept)
  modify fun s => { s with scripts := s.scripts ++ [script] }
  return c

def newFunction (vm : Nat) (function : FunctionSource) : SessionM CallbackId := do
  let kept ← function.kept.mapM (evaluate vm)
  newCallback (← vmAt vm) (.function function.script) kept

def newInterrupt (vm : Nat) (script : InterruptScript) : SessionM CallbackId := do
  newCallback (← vmAt vm) (.interrupt script) []

/-! ## VMs -/

/-- Lets a VM meet its fate. One that is in use cannot be closed, which is nobody's concern here. -/
def meet (vm : Nat) (fate : Fate) (inFlight : CallbackId) : SessionM Unit := do
  match fate with
  | .none => return
  | .close => onHost (Host.ignoringFailure (Host.closeVm (← vmAt vm)))
  | .drop =>
    onHost (Host.ignoringFailure (Host.closeVm (← vmAt vm)))
    modify fun s => { s with vms := s.vms.set vm none }
  modify fun s => s.reclaimed [inFlight]

/-- Creates a userdata, and has a counter watch its payload. -/
def createUserdata (vm : Nat) (keep : Option String) (data : PayloadData)
    (counter : Option String) : SessionM Answer := do
  let id ← vmAt vm
  let payload ← onHost (Host.newPayload data)
  match counter with
  | some name => modify fun s => { s with counters := put name payload s.counters }
  | none => pure ()
  answerOwned keep (← onHost (Host.createUserdata id payload))

/-- Polls a new interrupt some times, without the engine. -/
def pollDirectly (code : HostCode) (c : CallbackId) (vm : VmId) :
    (times : Nat) → SessionM (List Answer)
  | 0 => return []
  | times + 1 => do
    let first ← onHost (Host.attempt (code.poll c vm))
    let rest ← pollDirectly code c vm times
    return .ofResult (first.map (.ok ∘ .state)) :: rest

/-- Has the engine poll a callback some times. -/
def fillInterrupt (code : HostCode) (c : CallbackId) : (times : Nat) → SessionM (List Answer)
  | 0 => return []
  | times + 1 => do
    let first ← onHost (Host.pollCallback code c)
    let rest ← fillInterrupt code c times
    return .polled first :: rest

/-- Has the engine fill the record of a host function. -/
def fillFunction (c : CallbackId) (args : Option (List PlainCrossing)) : SessionM Answer := do
  let list : RawList (Option ReferenceId) := (RawList.ofPointer args).map RawValue.withoutObjects
  let depth := list.map fun _ => Value.nil
  match ← onHost (Host.callback ((← get).code depth) c list) with
  | .ok values => return .called ⟨true, none, some values⟩
  | .error message => return .called ⟨true, some message, none⟩

/-! ## Any value -/

def typeOf (v : Value) : SessionM Answer := do
  let name := Answer.text v.kind.name
  return .many [name, name, .flag (Host.owner? (← get).host v).isSome]

/-- Says which VM of the session owns a value. -/
def owner (v : Value) : SessionM Answer := do
  let s ← get
  match Host.owner? s.host v with
  | none => return .nothing
  | some vm =>
    match s.vms.findIdx? (· = some vm) with
    | none => return .nothing
    | some index => return .count index

def debug (v : Value) : SessionM Answer := do
  match v with
  | .object kind h => return .text (← onHost (Host.shownObject kind h))
  | .error e => return .text (Host.shownError (← get).host e)
  | _ => return .nothing

/-- Compares two objects of a kind or two errors. -/
def equals (a b : Value) : SessionM Answer := do
  match a, b with
  | .object k x, .object k' y =>
    if k = k' then return .flag (← onHost (Host.sameObject x y)) else return .nothing
  | .error x, .error y => return .flag (Host.sameError (← get).host x y)
  | _, _ => return .nothing

/-- Wraps an object as another kind. -/
def retag (vm : Nat) (keep : Option String) (v : Value) (kind : ObjectKind) : SessionM Answer := do
  match v.object? with
  | none => return .nothing
  | some h =>
    let ref ← onHost (Host.disarm h)
    answerOwned keep (← onHost (Host.wrapOrFail (← vmAt vm) kind kind.name (some ref)))

def describeError (v : Value) : SessionM Answer := do
  let host := (← get).host
  match v.error? with
  | none => return .nothing
  | some e =>
    let text := Host.errorText host e
    return .message (Host.errorMessage? host e) (Host.isClosed host v) text text

/-- A table that may not be there, as an answer. -/
def answerTable (keep : Option String) (table : Option HandleId) : SessionM Answer := do
  match table with
  | none => return .done
  | some h => answerOwned keep (.object .table h)

/-- Describes pairs and closes them. -/
def answerPairs (pairs : List (Value × Value)) : SessionM Answer := do
  let shown ← onHost (pairs.mapM fun (k, v) => return (← Host.describe k, ← Host.describe v))
  onHost (Host.Table.abandon pairs)
  return .ok (.many (shown.map fun (k, v) => .many [.value k, .value v]))

/-! ## Actions -/

def okFlag (work : Host Bool) : SessionM Answer := return .ok (.flag (← onHost work))

def okCount (work : Host Nat) : SessionM Answer := return .ok (.count (← onHost work))

def okBytes (work : Host Bytes) : SessionM Answer := return .ok (.bytes (← onHost work))

/-- Success with nothing to tell. -/
def okDone (work : Host Unit) : SessionM Answer := do
  onHost work
  return .done

/-- What an action on a VM does and answers. -/
def perform (vm : Nat) (keep : Option String) : Action → SessionM Answer
  | .wrapNull => throw (.nullPointer "Lua VM")
  | .closeVm => do okDone (Host.closeVm (← vmAt vm))
  | .dropVm => do
    modify fun s => { s with vms := s.vms.set vm none }
    return .nothing
  | .isVmClosed => return .flag (Host.isVmClosed (← get).host (← vmAt vm))
  | .isSameVm other => return .flag ((← vmAt vm) = (← vmAt other))
  | .describeVm => return .text (Host.shownVm (← get).host (← vmAt vm))
  | .objectKinds =>
    return .many (HandleKind.objects.map (.text ·.name))
  | .globals => do answerOwned keep (← onHost (Host.globals (← vmAt vm)))
  | .createString bytes => do answerOwned keep (← onHost (Host.createString (← vmAt vm) bytes))
  | .createTable => do answerOwned keep (← onHost (Host.createTable (← vmAt vm)))
  | .createBuffer length => do answerOwned keep (← onHost (Host.createBuffer (← vmAt vm) length))
  | .createError message => do answerOwned keep (← onHost (Host.newError message))
  | .createFunction function => do
    let c ← newFunction vm function
    answerOwned keep (← onHost (Host.createFunction (← vmAt vm) c))
  | .createUserdata data counter => createUserdata vm keep data counter
  | .loadChunk chunk => do
    let environment ← chunk.environment.mapM objectNamed
    let loaded ← onHost (Host.loadChunk (← vmAt vm)
      ⟨chunk.name, chunk.code, chunk.mode, environment, chunk.compiler⟩)
    answerOwned keep (.object .function loaded)
  | .drops counter => do
    let s ← get
    match s.counters.lookup counter with
    | none => return .count 0
    | some payload => return .count (if s.host.engine.payloads.contains payload then 0 else 1)
  | .setCompiler options => do okDone (Host.setCompiler (← vmAt vm) options)
  | .compiler => do
    return ((← onHost (Host.compiler? (← vmAt vm))).map Answer.settings).getD .nothing
  | .setInterrupt script => do
    let c ← newInterrupt vm script
    okDone (Host.setInterrupt (← vmAt vm) c)
  | .removeInterrupt => do okDone (Host.removeInterrupt (← vmAt vm))
  | .poll => do
    let polled ← onHost (Host.pollVm ((← get).code []) (← vmAt vm))
    return (polled.map Answer.polled).getD .nothing
  | .pollDirectly script times => do
    let c ← newInterrupt vm script
    return .many (← pollDirectly ((← get).code []) c (← vmAt vm) times)
  | .arm fault => do
    onHost (Host.inEngine fun e => ((), e.arm fault))
    return .nothing
  | .keep value => do answerKept keep (← evaluate vm value)
  | .describe value => return .value (← onHost (Host.describe (← evaluate vm value)))
  | .typeOf value => do typeOf (← evaluate vm value)
  | .owner value => do owner (← evaluate vm value)
  | .close value => do okDone (Host.close (← evaluate vm value))
  | .isClosed value => do
    let v ← evaluate vm value
    return .flag (Host.isClosed (← get).host v)
  | .hasPointer value => do
    match (← evaluate vm value).object? with
    | none => return .nothing
    | some h => return .flag (← onHost (Host.pointer h)).isSome
  | .debug value => do debug (← evaluate vm value)
  | .equals a b => do
    let a ← evaluate vm a
    equals a (← evaluate vm b)
  | .retag value kind => do retag vm keep (← evaluate vm value) kind
  | .stringBytes string => do okBytes (Host.stringBytes (← objectNamed string))
  | .stringText string => return .ok (.text (← onHost (Host.stringText (← objectNamed string))))
  | .describeError error => do describeError (← valueNamed error)
  | .tableGet table key => do
    let t ← objectNamed table
    let key ← evaluate vm key
    answerOwned keep (← onHost (Host.Table.get t key))
  | .tableSet table key value => do
    let t ← objectNamed table
    let key ← evaluate vm key
    let value ← evaluate vm value
    okDone (Host.Table.set t key value)
  | .tableLength table => do okCount (Host.Table.length (← objectNamed table))
  | .tableIsEmpty table => do okFlag (Host.Table.isEmpty (← objectNamed table))
  | .tablePairs table => do answerPairs (← onHost (Host.Table.pairs (← objectNamed table)))
  | .metatable table => do
    answerTable keep (← onHost (Host.Table.metatable (← objectNamed table)))
  | .setMetatable table metatable => do
    let t ← objectNamed table
    let metatable ← metatable.mapM objectNamed
    okDone (Host.Table.setMetatable t metatable)
  | .call function args => do
    let f ← objectNamed function
    let args ← arguments vm args
    let results ← onHost (Host.Function.call ((← get).code args) f args)
    let answer ← answerList keep results
    if keep.isNone then onHost (Host.ignoringFailure (Host.closeAll results))
    return answer
  | .environment function => do
    answerTable keep (← onHost (Host.Function.environment (← objectNamed function)))
  | .bufferLength buffer => do okCount (Host.Buffer.length (← objectNamed buffer))
  | .bufferIsEmpty buffer => do okFlag (Host.Buffer.isEmpty (← objectNamed buffer))
  | .bufferToBytes buffer => do okBytes (Host.Buffer.toBytes (← objectNamed buffer))
  | .bufferRead buffer offset length => do
    okBytes (Host.Buffer.read (← objectNamed buffer) offset length)
  | .bufferWrite buffer offset data => do
    okDone (Host.Buffer.write (← objectNamed buffer) offset data)
  | .holds userdata type =>
    return .flag (← onHost (Host.Userdata.holds type (← objectNamed userdata)))
  | .newList values => do answerList keep (← values.mapM (evaluate vm))
  | .checkedList values => do
    let vs ← values.mapM (evaluate vm)
    onHost (Host.checkAll (← vmAt vm) vs)
    answerList keep vs
  | .push list value => do
    let v ← evaluate vm value
    let vs := (← listNamed list) ++ [v]
    keepList list vs
    return .count vs.length
  | .pop list => do
    match ← listNamed list with
    | [] => return .text "empty"
    | first :: rest =>
      keepList list rest
      answerOwned keep first
  | .listAt list accessor index => do
    answerKept keep (← onHost (Host.ofResult (Arguments.takeAt (← listNamed list) accessor index)))
  | .showList list => return .values (← onHost ((← listNamed list).mapM Host.describe))
  | .closeList list => do okDone (Host.closeAll (← listNamed list))
  | .callDirectly function args => do
    let c ← newFunction vm function
    let args ← args.mapM (evaluate vm)
    answerList keep (← onHost (((← get).code args).call c (← vmAt vm) args))
  | .fillFunction function args fate => do
    let c ← newFunction vm function
    meet vm fate c
    fillFunction c args
  | .fillInterrupt script times fate => do
    let c ← newInterrupt vm script
    meet vm fate c
    return .many (← fillInterrupt ((← get).code []) c times)

end ScriptHost.Session

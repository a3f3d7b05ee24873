/-
The functions of the engine, but for calls of functions, which may run host code. A function that
can fail says so by `Except CString`, for its texts are C strings, and one that may panic by `Except Panic`;
a reference may come back null.
-/
import ScriptHost.Engine.State
import ScriptHost.Panic

namespace ScriptHost.Engine

/-! ## Objects -/

/-- Hands out what a call yields, or null if it was told to fail. -/
def unlessFailing (e : Engine) (f : EngineFunction) (act : Engine → ReferenceId × Engine) :
    Option ReferenceId × Engine :=
  match e.failing f with
  | (some _, e) => (none, e)
  | (none, e) =>
    let (ref, e) := act e
    (some ref, e)

def cloneRef (e : Engine) (ref : ReferenceId) : Option ReferenceId × Engine :=
  match e.failing .cloneRef with
  | (some _, e) => (none, e)
  | (none, e) =>
    match e.target? ref with
    | none => (none, e)
    | some id =>
      let (ref, e) := e.refer id
      (some ref, e)

def globals (e : Engine) (machine : MachineId) : Option ReferenceId × Engine :=
  match e.failing .globals with
  | (some _, e) => (none, e)
  | (none, e) =>
    match e.machine? machine with
    | none => (none, e)
    | some m =>
      let (ref, e) := e.refer m.globals
      (some ref, e)

def createString (e : Engine) (bytes : Bytes) : Option ReferenceId × Engine :=
  e.unlessFailing .createString (·.create (.string bytes))

def createTable (e : Engine) : Option ReferenceId × Engine :=
  e.unlessFailing .createTable (·.create .emptyTable)

def createBuffer (e : Engine) (length : Nat) : Option ReferenceId × Engine :=
  e.unlessFailing .createBuffer (·.create (.buffer (List.replicate length 0)))

def createFunction (e : Engine) (callback : CallbackId) : Option ReferenceId × Engine :=
  e.unlessFailing .createFunction (·.create (.function (.host callback) none))

def createUserdata (e : Engine) (payload : PayloadId) : Option ReferenceId × Engine :=
  e.unlessFailing .createUserdata (·.create (.userdata payload))

/-- The bytes of a string, none where there are none to point at. -/
def stringBytes (e : Engine) (ref : ReferenceId) : Option Bytes × Engine :=
  match e.failing .stringBytes with
  | (some _, e) => (none, e)
  | (none, e) =>
    match e.deref? ref with
    | some (.string bytes) => (some bytes, e)
    | _ => (none, e)

def userdataPayload (e : Engine) (ref : ReferenceId) : Option PayloadId × Engine :=
  match e.failing .userdataPayload with
  | (some _, e) => (none, e)
  | (none, e) =>
    match e.deref? ref with
    | some (.userdata p) => (some p, e)
    | _ => (none, e)

/-! ## Fields -/

/-- What a lookup comes to. -/
inductive Found where
  | value (value : Datum)
  /-- A value was looked into that is no table. -/
  | notTable
  deriving DecidableEq, Repr

/-- The key under which a metatable names the table to look further in. -/
def indexKey : Key :=
  .string (Utf8.ofString "__index")

/-- Looks a key up in a table, and where it is missing, in the table that `__index` of the
metatable names. `__index` is itself looked up that way. Without fuel there is no answer; lookups
that go round in a circle have none at any fuel. -/
def lookup (e : Engine) : (fuel : Nat) → ObjectId → Option Key → Option Found
  | 0, _, _ => none
  | fuel + 1, id, key =>
    match e.object? id with
    | some (.table entries metatable) =>
      let value := Entries.get e.keyOf entries key
      if value = .nil then
        match metatable with
        | none => some (.value .nil)
        | some mt =>
          match lookup e fuel mt (some indexKey) with
          | none => none
          | some (.value (.object .table index)) => lookup e fuel index key
          | some _ => some (.value .nil)
      else some (.value value)
    | _ => some .notTable

/-- Fuel for every lookup that ends. One that needs more meets an object again under a key it has
asked for already. -/
def lookupFuel (e : Engine) : Nat :=
  2 * e.objects.length + 2

/-- Why a call for a field hands nothing out. -/
inductive FieldFailure where
  | text (message : CString)
  /-- There is no text: the lookup goes on for ever. -/
  | endless

/-- The failure to look into what is no table. -/
def FieldFailure.notTable : FieldFailure :=
  text (.ofText "attempt to index a non-table value")

/-- The value of a field, metatables included. -/
def tableGet (e : Engine) (table : ReferenceId) (key : Crossing) :
    Except FieldFailure Crossing × Engine :=
  let (key, e) := e.receive key
  match e.target? table with
  | none => (.error .notTable, e)
  | some id =>
    match e.lookup e.lookupFuel id (e.keyOf key) with
    | some (.value v) =>
      let (c, e) := e.hand v
      (.ok c, e)
    | some .notTable => (.error .notTable, e)
    | none => (.error .endless, e)

def tableSet (e : Engine) (table : ReferenceId) (key value : Crossing) :
    Except CString Unit × Engine :=
  let (key, e) := e.receive key
  let (value, e) := e.receive value
  match e.target? table, e.deref? table with
  | some id, some (.table entries metatable) =>
    if key = .nil then (.error (.ofText "table index is nil"), e)
    else (.ok (), e.setObject id (.table (Entries.set e.keyOf entries key value) metatable))
  | _, _ => (.error (.ofText "attempt to index a non-table value"), e)

/-- The length of a table, zero for any other object. -/
def tableLength (e : Engine) (table : ReferenceId) : Nat :=
  match e.deref? table with
  | some (.table entries _) => Entries.length e.keyOf entries
  | _ => 0

/-- Keys and values in turn. What was pushed before a failure stays pushed. -/
def tablePairs (e : Engine) (table : ReferenceId) :
    RawList (Option ReferenceId) × Except CString Unit × Engine :=
  let (fault, e) := e.failing .tablePairs
  match e.deref? table with
  | some (.table entries _) =>
    let (pushed, e) := e.handAll (entries.flatMap fun (k, v) => [k, v])
    match fault with
    | none => (pushed, .ok (), e)
    | some "odd" => (pushed ++ [.boolean true], .ok (), e)
    | some mode => (pushed, .error (.ofText mode), e)
  | _ => ([], .error (.ofText "attempt to iterate a non-table value"), e)

def tableMetatable (e : Engine) (table : ReferenceId) : Option ReferenceId × Engine :=
  match e.deref? table with
  | some (.table _ (some mt)) =>
    let (ref, e) := e.refer mt
    (some ref, e)
  | _ => (none, e)

/-- Sets or clears the metatable of a table, taking the reference over. -/
def tableSetMetatable (e : Engine) (table : ReferenceId) (metatable : Option ReferenceId) :
    Except CString Unit × Engine :=
  let given := metatable.bind e.target?
  let e := metatable.elim e e.giveBack
  match e.target? table, e.deref? table with
  | some id, some (.table entries _) =>
    match given, given.bind e.object? with
    | none, _ | some _, some (.table ..) => (.ok (), e.setObject id (.table entries given))
    | _, _ => (.error (.ofText "metatable must be a table"), e)
  | _, _ => (.error (.ofText "attempt to set the metatable of a non-table value"), e)

/-! ## Chunks -/

/-- A chunk to load. The reference to its environment is taken over. -/
structure RawChunk where
  name : CString
  code : Bytes
  environment : Option ReferenceId
  compiler : Option CompilerRecord

/-- The level of chunks that nobody set one for. -/
def defaultLevel : UInt8 := 1

/-- Loads a chunk. Told to fail, it yields neither function nor error, or both. -/
def loadChunk (e : Engine) (machine : MachineId) (chunk : RawChunk) :
    Option ReferenceId × Option CString × Engine :=
  let (fault, e) := e.failing .loadChunk
  let environment := chunk.environment.bind e.target?
  let e := chunk.environment.elim e e.giveBack
  let name := chunk.name.text
  if (Utf8.ofString "error").isPrefixOf chunk.code then
    (none, some (.ofText (name ++ ":1: syntax error")), e)
  else
    let ofMachine := ((e.machine? machine).bind (·.compiler)).map (·.optimizationLevel)
    let level := match chunk.compiler with
      | some record => record.read.optimizationLevel
      | none => ofMachine.getD defaultLevel
    match fault with
    | some "null" => (none, none, e)
    | _ =>
      let (ref, e) := e.create (.function (.chunk name chunk.code level) environment)
      (some ref, fault.map .ofText, e)

def chunkResults (e : Engine) (name : String) (code : Bytes) (level : UInt8) :
    List Datum × Engine :=
  let (nameId, e) := e.allocate (.string (Utf8.ofString name))
  let (codeId, e) := e.allocate (.string code)
  ([.object .string nameId, .object .string codeId, .integer (.ofNat level.toNat)], e)

/-- A reference to the environment of a function, null for a host function. -/
def functionEnvironment (e : Engine) (function : ReferenceId) : Option ReferenceId × Engine :=
  match e.deref? function with
  | some (.function _ (some environment)) =>
    let (ref, e) := e.refer environment
    (some ref, e)
  | _ => (none, e)

/-- Settings for chunks that bring none. -/
def setCompiler (e : Engine) (machine : MachineId) (record : CompilerRecord) : Engine :=
  match e.machine? machine with
  | none => e
  | some m => e.setMachine machine { m with compiler := some record.read }

def setInterrupt (e : Engine) (machine : MachineId) (callback : Option CallbackId) : Engine :=
  match e.machine? machine with
  | none => e
  | some m => e.setMachine machine { m with interrupt := callback }

/-! ## Buffers -/

/-- The length of a buffer, zero for any other object. -/
def bufferLength (e : Engine) (buffer : ReferenceId) : Nat :=
  match e.deref? buffer with
  | some (.buffer bytes) => bytes.length
  | _ => 0

/-- Why a range of a buffer cannot be touched: its end is no word, or lies outside of the buffer. -/
def rangePanic? (offset length size : Nat) : Option Panic :=
  if UInt64.size ≤ offset + length then some .overflow
  else if size < offset + length then
    some (.text ("range end index " ++ toString (offset + length) ++
      " out of range for slice of length " ++ toString size))
  else none

/-- Some bytes of a buffer. The engine takes the range as it is given, and panics if it is not within the
buffer. -/
def bufferRead (e : Engine) (buffer : ReferenceId) (offset length : Nat) : Except Panic Bytes :=
  match e.deref? buffer with
  | some (.buffer bytes) =>
    match rangePanic? offset length bytes.length with
    | some p => .error p
    | none => .ok ((bytes.drop offset).take length)
  | _ => .ok (List.replicate length 0)

/-- Overwrites some bytes of a buffer. The engine takes the range as it is given, and panics if it is not
within the buffer. -/
def bufferWrite (e : Engine) (buffer : ReferenceId) (offset : Nat) (data : Bytes) :
    Except Panic Unit × Engine :=
  match e.target? buffer, e.deref? buffer with
  | some id, some (.buffer bytes) =>
    match rangePanic? offset data.length bytes.length with
    | some p => (.error p, e)
    | none =>
      (.ok (), e.setObject id (.buffer (bytes.take offset ++ data ++ bytes.drop (offset + data.length))))
  | _, _ => (.ok (), e)

end ScriptHost.Engine

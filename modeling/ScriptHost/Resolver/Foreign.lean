/-
A resolver on the other side of the engine's interface. Exported, each operation is a callback over a
record: the caller sets what it asks, the callback what it answers. Driven, such a table of callbacks
is a resolver again, which differs from the exported one in that texts lose their NULs, failures keep
only their text, and panics have become failures.
-/
import ScriptHost.Resolver.Basic
import ScriptHost.Host.Call

namespace ScriptHost

/-! ## Records -/

inductive OperationName where
  | isAllowed
  | reset
  | jumpToAlias
  | toParent
  | toChild
  | hasModule
  | cacheKey
  | hasConfig
  | config
  | load
  deriving DecidableEq, Repr

/-- The name that the failure of a panicking operation mentions. -/
def OperationName.text : OperationName → String
  | isAllowed => "is_require_allowed"
  | reset => "reset"
  | jumpToAlias => "jump_to_alias"
  | toParent => "to_parent"
  | toChild => "to_child"
  | hasModule => "has_module"
  | cacheKey => "cache_key"
  | hasConfig => "has_config"
  | config => "config"
  | load => "loader"

structure AllowedRecord where
  chunkName : CString
  data : Bool := false

/-- Asks to walk to a path. -/
structure WalkRecord where
  path : CString
  data : NavigationRecord := .success

structure ParentRecord where
  data : NavigationRecord := .success

/-- Asks whether something is there. -/
structure FlagRecord where
  data : Bool := false

structure CacheKeyRecord where
  data : Option CString := none

structure ConfigRecord where
  data : RawBytes := .empty
  error : Option CString := none

/-- Asks for a loaded function, which is handed over as a reference of the caller's own. -/
structure LoadRecord where
  loader : ChunkLoader
  function : Option ReferenceId := none
  error : Option CString := none

def OperationName.Record : OperationName → Type
  | isAllowed => AllowedRecord
  | reset | jumpToAlias | toChild => WalkRecord
  | toParent => ParentRecord
  | hasModule | hasConfig => FlagRecord
  | cacheKey => CacheKeyRecord
  | config => ConfigRecord
  | load => LoadRecord

namespace Operation

/-- The callback that an operation calls. -/
def name : Operation → OperationName
  | isAllowed _ => .isAllowed
  | reset _ => .reset
  | jumpToAlias _ => .jumpToAlias
  | toParent => .toParent
  | toChild _ => .toChild
  | hasModule => .hasModule
  | cacheKey => .cacheKey
  | hasConfig => .hasConfig
  | config => .config
  | load _ => .load

/-- The record that asks to walk to a path. -/
def walking (path : Text) : WalkRecord :=
  { path := .ofText (String.ofList path) }

/-- The record that an operation asks with. -/
def record : (op : Operation) → op.name.Record
  | isAllowed name => ({ chunkName := .ofText (String.ofList name) } : AllowedRecord)
  | reset path | jumpToAlias path | toChild path => walking path
  | toParent => ({} : ParentRecord)
  | hasModule | hasConfig => ({} : FlagRecord)
  | cacheKey => ({} : CacheKeyRecord)
  | config => ({} : ConfigRecord)
  | load loader => ({ loader } : LoadRecord)

end Operation

/-- A resolver as a table of callbacks, each of which shares the scene with the others. -/
abbrev CallbackTable (σ : Type) := (name : OperationName) → ForeignCallback (name.Record × Scene σ)

namespace Resolver

variable {σ : Type}

/-! ## Exporting -/

/-- The failure text of an operation that panicked. -/
def panicText (name : OperationName) (p : CallbackPanic) : String :=
  "panic in " ++ name.text ++ ": " ++ p.message

def exportWalk (name : OperationName) (asked : Except CallbackPanic NavigationResult) :
    NavigationRecord :=
  match asked with
  | .ok result => .ofResult result
  | .error p => .ofResult (.error (.other (panicText name p)))

/-- A flag. A panic answers no. -/
def exportFlag (asked : Except CallbackPanic Bool) : Bool :=
  match asked with
  | .ok flag => flag
  | .error p => Failable.failure p

/-- A cache key. A panic answers the empty one. -/
def exportCacheKey (asked : Except CallbackPanic Text) : CString :=
  match asked with
  | .ok key => .ofText (String.ofList key)
  | .error _ => .ofText ""

/-- Asks for the configuration file, and sets its contents or the text of the failure. -/
def exportConfig (r : Resolver σ) (record : ConfigRecord) (s : Scene σ) :
    ConfigRecord × Scene σ :=
  match r.ask .config s with
  | (.ok (.ok contents), s) => ({ record with data := .ofBytes contents }, s)
  | (.ok (.error e), s) => ({ record with error := some (.ofText e.message) }, s)
  | (.error p, s) => ({ record with error := some (.ofText (panicText .config p)) }, s)

/-- Asks for the loaded function, and takes the reference out of its wrapper. -/
def exportLoad (r : Resolver σ) (record : LoadRecord) (s : Scene σ) : LoadRecord × Scene σ :=
  match r.ask (.load record.loader) s with
  | (.ok (.ok h), s) =>
    match Host.disarm h s.host with
    | .ok ref host => ({ record with function := some ref }, { s with host })
    | .error e host => ({ record with error := some (Host.errorRecord e) }, { s with host })
  | (.ok (.error e), s) => ({ record with error := some (Host.errorRecord e) }, s)
  | (.error p, s) => ({ record with error := some (.ofText (panicText .load p)) }, s)

/-- What a callback makes of its record. -/
def fillRecord (r : Resolver σ) : (name : OperationName) → name.Record → Scene σ →
    name.Record × Scene σ
  | .isAllowed, record, s =>
    let (asked, s) := r.ask (.isAllowed record.chunkName.text.toList) s
    ({ record with data := exportFlag asked }, s)
  | .reset, record, s =>
    let (asked, s) := r.ask (.reset record.path.text.toList) s
    ({ record with data := exportWalk .reset asked }, s)
  | .jumpToAlias, record, s =>
    let (asked, s) := r.ask (.jumpToAlias record.path.text.toList) s
    ({ record with data := exportWalk .jumpToAlias asked }, s)
  | .toParent, _, s =>
    let (asked, s) := r.ask .toParent s
    (⟨exportWalk .toParent asked⟩, s)
  | .toChild, record, s =>
    let (asked, s) := r.ask (.toChild record.path.text.toList) s
    ({ record with data := exportWalk .toChild asked }, s)
  | .hasModule, _, s =>
    let (asked, s) := r.ask .hasModule s
    (⟨exportFlag asked⟩, s)
  | .cacheKey, _, s =>
    let (asked, s) := r.ask .cacheKey s
    (⟨some (exportCacheKey asked)⟩, s)
  | .hasConfig, _, s =>
    let (asked, s) := r.ask .hasConfig s
    (⟨exportFlag asked⟩, s)
  | .config, record, s => r.exportConfig record s
  | .load, record, s => r.exportLoad record s

def exported (r : Resolver σ) : CallbackTable σ := fun name =>
  .new fun (record, s) => (r.fillRecord name record s, .returned ())

end Resolver

namespace CallbackTable

variable {σ : Type}

/-! ## Driving -/

def fill (table : CallbackTable σ) (name : OperationName) (record : name.Record) (s : Scene σ) :
    name.Record × Scene σ :=
  let ((record, s), log) := (table name).fill (record, s)
  (record, s.report log)

/-- The function that was handed over, or the failure. A function that comes with a failure is
closed. -/
def takeFunction (record : LoadRecord) : Host HandleId := do
  let function ← Host.wrap record.loader.vm .function record.function
  match record.error, function with
  | some message, some h =>
    Host.closeObject h
    throw (.native message.text)
  | some message, none => throw (.native message.text)
  | none, some h => return h
  | none, none => throw (.nullPointer "loaded function")

/-- What a configuration record answers. -/
def takeConfig (record : ConfigRecord) : Except IoError Bytes :=
  match CString.taken record.error with
  | some message => .error (.other message)
  | none => .ok (record.data.toBytes?.getD [])

/-- What a filled record answers. -/
def take : (op : Operation) → op.name.Record → Scene σ → op.Answer × Scene σ
  | .isAllowed _, record, s => (AllowedRecord.data record, s)
  | .reset _, record, s | .jumpToAlias _, record, s | .toChild _, record, s =>
    ((WalkRecord.data record).toResult, s)
  | .toParent, record, s => ((ParentRecord.data record).toResult, s)
  | .hasModule, record, s | .hasConfig, record, s => (FlagRecord.data record, s)
  | .cacheKey, record, s => (((CString.taken (CacheKeyRecord.data record)).getD "").toList, s)
  | .config, record, s => (takeConfig record, s)
  | .load _, record, s =>
    match takeFunction record s.host with
    | .ok h host => (.ok h, { s with host })
    | .error e host => (.error e, { s with host })

/-- A table of callbacks as a resolver. -/
def driven (table : CallbackTable σ) : Resolver σ := fun op s =>
  let (record, s) := table.fill op.name op.record s
  let (answer, s) := take op record s
  (.returned answer, s)

/-! ## Other tables -/

/-- A table whose callbacks are all missing: every record stays as it was made. -/
def missing : CallbackTable σ := fun _ =>
  ⟨none, 0⟩

/-- A table whose only callback hands over a function and fails at once. -/
def contradicting (message : String) : CallbackTable σ
  | .load => .new fun (record, s) =>
    let (ref, engine) := s.host.engine.create (.function (.chunk "" [] Engine.defaultLevel) none)
    let filled : LoadRecord :=
      { loader := LoadRecord.loader record, function := some ref, error := some (.ofText message) }
    ((filled, { s with host := { s.host with engine } }), .returned ())
  | _ => ⟨none, 0⟩

end CallbackTable

/-- A resolver on the other side of the engine's interface. -/
def Resolver.foreign {σ : Type} (r : Resolver σ) : Resolver σ :=
  CallbackTable.driven r.exported

end ScriptHost

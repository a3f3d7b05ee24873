/-
What the engine keeps: objects by number, and its own values, which name objects.
-/
import ScriptHost.Value.Raw

namespace ScriptHost

abbrev ObjectId := Nat

/-- A reference to an object that the engine handed out. Every one is given back on its own. -/
abbrev ReferenceId := Nat

abbrev MachineId := Nat

/-- A callback that the engine was given. -/
abbrev CallbackId := Nat

/-- The payload of a userdata, owned by the host. -/
abbrev PayloadId := Nat

/-- A value inside the engine. -/
abbrev Datum := RawValue ObjectId

/-- A value on its way between host and engine. An object crosses as a reference, or as null. -/
abbrev Crossing := RawValue (Option ReferenceId)

/-- The reference that a value carries. -/
def RawValue.carried : Crossing → List ReferenceId
  | .object _ (some ref) => [ref]
  | _ => []

/-- The references that the values of a list carry. -/
def RawList.carried (list : RawList (Option ReferenceId)) : List ReferenceId :=
  list.flatMap RawValue.carried

inductive FunctionBody where
  | host (callback : CallbackId)
  /-- A loaded chunk answers with its name, its code and the level it was compiled at. -/
  | chunk (name : String) (code : Bytes) (level : UInt8)
  deriving DecidableEq, Repr

/-- An object and what it holds. -/
inductive Object where
  | string (bytes : Bytes)
  /-- Entries in the order of their last writing, and a metatable. -/
  | table (entries : List (Datum × Datum)) (metatable : Option ObjectId)
  | function (body : FunctionBody) (environment : Option ObjectId)
  | buffer (bytes : Bytes)
  | userdata (payload : PayloadId)
  deriving DecidableEq, Repr

/-- The object a value names. -/
def RawValue.objectId? : Datum → Option ObjectId
  | .object _ id => some id
  | _ => none

namespace Object

def emptyTable : Object :=
  .table [] none

/-- Every object that an object keeps alive, as often as it does. -/
def held : Object → List ObjectId
  | table entries metatable =>
    entries.flatMap (fun (k, v) => k.objectId?.toList ++ v.objectId?.toList) ++ metatable.toList
  | function _ environment => environment.toList
  | _ => []

/-- The callback that an object keeps alive. -/
def callback? : Object → Option CallbackId
  | function (.host c) _ => some c
  | _ => none

end Object
end ScriptHost

/-
Values as the host holds them. An object or an error is held by the number of its handle, so that
all copies of a value close together.
-/
import ScriptHost.Value.Kind

namespace ScriptHost

abbrev HandleId := Nat

abbrev ErrorId := Nat

/-- A value of the host. Numbers are kept by their bits. -/
inductive Value where
  | nil
  | boolean (value : Bool)
  | lightUserdata (address : UInt64)
  | integer (value : Int64)
  | number (bits : UInt64)
  | vector (x y z : UInt32)
  | object (kind : ObjectKind) (handle : HandleId)
  | error (handle : ErrorId)
  /-- A value of a type that the host does not know. -/
  | other
  deriving DecidableEq, Repr

namespace Value

def kind : Value → ValueKind
  | nil => .nil
  | boolean _ => .boolean
  | lightUserdata _ => .lightUserdata
  | integer _ => .integer
  | number _ => .number
  | vector .. => .vector
  | object k _ => k.toValueKind
  | error _ => .error
  | other => .other

def object? : Value → Option HandleId
  | object _ h => some h
  | _ => none

def error? : Value → Option ErrorId
  | error e => some e
  | _ => none

end Value
end ScriptHost

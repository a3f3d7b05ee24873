/-
Values in the engine's layout, and the lists in which arguments and results cross. An object crosses
as an owned reference: whoever takes the value has to release it. A list that is freed releases none.
-/
import ScriptHost.Value.Kind
import ScriptHost.Log

namespace ScriptHost

/-- A tagged value, over some type of pointers to objects. Numbers are kept by their bits. -/
inductive RawValue (π : Type) where
  | nil
  | boolean (value : Bool)
  | lightUserdata (address : UInt64)
  | integer (value : Int64)
  | number (bits : UInt64)
  | vector (x y z : UInt32)
  | object (kind : ObjectKind) (pointer : π)
  | error (message : Bytes)
  | other
  deriving DecidableEq, Repr

namespace RawValue

variable {π : Type}

def kind : RawValue π → ValueKind
  | nil => .nil
  | boolean _ => .boolean
  | lightUserdata _ => .lightUserdata
  | integer _ => .integer
  | number _ => .number
  | vector .. => .vector
  | object k _ => k.toValueKind
  | error _ => .error
  | other => .other

def isObject : RawValue π → Bool
  | object .. => true
  | _ => false

/-- A value that names no object, over any type of pointers; an object is null. -/
def withoutObjects : RawValue Unit → RawValue (Option π)
  | nil => .nil
  | boolean b => .boolean b
  | lightUserdata a => .lightUserdata a
  | integer n => .integer n
  | number bits => .number bits
  | vector x y z => .vector x y z
  | object k () => .object k none
  | error m => .error m
  | other => .other

end RawValue

/-- Values in order, the first to be taken first. -/
abbrev RawList (π : Type) := List (RawValue π)

namespace RawList

variable {π : Type}

def push (list : RawList π) (value : RawValue π) : RawList π :=
  list ++ [value]

/-- The first value and the others, none of an empty list. -/
def pop (list : RawList π) : Option (RawValue π × RawList π) :=
  match list with
  | [] => none
  | first :: rest => some (first, rest)

def references (list : RawList π) : Nat :=
  list.countP RawValue.isObject

/-- What freeing a list reports: the references still in it, which nobody can release any more. -/
def freeLog (list : RawList π) : List LogEvent :=
  if references list = 0 then [] else [.leakedReferences (references list)]

/-- The list behind a pointer, empty for null. -/
def ofPointer (list : Option (RawList π)) : RawList π :=
  list.getD []

end RawList

/-! ## Lists driven step by step -/

/-- A step on a list that the engine holds by pointer. -/
inductive ListStep (π : Type) where
  | push (value : RawValue π)
  | pop
  /-- Asks for the first value without a place to put it. -/
  | popNowhere
  | isEmpty

inductive ListAnswer (π : Type) where
  | nothing
  | flag (value : Bool)
  | value (value : RawValue π)

namespace ListStep

variable {π : Type}

/-- One step. A null pointer takes no value and gives none. -/
def run (list : Option (RawList π)) : ListStep π → ListAnswer π × Option (RawList π)
  | push value => (.nothing, list.map (RawList.push · value))
  | pop =>
    match list.bind RawList.pop with
    | none => (.flag false, list)
    | some (first, rest) => (.value first, some rest)
  | popNowhere => (.flag false, list)
  | isEmpty =>
    match list with
    | none => (.nothing, list)
    | some items => (.flag items.isEmpty, list)

end ListStep
end ScriptHost

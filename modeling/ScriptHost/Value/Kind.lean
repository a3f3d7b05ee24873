/-
The kinds of values that cross between host and engine.
-/
namespace ScriptHost

/-- The kinds of values that the engine owns. -/
inductive ObjectKind where
  | string
  | table
  | function
  | thread
  | userdata
  | buffer
  deriving DecidableEq, Repr

/-- All kinds, in the order of their tags. -/
inductive ValueKind where
  | nil
  | boolean
  | lightUserdata
  | integer
  | number
  | vector
  | string
  | table
  | function
  | thread
  | userdata
  | buffer
  | error
  | other
  deriving DecidableEq, Repr

namespace ObjectKind

def toValueKind : ObjectKind → ValueKind
  | string => .string
  | table => .table
  | function => .function
  | thread => .thread
  | userdata => .userdata
  | buffer => .buffer

end ObjectKind

namespace ValueKind

/-- The name a kind has in scripts and messages. -/
def name : ValueKind → String
  | nil => "nil"
  | boolean => "boolean"
  | lightUserdata => "lightuserdata"
  | integer => "integer"
  | number => "number"
  | vector => "vector"
  | string => "string"
  | table => "table"
  | function => "function"
  | thread => "thread"
  | userdata => "userdata"
  | buffer => "buffer"
  | error => "error"
  | other => "other"

/-- The number a kind crosses with. -/
def tag : ValueKind → Nat
  | nil => 0
  | boolean => 1
  | lightUserdata => 2
  | integer => 3
  | number => 4
  | vector => 5
  | string => 6
  | table => 7
  | function => 8
  | thread => 9
  | userdata => 10
  | buffer => 11
  | error => 12
  | other => 13

def tagName : ValueKind → String
  | nil => "Nil"
  | boolean => "Boolean"
  | lightUserdata => "LightUserData"
  | integer => "Integer"
  | number => "Number"
  | vector => "Vector"
  | string => "String"
  | table => "Table"
  | function => "Function"
  | thread => "Thread"
  | userdata => "UserData"
  | buffer => "Buffer"
  | error => "Error"
  | other => "Other"

def all : List ValueKind :=
  [nil, boolean, lightUserdata, integer, number, vector, string, table, function, thread, userdata,
    buffer, error, other]

/-- The kind of object, for the kinds that the engine owns. -/
def toObjectKind? : ValueKind → Option ObjectKind
  | string => some .string
  | table => some .table
  | function => some .function
  | thread => some .thread
  | userdata => some .userdata
  | buffer => some .buffer
  | _ => none

theorem mem_all (k : ValueKind) : k ∈ all := by
  cases k <;> simp [all]

@[simp] theorem toObjectKind?_toValueKind (k : ObjectKind) :
    k.toValueKind.toObjectKind? = some k := by
  cases k <;> rfl

end ValueKind

def ObjectKind.name (k : ObjectKind) : String :=
  k.toValueKind.name

end ScriptHost

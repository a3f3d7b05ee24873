/-
Arguments and results by position. Positions are 64-bit words from zero; messages count from one,
in the same words, which have no number for the last position.
-/
import ScriptHost.Value.Basic
import ScriptHost.Error
import ScriptHost.Number

namespace ScriptHost

/-- Arguments or results of a call, the first one first. -/
abbrev Arguments := List Value

namespace Value

/-- An integer as it is, a number without its fraction. -/
def toInteger? : Value → Option Int64
  | integer n => some n
  | number bits => some (Number.toInt bits)
  | _ => none

/-- A number as it is, an integer as the nearest number. -/
def toNumber? : Value → Option UInt64
  | number bits => some bits
  | integer n => some (Number.ofInt n)
  | _ => none

def toFunction? : Value → Option HandleId
  | object .function h => some h
  | _ => none

end Value

/-- What an argument is taken as. -/
inductive Accessor where
  | value
  | boolean
  | integer
  | number
  | string
  | table
  | function
  | userdata
  deriving DecidableEq, Repr

namespace Accessor

/-- What a message calls the values that an accessor takes. -/
def expected : Accessor → String
  | value => "value"
  | boolean => "boolean"
  | integer => "integer"
  | number => "number"
  | string => "string"
  | table => "table"
  | function => "function"
  | userdata => "userdata"

/-- A value taken as what the accessor asks for, none if it is something else. -/
def take? : Accessor → Value → Option Value
  | value, v => some v
  | boolean, .boolean b => some (.boolean b)
  | integer, v => v.toInteger?.map .integer
  | number, v => v.toNumber?.map .number
  | string, .object .string h => some (.object .string h)
  | table, .object .table h => some (.object .table h)
  | function, v => v.toFunction?.map (.object .function)
  | userdata, .object .userdata h => some (.object .userdata h)
  | _, _ => none

end Accessor

namespace Arguments

/-- How messages number a position. After the last word there is none: the sum panics. -/
def position (index : UInt64) : Except Error Nat :=
  if index.toNat + 1 < UInt64.size then .ok (index.toNat + 1)
  else .error (.ofPanic .overflow)

/-- The argument at a position. The number for the message is worked out before it is known whether
there will be one. -/
def valueAt (args : Arguments) (index : UInt64) : Except Error Value := do
  let expected ← position index
  match args[index.toNat]? with
  | some v => .ok v
  | none => .error (.missingValue expected args.length)

/-- The argument at a position as `read` sees it, which takes what a message calls `expected`. -/
def readAt {α : Type} (args : Arguments) (read : Value → Option α) (expected : String)
    (index : UInt64) : Except Error α := do
  let v ← args.valueAt index
  match read v with
  | some a => .ok a
  | none => do
    let number ← position index
    .error (.typeMismatch number expected v.kind.name)

/-- The argument at a position, as what an accessor asks for. -/
def takeAt (args : Arguments) (accessor : Accessor) (index : UInt64) : Except Error Value :=
  args.readAt accessor.take? accessor.expected index

def integerAt (args : Arguments) (index : UInt64) : Except Error Int64 :=
  args.readAt Value.toInteger? Accessor.integer.expected index

def functionAt (args : Arguments) (index : UInt64) : Except Error HandleId :=
  args.readAt Value.toFunction? Accessor.function.expected index

end Arguments
end ScriptHost

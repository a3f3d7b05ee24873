/-
Tables as lists of entries. Strings match as keys by their contents, other objects by identity, and
an integer matches the number it is nearest to. Some values match no key, not even themselves.
-/
import ScriptHost.Engine.Object
import ScriptHost.Number

namespace ScriptHost

/-- What a value is compared by when it is a key. -/
inductive Key where
  | boolean (value : Bool)
  | integer (value : Int64)
  | number (bits : UInt64)
  | lightUserdata (address : UInt64)
  | string (bytes : Bytes)
  | object (id : ObjectId)
  deriving DecidableEq, Repr

namespace Key

def same : Key → Key → Bool
  | number a, number b => Number.same a b
  | integer a, number b => Number.same (Number.ofInt a) b
  | number a, integer b => Number.same a (Number.ofInt b)
  | a, b => a = b

end Key

/-- The entries of a table, in the order of their last writing. -/
abbrev Entries := List (Datum × Datum)

namespace Entries

variable (keyOf : Datum → Option Key)

/-- Whether an entry is the one under a key. -/
def isUnder (key : Option Key) (entry : Datum × Datum) : Bool :=
  match key, keyOf entry.1 with
  | some k, some k' => k'.same k
  | _, _ => false

/-- The value under a key, nil if there is none. -/
def get (entries : Entries) (key : Option Key) : Datum :=
  ((entries.find? (isUnder keyOf key)).map (·.2)).getD .nil

/-- The entries with a value set. The entry under the key goes; what is set comes last, and nil
is not kept. -/
def set (entries : Entries) (key value : Datum) : Entries :=
  let others := entries.filter fun entry => !isUnder keyOf (keyOf key) entry
  if value = .nil then others else others ++ [(key, value)]

/-- How many of the integer keys from `first` on are present without a gap, counting to at most
`bound`. -/
def run (entries : Entries) (first : Nat) : (bound : Nat) → Nat
  | 0 => 0
  | bound + 1 =>
    if get keyOf entries (some (.integer (.ofNat first))) = .nil then 0
    else run entries (first + 1) bound + 1

/-- The length: how many of the keys 1, 2, 3, … are present without a gap. There are no more of
them than entries. -/
def length (entries : Entries) : Nat :=
  run keyOf entries 1 (List.length entries)

end Entries
end ScriptHost

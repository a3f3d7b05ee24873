/-
Ends of work that comes to nothing: panics, which go up through all that is under way, and work that
never ends.
-/

namespace ScriptHost

/-- What a panic carries. -/
inductive Panic where
  | text (message : String)
  /-- Something that cannot be shown. -/
  | unknown
  deriving DecidableEq, Repr

namespace Panic

def message : Panic → String
  | text m => m
  | unknown => "unknown panic reason"

/-- The panic of a sum of words that is too large for a word. -/
def overflow : Panic :=
  text "attempt to add with overflow"

end Panic

/-- How work ends that comes to nothing: to no value, and to no error that anyone is given. -/
inductive Abort where
  /-- A panic goes up through all that is under way, until it is recovered. -/
  | panic (panic : Panic)
  /-- The work goes on for ever. -/
  | endless
  deriving DecidableEq, Repr

def Abort.message : Abort → String
  | panic p => p.message
  | endless => ""

end ScriptHost

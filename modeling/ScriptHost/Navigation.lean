/-
How a step of navigation can end, and the record in which its result crosses to the engine.
-/
import ScriptHost.Text.CString

namespace ScriptHost

inductive NavigateError where
  | ambiguous
  | notFound
  | other (message : String)
  deriving DecidableEq, Repr

namespace NavigateError

def message : NavigateError → String
  | ambiguous => "ambiguous module path"
  | notFound => "module not found"
  | other m => m

end NavigateError

/-- Success says no more than that the step landed. -/
abbrev NavigationResult := Except NavigateError Unit

/-- A result in the engine's layout. Nothing set means success. -/
structure NavigationRecord where
  notFound : Bool
  ambiguous : Bool
  other : Option CString
  deriving DecidableEq, Repr

namespace NavigationRecord

def success : NavigationRecord :=
  ⟨false, false, none⟩

def ofResult : NavigationResult → NavigationRecord
  | .ok () => success
  | .error .notFound => { success with notFound := true }
  | .error .ambiguous => { success with ambiguous := true }
  | .error (.other m) => { success with other := some (.ofText m) }

/-- The result a record stands for. What was not found is not ambiguous, and neither has a text. -/
def toResult (r : NavigationRecord) : NavigationResult :=
  if r.notFound then .error .notFound
  else if r.ambiguous then .error .ambiguous
  else match r.other with
    | some text => .error (.other text.text)
    | none => .ok ()

end NavigationRecord
end ScriptHost

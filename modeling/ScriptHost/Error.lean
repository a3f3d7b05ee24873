/-
Everything that can go wrong with a handle, a value or a call, by cause, and the text of each cause. Work
that is aborted ends with no value either, but it has no cause to tell.
-/
import ScriptHost.IoError
import ScriptHost.Panic

namespace ScriptHost

/-- Why the payload of a userdata cannot be borrowed. -/
inductive BorrowError where
  | alreadyMutable
  | alreadyImmutable
  | wrongType (name : String)
  deriving DecidableEq, Repr

def BorrowError.message : BorrowError → String
  | alreadyMutable => "Cannot borrow userdata, is already mutably borrowed."
  | alreadyImmutable => "Cannot mutably borrow userdata, is already borrowed."
  | wrongType name => "userdata is not of type " ++ name

/-- Failures of handles, wrappers and callbacks. -/
inductive Error where
  | closedObject
  /-- The handle is in use, so the action could not have it alone. -/
  | recursiveLock (action : String)
  | disarmClosed
  /-- The machine that owns the object is closed. -/
  | vmClosed (action : String)
  | foreignVm (kind : String)
  | nullPointer (what : String)
  /-- A host callback failed or panicked. -/
  | callback (message : String)
  | native (message : String)
  | borrow (cause : BorrowError)
  | missingValue (expected got : Nat)
  | typeMismatch (index : Nat) (expected got : String)
  | closeMany (causes : List Error)
  | outOfBounds (offset length size : Nat)
  | io (cause : IoError)
  /-- No failure that is given to anyone. It goes the way of a failure, up to whoever recovers it. -/
  | abort (how : Abort)
  deriving Repr

namespace Error

/-- The end of work that panics. -/
def ofPanic (p : Panic) : Error :=
  abort (.panic p)

mutual

def message : Error → String
  | closedObject => "cannot use closed object"
  | recursiveLock action => "recursive lock detected, cannot " ++ action ++ " object"
  | disarmClosed => "cannot disarm closed object"
  | vmClosed action => "cannot " ++ action ++ " on closed Lua VM"
  | foreignVm kind => "cannot use " ++ kind ++ " from a different Lua instance"
  | nullPointer what => what ++ " pointer is null"
  | callback m => m
  | native m => m
  | borrow cause => cause.message
  | missingValue expected got =>
    "expected at least " ++ toString expected ++ " values but got " ++ toString got ++ " values"
  | typeMismatch index expected got =>
    "expected arg #" ++ toString index ++ " to be a " ++ expected ++ ", but got " ++ got
  | closeMany causes =>
    "multiple errors occurred while closing values: " ++ "; ".intercalate (messages causes)
  | outOfBounds offset length size =>
    "range " ++ toString offset ++ ".." ++ toString offset ++ "+" ++ toString length ++
      " out of bounds for buffer of " ++ toString size ++ " bytes"
  | io cause => "IO error: " ++ cause.message
  | abort how => how.message

def messages : List Error → List String
  | [] => []
  | e :: es => message e :: messages es

end

/-- What the engine's error text means: none is success. -/
def ofEngine (text : Option String) : Except Error Unit :=
  match text with
  | none => .ok ()
  | some m => .error (.native m)

/-- The failure of closing several values: none, the only one as it is, or all together. -/
def together (causes : List Error) : Except Error Unit :=
  match causes with
  | [] => .ok ()
  | [cause] => .error cause
  | _ => .error (.closeMany causes)

end Error
end ScriptHost

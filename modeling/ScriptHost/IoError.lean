/-
Failures of file access: their kind, and a text that is either the library's own or the one of the
operating system.
-/
import ScriptHost.Text.Utf8

namespace ScriptHost

inductive IoErrorKind where
  | notFound
  | isADirectory
  | notADirectory
  | invalidInput
  | invalidFilename
  | other
  deriving DecidableEq, Repr

/-- What the operating system says when an access fails, and the number it gives. -/
def IoErrorKind.systemMessage : IoErrorKind → String
  | .notFound => "No such file or directory (os error 2)"
  | .isADirectory => "Is a directory (os error 21)"
  | .notADirectory => "Not a directory (os error 20)"
  | .invalidInput => "Invalid argument (os error 22)"
  | .invalidFilename => "File name too long (os error 36)"
  | .other => "Input/output error (os error 5)"

/-- A failed access. Without a detail it was the operating system that failed it. -/
structure IoError where
  kind : IoErrorKind
  detail : Option String
  deriving DecidableEq, Repr

namespace IoError

/-- A failure of the operating system. -/
def system (kind : IoErrorKind) : IoError :=
  ⟨kind, none⟩

/-- A failure with a text and no kind of its own. -/
def other (message : String) : IoError :=
  ⟨.other, some message⟩

def notFound (path : Text) : IoError :=
  ⟨.notFound, some (String.ofList path ++ ": no such file or directory")⟩

/-- A name with a zero character in it, which the operating system is not even asked for. -/
def zeroInName : IoError :=
  ⟨.invalidInput, some "file name contained an unexpected NUL byte"⟩

def message (e : IoError) : String :=
  e.detail.getD e.kind.systemMessage

@[simp] theorem message_other (m : String) : (other m).message = m := rfl

end IoError
end ScriptHost

/-
Paths as texts: splitting at either separator, absolute paths with or without a drive, and the
normal form in which `.` and `..` are resolved and every separator is `/`.
-/
import ScriptHost.Text.Utf8

namespace ScriptHost.Path

/-! ## Components -/

/-- Both slashes separate components. -/
def isSeparator (c : Char) : Bool :=
  c = '/' || c = '\\'

/-- The texts between the separators. Empty components are kept, so there is always one. -/
def split : Text → List Text
  | [] => [[]]
  | c :: cs =>
    if isSeparator c then [] :: split cs
    else match split cs with
      | [] => [[c]]
      | first :: rest => (c :: first) :: rest

/-- The parts with a `/` between any two of them. -/
def join (parts : List Text) : Text :=
  List.intercalate ['/'] parts

def here : Text := ['.']

def up : Text := ['.', '.']

/-! ## Absolute paths -/

/-- A path is absolute if it starts with a separator, or with a drive letter, a colon and a
separator. -/
def isAbsolute : Text → Bool
  | [] => false
  | c :: rest =>
    isSeparator c || (c.isAlpha && match rest with
      | ':' :: s :: _ => isSeparator s
      | _ => false)

/-! ## Normal form -/

/-- One more component on a stack of resolved ones, the last of them on top. A `..` takes the name
below it away. Where there is none, it stays, but for an absolute path, which has nothing above. -/
def resolveComponent (absolute : Bool) (stack : List Text) (component : Text) : List Text :=
  if component = up then
    match stack with
    | [] => if absolute then [] else [up]
    | top :: below => if top = up then up :: stack else below
  else if component = [] ∨ component = here then stack
  else component :: stack

/-- The components that are left when every `.` and `..` has been resolved. -/
def resolve (absolute : Bool) (components : List Text) : List Text :=
  (components.foldl (resolveComponent absolute) []).reverse

/-- A path that ends in `..` gets a closing slash. -/
def closeUp (path : Text) : Text :=
  if up.isSuffixOf path then path ++ ['/'] else path

/-- The normal form: separators are `/`, there is no `.` or `..` but for leading `..` in a relative
path, and a relative path starts with `./` or `..`. -/
def normalize (path : Text) : Text :=
  if isAbsolute path then
    match split path with
    | [] => []
    | drive :: components => closeUp (drive ++ '/' :: join (resolve true components))
  else
    let components := resolve false (split path)
    let lead := if components.head? = some up then [] else ['.', '/']
    closeUp (lead ++ join components)

/-! ## Small facts -/

@[simp] theorem split_nil : split [] = [[]] := rfl

theorem split_ne_nil (path : Text) : split path ≠ [] := by
  cases path with
  | nil => simp
  | cons c cs =>
    simp only [split]
    split
    · simp
    · split <;> simp

@[simp] theorem join_nil : join [] = [] := rfl

@[simp] theorem join_singleton (part : Text) : join [part] = part := by
  simp [join, List.intercalate]

example : normalize "a/./b/../c".toList = "./a/c".toList := by decide +kernel
example : normalize "..".toList = "../".toList := by decide +kernel
example : normalize "C:\\x\\..\\y".toList = "C:/y".toList := by decide +kernel

end ScriptHost.Path

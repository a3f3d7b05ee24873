/-
Which place a path names. A relative path names the place its names come to, and none if they lead
above the root; a path from the root always names one, but a first name that ends in a colon is taken
for a drive and dropped. Where no such name stands first, `./x` and `/x` name the same place
(`ofPath_slash_of_dot_slash`).
-/
import ScriptHost.Proofs.Path.FixedPoints
import ScriptHost.FileTree

namespace ScriptHost

open ScriptHost.Path

namespace FileKey

/-! ## Names of drives -/

/-- Whether a name looks like a drive. -/
def IsDrive (name : Text) : Prop :=
  name.getLast? = some ':'

instance : DecidablePred IsDrive := fun name =>
  inferInstanceAs (Decidable (name.getLast? = some ':'))

/-- A key without a drive at its head. -/
def withoutDrive : FileKey → FileKey
  | [] => []
  | first :: rest => if first.getLast? = some ':' then rest else first :: rest

theorem withoutDrive_of_head {key : FileKey} (h : ∀ first ∈ key.head?, ¬ IsDrive first) :
    withoutDrive key = key := by
  cases key with
  | nil => rfl
  | cons first rest => exact if_neg (h first (by simp))

theorem withoutDrive_cons {first : Text} (drive : IsDrive first) (rest : List Text) :
    withoutDrive (first :: rest) = rest :=
  if_pos drive

theorem withoutDrive_append {key : FileKey} (ne : key ≠ []) (more : List Text) :
    withoutDrive (key ++ more) = withoutDrive key ++ more := by
  obtain ⟨first, rest, rfl⟩ := List.exists_cons_of_ne_nil ne
  simp only [List.cons_append, withoutDrive]
  split <;> rfl

theorem withoutDrive_concat {name : Text} (noDrive : ¬ IsDrive name) (key : FileKey) :
    withoutDrive (key ++ [name]) = withoutDrive key ++ [name] := by
  by_cases none : key = []
  · rw [none]
    exact withoutDrive_of_head (by simpa using noDrive)
  · exact withoutDrive_append none [name]

theorem withoutDrive_suffix (key : FileKey) : withoutDrive key <:+ key := by
  cases key with
  | nil => exact List.suffix_rfl
  | cons first rest =>
    simp only [withoutDrive]
    split
    · exact List.suffix_cons first rest
    · exact List.suffix_rfl

theorem mem_of_mem_withoutDrive {key : FileKey} {name : Text} (h : name ∈ withoutDrive key) :
    name ∈ key :=
  (withoutDrive_suffix key).subset h

/-! ## The place a path names -/

theorem ofPath_eq (path : Text) :
    ofPath path =
      let below :=
        if isAbsolute path then withoutDrive (names (normalize path)) else names (normalize path)
      if up ∈ below then none else some below := by
  have places : ((split (normalize path)).filter fun name => !name.isEmpty && name ≠ here) =
      names (normalize path) := rfl
  simp only [ofPath, places, isAbsolute_normalize]
  cases names (normalize path) with
  | nil => simp [withoutDrive]
  | cons first rest => cases isAbsolute path <;> simp [withoutDrive]

/-- Normalizing does not change what a path names. -/
theorem ofPath_normalize (path : Text) : ofPath (normalize path) = ofPath path := by
  rw [ofPath_eq, ofPath_eq path, isAbsolute_normalize, normalize_normalize]

theorem ofPath_of_relative {path : Text} (h : isAbsolute path = false) :
    ofPath path =
      if up ∈ resolve false (names path) then none else some (resolve false (names path)) := by
  simp [ofPath_eq, h, names_normalize_of_relative h]

theorem ofPath_of_separator {c : Char} (h : isSeparator c = true) (path : Text) :
    ofPath (c :: path) = some (withoutDrive (resolve true (names path))) := by
  have stays : up ∉ withoutDrive (resolve true (names path)) := fun hm =>
    up_notMem_resolve_true _ (mem_of_mem_withoutDrive hm)
  simp [ofPath_eq, isAbsolute_of_separator h, names_normalize_of_separator h, stays]

theorem ofPath_slash (path : Text) :
    ofPath ('/' :: path) = some (withoutDrive (resolve true (names path))) :=
  ofPath_of_separator rfl path

/-- Behind a drive every name counts. -/
theorem ofPath_drive {d s : Char} (alpha : d.isAlpha = true) (separates : isSeparator s = true)
    (path : Text) : ofPath (d :: ':' :: s :: path) = some (resolve true (names path)) := by
  have drive : IsDrive [d, ':'] := rfl
  rw [ofPath_eq, isAbsolute_drive alpha separates, names_normalize_of_drive alpha separates]
  simp only [if_true, withoutDrive_cons drive, if_neg (up_notMem_resolve_true _)]

/-- An absolute path names a place. -/
theorem exists_ofPath_of_isAbsolute {path : Text} (h : isAbsolute path = true) :
    ∃ key, ofPath path = some key := by
  rcases isAbsolute_cases h with ⟨c, rest, separates, rfl⟩ | ⟨d, s, rest, alpha, separates, rfl⟩
  · exact ⟨_, ofPath_of_separator separates rest⟩
  · exact ⟨_, ofPath_drive alpha separates rest⟩

theorem ofPath_dot_slash (path : Text) :
    ofPath ('.' :: '/' :: path) =
      if up ∈ resolve false (names path) then none else some (resolve false (names path)) := by
  rw [ofPath_of_relative (isAbsolute_dot _), names_here_slash]

/-- Nothing lies above the root. -/
@[simp] theorem ofPath_up_slash (path : Text) : ofPath ('.' :: '.' :: '/' :: path) = none := by
  rw [ofPath_of_relative (isAbsolute_dot _), names_up_slash, if_pos (up_mem_resolve_false_up _)]

@[simp] theorem ofPath_up : ofPath up = none := by decide +kernel

@[simp] theorem ofPath_nil : ofPath [] = some [] := by decide +kernel

/-- What `./x` names, `/x` names too, drives aside. -/
theorem ofPath_slash_of_dot_slash {path : Text} {key : FileKey}
    (h : ofPath ('.' :: '/' :: path) = some key) :
    ofPath ('/' :: path) = some (withoutDrive key) := by
  rw [ofPath_dot_slash] at h
  split at h
  · cases h
  · next stays =>
    cases h
    rw [ofPath_slash, resolve_false_of_notMem stays]

/-- Only the names of a path count, and one more of them is one more name of the place. -/
theorem ofPath_dot_slash_of_names {path longer name : Text} (h : names longer = names path ++ [name])
    (isName : isName name = true) (down : name ≠ up) :
    ofPath ('.' :: '/' :: longer) = (ofPath ('.' :: '/' :: path)).map (· ++ [name]) := by
  simp only [ofPath_dot_slash, h, resolve_append_name isName down, List.mem_append,
    List.mem_singleton, Ne.symm down, or_false]
  split <;> rfl

end FileKey
end ScriptHost

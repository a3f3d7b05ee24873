/-
The module path of a cursor from the root. It was a normal form, or it was one before its ending was
cut off. So all its components are names, but for the last one, of which anything may be left
(`Rooted`), and with the usual path arithmetic every move keeps it so (`Anchored.move`).
-/
import ScriptHost.Proofs.Cursor.Agreement

namespace ScriptHost.Cursor

open ScriptHost.Path

/-- Nothing, or a path from the root with a name for every component but the last. -/
def Rooted (modulePath : Text) : Prop :=
  modulePath = [] ∨ ∃ rest, modulePath = '/' :: rest ∧ '\\' ∉ rest ∧
    ∀ name ∈ (split rest).dropLast, isName name = true ∧ name ≠ up

theorem rooted_root : Rooted root :=
  .inr ⟨[], rfl, by simp, by simp⟩

theorem Rooted.of_append {modulePath ending : Text} (h : Rooted (modulePath ++ ending)) :
    Rooted modulePath := by
  rcases h with none | ⟨rest, eq, slashes, names⟩
  · exact .inl (List.append_eq_nil_iff.mp none).1
  · cases modulePath with
    | nil => exact .inl rfl
    | cons c m =>
      rw [List.cons_append, List.cons.injEq] at eq
      obtain ⟨rfl, rfl⟩ := eq
      refine .inr ⟨m, rfl, fun mem => slashes (by simp [mem]), fun name mem => names name ?_⟩
      exact (dropLast_split_isPrefix m ending).subset mem

theorem Rooted.stripModuleSuffix {path : Text} (h : Rooted path) :
    Rooted (stripModuleSuffix path) := by
  obtain ⟨ending, eq, -⟩ := exists_ending path
  exact .of_append (eq ▸ h)

theorem Rooted.moduleOf {path : Text} (h : Rooted path) : Rooted (moduleOf path) := by
  unfold Cursor.moduleOf
  split
  · exact .inl rfl
  · exact h.stripModuleSuffix

theorem Rooted.orRoot {modulePath : Text} (h : Rooted modulePath) : Rooted (orRoot modulePath) := by
  cases modulePath with
  | nil => exact rooted_root
  | cons c rest => exact h

/-! ## Normal forms -/

theorem rooted_closeUp {key : List Text}
    (down : ∀ name ∈ key, Unbroken name ∧ isName name = true ∧ name ≠ up) :
    Rooted (closeUp ('/' :: join key)) := by
  by_cases none : key = []
  · subst none
    exact rooted_root
  have slashes : '\\' ∉ join key := backslash_notMem_join fun _ mem => (down _ mem).1
  have split : split (join key) = key := split_join none fun name mem => (down name mem).1
  have closed : Rooted ('/' :: join key ++ ['/']) := by
    refine .inr ⟨join key ++ ['/'], rfl, by simpa using slashes, ?_⟩
    rw [split_append_slash, split, split_nil, List.dropLast_concat]
    exact fun _ mem => (down _ mem).2
  rcases closeUp_eq ('/' :: join key) with e | e
  · rw [e]
    exact closed.of_append
  · rw [e]
    exact closed

theorem rooted_closeUp_resolve (path : Text) :
    Rooted (closeUp ('/' :: join (resolve true (names path)))) :=
  rooted_closeUp fun _ mem => ⟨unbroken_of_mem_resolve mem, (mem_of_mem_resolve mem).2,
    fun e => up_notMem_resolve_true _ (e ▸ mem)⟩

theorem rooted_normalize_slash (path : Text) : Rooted (normalize ('/' :: path)) := by
  rw [normalize_slash]
  exact rooted_closeUp_resolve path

theorem rooted_fromRoot_normalize {path : Text} (h : isAbsolute path = true) :
    Rooted (fromRoot (normalize path)) := by
  obtain ⟨rest, e⟩ := exists_fromRoot_normalize h
  rw [e]
  exact rooted_normalize_slash rest

/-- Where a path from the root goes on behind a slash, there is a name before it. -/
theorem names_ne_nil_of_slash {path : Text} (rooted : Rooted ('/' :: path)) (more : '/' ∈ path) :
    names path ≠ [] := by
  obtain none | ⟨rest, eq, -, front⟩ := rooted
  · cases none
  · obtain rfl := (List.cons.inj eq).2
    obtain ⟨before, behind, rfl⟩ := List.append_of_mem more
    rw [split_append_slash, List.dropLast_append_of_ne_nil (split_ne_nil behind)] at front
    obtain ⟨first, mem⟩ := List.exists_mem_of_ne_nil _ (split_ne_nil before)
    have isName := (front first (List.mem_append_left _ mem)).1
    rw [names_append_slash]
    exact List.append_ne_nil_of_left_ne_nil
      (List.ne_nil_of_mem (List.mem_filter.mpr ⟨mem, isName⟩)) _

/-! ## The components of a rooted module path -/

/-- A module path from the root: names, and then a last component. -/
structure Parts (modulePath : Text) (front : List Text) (last : Text) : Prop where
  eq : modulePath = '/' :: join (front ++ [last])
  unbroken : ∀ part ∈ front ++ [last], Unbroken part
  names : ∀ name ∈ front, isName name = true ∧ name ≠ up

theorem Rooted.exists_parts {modulePath : Text} (h : Rooted modulePath) (ne : modulePath ≠ []) :
    ∃ front last, Parts modulePath front last := by
  rcases h with none | ⟨rest, eq, slashes, names⟩
  · exact absurd none ne
  · have all := List.dropLast_concat_getLast (split_ne_nil rest)
    refine ⟨(split rest).dropLast, (split rest).getLast (split_ne_nil rest), ?_, ?_, names⟩
    · rw [all, join_split slashes, eq]
    · rw [all]
      exact fun _ => unbroken_of_mem_split

namespace Parts

variable {modulePath last : Text} {front : List Text} (h : Parts modulePath front last)

include h

theorem lastComponent_eq : lastComponent modulePath = last := by
  obtain ⟨before, eq⟩ := exists_slash_join front last
  have whole : '/' ∉ last := fun mem => absurd (h.unbroken last (by simp) '/' mem) (by decide)
  rw [h.eq, eq, lastComponent_append_slash before whole]

theorem names_eq : Path.names modulePath = front ++ [last].filter isName := by
  rw [h.eq, names_slash, Path.names, split_join (by simp) h.unbroken, List.filter_append,
    List.filter_eq_self.mpr fun name mem => (h.names name mem).1]

/-- Only the last component may lead up. -/
theorem down (other : last ≠ up) : ∀ name ∈ Path.names modulePath, isName name = true ∧ name ≠ up := by
  rw [h.names_eq]
  by_cases named : isName last = true
  · rw [List.filter_cons_of_pos named, List.filter_nil]
    exact down_concat h.names named other
  · rw [List.filter_cons_of_neg named, List.filter_nil, List.append_nil]
    exact h.names

/-- With something behind the last component, a module path has the same front. -/
theorem append (ending : Text) (unbroken : Unbroken ending) :
    Parts (modulePath ++ ending) front (last ++ ending) := by
  refine ⟨?_, ?_, h.names⟩
  · rw [h.eq, List.cons_append, join_append_append]
  · have parts := h.unbroken
    simp only [List.mem_append, List.mem_singleton, or_imp, forall_and, forall_eq] at parts ⊢
    refine ⟨parts.1, fun c mem => ?_⟩
    rcases List.mem_append.mp mem with mem | mem
    · exact parts.2 c mem
    · exact unbroken c mem

omit h in
/-- Without something of its last component, a module path has the same front. -/
theorem of_append {base ending : Text} (h : Parts modulePath front (base ++ ending)) :
    Parts ('/' :: join (front ++ [base])) front base where
  eq := rfl
  unbroken part mem := by
    rcases List.mem_append.mp mem with mem | mem
    · exact h.unbroken part (List.mem_append_left _ mem)
    · obtain rfl := List.mem_singleton.mp mem
      exact fun c inBase => h.unbroken (part ++ ending) (by simp) c (List.mem_append_left _ inBase)
  names := h.names

theorem last_ne_slash : (last ≠ [] → modulePath.getLast? ≠ some '/') := by
  intro ne
  obtain ⟨before, eq⟩ := exists_slash_join front last
  obtain ⟨c, hc⟩ := Option.ne_none_iff_exists'.mp (mt List.getLast?_eq_none_iff.mp ne)
  have other : c ≠ '/' := by
    rintro rfl
    exact absurd (h.unbroken last (by simp) '/' (List.mem_of_getLast? hc)) (by decide)
  rw [h.eq, eq, List.getLast?_append]
  simpa [List.getLast?_cons, hc] using other

omit h in
/-- Above a module path with a name to spare stands one that ends in this name. -/
theorem above {start : List Text} {name : Text} (h : Parts modulePath (start ++ [name]) last) :
    Parts ('/' :: join (start ++ [name])) start name where
  eq := rfl
  unbroken _ mem := h.unbroken _ (List.mem_append_left _ mem)
  names _ mem := h.names _ (List.mem_append_left _ mem)

/-- What stands behind a directory, by components. A last component that is empty goes. -/
theorem trimSlashes_append (name : Text) :
    trimSlashes modulePath ++ '/' :: name =
      '/' :: join ((front ++ if last = [] then [] else [last]) ++ [name]) := by
  by_cases empty : last = []
  · subst empty
    rw [h.eq, if_pos rfl, List.append_nil]
    rcases List.eq_nil_or_concat front with rfl | ⟨start, directory, eq⟩
    · simp [trimSlashes]
    · rw [List.concat_eq_append] at eq
      subst eq
      have named : directory ≠ [] := (isName_iff.mp (h.names directory (by simp)).1).1
      have ne : start ++ [directory] ≠ [] := by simp
      rw [join_concat ne, join_concat ne, ← List.cons_append, trimSlashes_slash,
        trimSlashes_of_getLast? (h.above.last_ne_slash named), List.cons_append]
  · have ne : front ++ [last] ≠ [] := by simp
    rw [trimSlashes_of_getLast? (h.last_ne_slash empty), h.eq, if_neg empty, join_concat ne,
      List.cons_append]

end Parts

/-! ## Wherever a move leads -/

section Leads

variable {fs : FileSystem} (conventional : fs.Conventional)

include conventional

/-- What is joined to the working directory is absolute. -/
theorem isAbsolute_joined (path : Text) :
    isAbsolute (fs.workingDirectory ++ '/' :: path) = true := by
  rcases conventional.directory with none | absolute
  · rw [none]
    exact isAbsolute_slash path
  · exact isAbsolute_append absolute _

/-- From a rooted module path every move leads to one. -/
theorem Leads.rooted {c : Cursor} {t : Target} (leads : Leads fs c t)
    (rooted : Rooted c.absoluteModulePath) : Rooted t.absoluteModulePath := by
  cases leads with
  | path path =>
    cases absolute : isAbsolute path with
    | true =>
      rw [pathTarget_of_absolute conventional.usual absolute]
      exact (rooted_fromRoot_normalize absolute).moduleOf.orRoot
    | false =>
      rw [pathTarget_of_joined conventional.usual absolute]
      exact (rooted_fromRoot_normalize (isAbsolute_joined conventional _)).moduleOf.orRoot
  | step component =>
    rw [stepTarget_eq conventional.usual]
    rcases rooted with none | ⟨rest, eq, -⟩
    · rw [none]
      exact rooted_normalize_slash component
    · rw [eq]
      exact rooted_normalize_slash (rest ++ '/' :: component)
  | above => exact .inl rfl

theorem Leads.drive {c : Cursor} {t : Target} (leads : Leads fs c t) (drive : Drive c.drive) :
    Drive t.drive := by
  cases leads with
  | path path =>
    cases absolute : isAbsolute path with
    | true =>
      rw [pathTarget_of_absolute conventional.usual absolute]
      exact drive_driveOf_normalize absolute
    | false =>
      rw [pathTarget_of_joined conventional.usual absolute]
      exact drive_driveOf_normalize (isAbsolute_joined conventional _)
  | step component => exact drive
  | above => exact drive

end Leads

theorem slash_notMem_driveOf (path : Text) : '/' ∉ driveOf path := by
  unfold driveOf
  split
  · intro mem
    simpa using List.mem_takeWhile_imp mem
  · simp

theorem Leads.slash_notMem_drive {fs : FileSystem} {c : Cursor} {t : Target} (leads : Leads fs c t)
    (drive : '/' ∉ c.drive) : '/' ∉ t.drive := by
  cases leads with
  | path path =>
    simp only [pathTarget]
    split <;> exact slash_notMem_driveOf _
  | step component => exact drive
  | above => exact drive

/-! ## Wherever a cursor gets to -/

/-- A cursor whose path from the root is rooted, behind a drive if there is one. -/
structure Anchored (c : Cursor) : Prop where
  rooted : Rooted c.absoluteModulePath
  drive : Drive c.drive

theorem Anchored.start : Anchored .start :=
  ⟨rooted_root, .none⟩

theorem rooted_stdin : Rooted stdin.absoluteModulePath :=
  .inr ⟨"stdin".toList, rfl, by decide, by decide⟩

theorem Anchored.stdin : Anchored .stdin :=
  ⟨rooted_stdin, .none⟩

/-- Every move over any conventional files keeps a cursor anchored. -/
theorem Anchored.move {fs : FileSystem} (conventional : fs.Conventional) {c : Cursor}
    (anchored : Anchored c) (m : Move) : Anchored (c.move fs m).2 := by
  refine kept_by_move Anchored anchored .stdin (fun t c' leads landed => ?_) m
  have rooted := leads.rooted conventional anchored.rooted
  have drive := leads.drive conventional anchored.drive
  obtain ⟨file, absoluteFile, -, -, rfl⟩ := land_eq_ok_iff.mp landed
  exact ⟨rooted, drive⟩

/-- A cursor by its path from the root: what it stands on from there was resolved, or is the module
path itself. -/
structure Settled (tree : FileTree) (c : Cursor) : Prop where
  rooted : Rooted c.absoluteModulePath
  drive : '/' ∉ c.drive
  file : ∃ file, c.absoluteFilePath = c.drive ++ file ∧
    (file = c.absoluteModulePath ∨ realPath (.ofTree tree) c.absoluteModulePath = .ok file)

theorem Settled.start (tree : FileTree) : Settled tree .start :=
  ⟨rooted_root, List.not_mem_nil, root, rfl, .inl rfl⟩

theorem Settled.stdin (tree : FileTree) : Settled tree .stdin :=
  ⟨rooted_stdin, List.not_mem_nil, _, rfl, .inl rfl⟩

section

variable {tree : FileTree}

/-- Every move keeps a cursor settled. -/
theorem Settled.move {c : Cursor} (settled : Settled tree c) (m : Move) :
    Settled tree (c.move (.ofTree tree) m).2 := by
  refine kept_by_move (Settled tree) settled (.stdin tree) (fun t c' leads landed => ?_) m
  have rooted := leads.rooted (FileSystem.conventional_ofTree tree) settled.rooted
  have drive := leads.slash_notMem_drive settled.drive
  obtain ⟨file, absoluteFile, -, resolved, rfl⟩ := land_eq_ok_iff.mp landed
  exact ⟨rooted, drive, absoluteFile, rfl, .inr resolved⟩

end

end ScriptHost.Cursor

/-
Climbing ends. Wherever a cursor gets to, its path from the root is rooted, so a parent is never refused
as malformed, and what `..` leads to is shorter, also where a closing slash is put behind it. The files may
be other ones at every move; only the path arithmetic has to be the usual one.
-/
import ScriptHost.Proofs.Cursor.Atomic
import ScriptHost.Proofs.Cursor.Rooted

namespace ScriptHost.Cursor

open ScriptHost.Path

/-! ## The length of a path -/

/-- The room that names take, each with a slash before it. -/
def room : List Text → Nat
  | [] => 0
  | name :: names => name.length + 1 + room names

@[simp] theorem room_nil : room [] = 0 := rfl

@[simp] theorem room_cons (name : Text) (names : List Text) :
    room (name :: names) = name.length + 1 + room names := rfl

@[simp] theorem room_append (front behind : List Text) :
    room (front ++ behind) = room front + room behind := by
  induction front with
  | nil => simp
  | cons name front ih =>
    rw [List.cons_append, room_cons, room_cons, ih]
    omega

theorem length_slash_join {names : List Text} (ne : names ≠ []) :
    ('/' :: join names).length = room names := by
  induction names with
  | nil => exact absurd rfl ne
  | cons first rest ih =>
    cases rest with
    | nil => simp
    | cons second rest =>
      have behind := ih (by simp)
      rw [List.length_cons] at behind
      rw [join_cons_cons, List.length_cons, List.length_append, List.length_cons, behind,
        room_cons first, Nat.add_right_comm]

/-- A closing slash takes at most one character more. -/
theorem length_closeUp_le (names : List Text) : (closeUp ('/' :: join names)).length ≤ room names + 1 := by
  by_cases none : names = []
  · rw [none]
    decide
  · rcases closeUp_eq ('/' :: join names) with e | e <;> rw [e]
    · rw [length_slash_join none]
      exact Nat.le_succ _
    · rw [List.length_append, length_slash_join none]
      exact Nat.le_refl _

/-! ## One move up -/

/-- A `..` behind a module path takes names from its end, or its last component if that is no name. -/
theorem Parts.resolve_up {modulePath last : Text} {front : List Text}
    (parts : Parts modulePath front last) (ne : front ≠ []) :
    ∃ above, resolve true (Path.names modulePath ++ [up]) = above ∧
      ((above = front ∧ last ≠ []) ∨ ∃ dropped more, front = above ++ dropped :: more) := by
  obtain ⟨start, name, eq⟩ := (List.eq_nil_or_concat front).resolve_left ne
  rw [List.concat_eq_append] at eq
  have down : ∀ part ∈ start, isName part = true ∧ part ≠ up := fun part mem =>
    parts.names part (eq ▸ List.mem_append_left _ mem)
  have back := resolve_true_up parts.names
  rw [parts.names_eq]
  by_cases named : isName last = true
  · rw [List.filter_cons_of_pos named, List.filter_nil]
    by_cases climbs : last = up
    · -- One more name goes.
      refine ⟨start.dropLast, ?_, .inr ?_⟩
      · rw [climbs, ← resolve_true_up down, ← resolve_resolve_append, back, eq,
          List.dropLast_concat]
      · rcases List.eq_nil_or_concat start with rfl | ⟨before, last', e⟩
        · exact ⟨name, [], eq⟩
        · rw [List.concat_eq_append] at e
          exact ⟨last', [name], by rw [eq, e]; simp⟩
    · refine ⟨front, ?_, .inl ⟨rfl, (isName_iff.mp named).1⟩⟩
      rw [resolve_true_up (down_concat parts.names named climbs), List.dropLast_concat]
  · refine ⟨start, ?_, .inr ⟨name, [], eq⟩⟩
    rw [List.filter_cons_of_neg named, List.filter_nil, List.append_nil, back, eq,
      List.dropLast_concat]

/-- What `..` leads to from below the root is shorter. -/
theorem length_normalize_up_lt {path : Text} (rooted : Rooted ('/' :: path)) (more : '/' ∈ path) :
    (normalize ('/' :: path ++ '/' :: up)).length < ('/' :: path).length := by
  obtain ⟨front, last, parts⟩ := rooted.exists_parts (List.cons_ne_nil _ _)
  have ne : front ≠ [] := by
    rintro rfl
    have whole : path = last := by simpa using parts.eq
    exact absurd (parts.unbroken last (by simp) '/' (whole ▸ more)) (by decide)
  have length : ('/' :: path).length = room front + (last.length + 1) := by
    rw [parts.eq, length_slash_join (by simp), room_append, room_cons, room_nil]
  obtain ⟨above, resolved, shorter⟩ := parts.resolve_up ne
  have names : Path.names (path ++ '/' :: up) = Path.names ('/' :: path) ++ [up] := by
    rw [names_append_slash, names_slash]
    rfl
  rw [List.cons_append, normalize_slash, names, resolved, length]
  have bound := length_closeUp_le above
  rcases shorter with ⟨rfl, some⟩ | ⟨dropped, rest, rfl⟩
  · have := List.length_pos_iff.mpr some
    omega
  · have isName := (parts.names dropped (by simp)).1
    have := List.length_pos_iff.mpr (isName_iff.mp isName).1
    simp only [room_append, room_cons]
    omega

/-- No file system makes a module path malformed. -/
theorem realPath_ne_other (fs : FileSystem) (modulePath : Text) (message : String) :
    realPath fs modulePath ≠ .error (.other message) := by
  simp only [realPath]
  rw [← moduleFiles, ← initFiles]
  cases fs.isDirectory modulePath <;> rcases moduleFiles fs modulePath with _ | ⟨f, _ | _⟩ <;>
    rcases initFiles fs modulePath with _ | ⟨i, _ | _⟩ <;> simp

theorem land_ne_other (fs : FileSystem) (t : Target) (message : String) :
    land fs t ≠ .error (.other message) := by
  unfold land
  intro failed
  cases relative : realPath fs t.modulePath with
  | error e =>
    obtain rfl : e = .other message := by simpa [relative, bind, Except.bind] using failed
    exact realPath_ne_other fs t.modulePath message relative
  | ok file =>
    cases absolute : realPath fs t.absoluteModulePath with
    | error e =>
      obtain rfl : e = .other message := by simpa [relative, absolute, bind, Except.bind] using failed
      exact realPath_ne_other fs t.absoluteModulePath message absolute
    | ok absoluteFile => simp [relative, absolute, bind, Except.bind, pure, Except.pure] at failed

/-- How a move up from a rooted path ends: nothing is above the empty path, and from anywhere else it gets
to a shorter path or fails to find one. -/
theorem parent_cases {fs : FileSystem} (conventional : fs.Conventional) {c : Cursor}
    (rooted : Rooted c.absoluteModulePath) :
    (c.absoluteModulePath = [] ∧ c.move fs .parent = (.error .notFound, c)) ∨
      (c.absoluteModulePath ≠ [] ∧
        ((∃ e, (∀ message, e ≠ .other message) ∧ c.move fs .parent = (.error e, c)) ∨
          ∃ above, above.absoluteModulePath.length < c.absoluteModulePath.length ∧
            c.move fs .parent = (.ok (), above))) := by
  cases eq : c.absoluteModulePath with
  | nil =>
    refine .inl ⟨rfl, ?_⟩
    simp [move, destination, parentTarget, eq, bind, Except.bind]
  | cons slash path =>
    obtain rfl : slash = '/' := by
      rcases rooted with none | ⟨rest, e, -⟩
      · simp [none] at eq
      · exact (List.cons.inj (eq.symm.trans e)).1
    refine .inr ⟨List.cons_ne_nil _ _, ?_⟩
    have destination_eq : destination fs c .parent =
        land fs (if '/' ∈ path then stepTarget fs c up else ⟨[], [], c.drive⟩) := by
      rw [destination, parentTarget_slash fs eq]
      rfl
    have shorter : (if '/' ∈ path then stepTarget fs c up
        else ⟨[], [], c.drive⟩).absoluteModulePath.length < ('/' :: path).length := by
      split
      · next more =>
        rw [stepTarget_eq conventional.usual, eq]
        exact length_normalize_up_lt (eq ▸ rooted) more
      · exact Nat.succ_pos _
    rw [move, destination_eq]
    cases landed : land fs (if '/' ∈ path then stepTarget fs c up else ⟨[], [], c.drive⟩) with
    | error e =>
      exact .inl ⟨e, fun message same => land_ne_other fs _ message (same ▸ landed), rfl⟩
    | ok above =>
      refine .inr ⟨above, ?_, rfl⟩
      have target := congrArg Target.absoluteModulePath (target_of_land landed)
      rw [show above.absoluteModulePath = _ from target]
      exact shorter

/-! ## Runs -/

theorem Anchored.run {steps : List Step} (conventional : ∀ step ∈ steps, step.files.Conventional)
    {c : Cursor} (anchored : Anchored c) : Anchored (c.run steps).2 := by
  induction steps generalizing c with
  | nil => exact anchored
  | cons step steps ih =>
    exact ih (fun later mem => conventional later (List.mem_cons_of_mem _ mem))
      (anchored.move (conventional step List.mem_cons_self) step.move)

/-- Moves up, one after the other. -/
def climb (files : List FileSystem) : List Step :=
  files.map fun fs => ⟨fs, .parent⟩

/-- As many moves up as succeed make the path from the root at least as much shorter. -/
theorem length_climb_le {files : List FileSystem} (conventional : ∀ fs ∈ files, fs.Conventional)
    {c : Cursor} (anchored : Anchored c)
    (succeed : ∀ result ∈ (c.run (climb files)).1, result = .ok ()) :
    files.length + (c.run (climb files)).2.absoluteModulePath.length ≤ c.absoluteModulePath.length := by
  induction files generalizing c with
  | nil => exact (Nat.zero_add _).le
  | cons fs files ih =>
    have here := conventional fs List.mem_cons_self
    have first : (c.move fs .parent).1 = .ok () := succeed _ List.mem_cons_self
    have later := ih (fun fs mem => conventional fs (List.mem_cons_of_mem _ mem))
      (anchored.move here .parent) fun result mem => succeed result (List.mem_cons_of_mem _ mem)
    have shorter : (c.move fs .parent).2.absoluteModulePath.length < c.absoluteModulePath.length := by
      rcases parent_cases here anchored.rooted with ⟨-, e⟩ | ⟨-, ⟨e', -, e⟩ | ⟨above, shorter, e⟩⟩
      · simp [e] at first
      · simp [e] at first
      · rwa [e]
    have rest : (c.run (climb (fs :: files))).2 = ((c.move fs .parent).2.run (climb files)).2 := rfl
    rw [rest, List.length_cons]
    omega

/-- **Climbing ends.** Whatever moves were made, each over any files with the usual path arithmetic: the
path from the root is empty or starts with a slash. From there a move up, over any such files, is never
refused as malformed; one that succeeds makes the path strictly shorter, and from the empty path none
succeeds. So no more moves up succeed one after the other than the path is long. -/
theorem climbing_ends (history : List Step) (conventional : ∀ step ∈ history, step.files.Conventional) :
    let c := (start.run history).2
    (c.absoluteModulePath = [] ∨ ∃ path, c.absoluteModulePath = '/' :: path) ∧
    (∀ fs : FileSystem, fs.Conventional →
      (∀ message, (c.move fs .parent).1 ≠ .error (.other message)) ∧
      ((c.move fs .parent).1 = .ok () →
        (c.move fs .parent).2.absoluteModulePath.length < c.absoluteModulePath.length) ∧
      (c.absoluteModulePath = [] → (c.move fs .parent).1 = .error .notFound)) ∧
    ∀ files : List FileSystem, (∀ fs ∈ files, fs.Conventional) →
      (∀ result ∈ (c.run (climb files)).1, result = .ok ()) →
        files.length ≤ c.absoluteModulePath.length := by
  intro c
  have anchored : Anchored c := Anchored.start.run conventional
  refine ⟨?_, fun fs here => ?_, fun files each succeed => ?_⟩
  · exact anchored.rooted.imp_right fun ⟨path, eq, _⟩ => ⟨path, eq⟩
  · rcases parent_cases here anchored.rooted with
      ⟨none, e⟩ | ⟨some, ⟨e', known, e⟩ | ⟨above, shorter, e⟩⟩ <;> rw [e]
    · exact ⟨fun _ => by simp, fun ok => by simp at ok, fun _ => rfl⟩
    · exact ⟨fun message => by simpa using known message, fun ok => by simp at ok,
        fun none => absurd none some⟩
    · exact ⟨fun _ => by simp, fun _ => shorter, fun none => absurd none some⟩
  · exact (Nat.le_add_right _ _).trans (length_climb_le each anchored succeed)

/-- Up from below a working directory on a drive, by a name that takes a closing slash, and on above the
root when the files are gone. -/
theorem climbing_ends_of_closing_slash :
    let tree : FileTree :=
      .ofStorings [.file "/w/a../b.luau".toList [], .file "/a../b.luau".toList []]
    let below := (FileSystem.ofTree tree).within "C:/w".toList
    let bare := FileSystem.ofTree .empty
    let c := (start.run [⟨below, .path "a../b.luau".toList⟩, ⟨bare, .child "b".toList⟩]).2
    c.absoluteModulePath = "/w/a../b".toList ∧
      (∀ result ∈ (c.run (climb [below, below, bare])).1, result = .ok ()) ∧
      [below, below, bare].length ≤ c.absoluteModulePath.length := by
  intro tree below bare c
  have there : below.Conventional := ⟨FileSystem.usualPaths_ofTree tree, .inr (by decide +kernel)⟩
  have gone : bare.Conventional := FileSystem.conventional_ofTree .empty
  have ends := climbing_ends [⟨below, .path "a../b.luau".toList⟩, ⟨bare, .child "b".toList⟩]
    (by simp [there, gone])
  refine ⟨?path, ?succeed, ends.2.2 _ (by simp [there, gone]) ?succeed⟩
  case path => decide +kernel
  case succeed => decide +kernel

end ScriptHost.Cursor

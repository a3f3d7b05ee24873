/-
Two cursors on one place, one of which got there by a relative path and the other from the root. As
long as no component of a path leads up or looks like a drive, a `.` before a path from the root changes
nothing but the spelling of what it resolves to (`realPath_dot_slash`), and the two cursors stay twins
whatever names they walk down and however far they walk up again (`Alike.child`, `Alike.parent`).
-/
import ScriptHost.Proofs.Cursor.Rooted

namespace ScriptHost

open ScriptHost.Path

namespace Path

/-! ## Components that lead nowhere but down -/

/-- A component that is not `.`, does not start with `..` and has no colon. -/
structure TameComponent (component : Text) : Prop where
  not_here : component ≠ here
  not_up : ¬ up <+: component
  no_colon : ':' ∉ component

instance : DecidablePred TameComponent := fun component =>
  decidable_of_iff (component ≠ here ∧ ¬ up <+: component ∧ ':' ∉ component)
    ⟨fun ⟨not_here, not_up, no_colon⟩ => ⟨not_here, not_up, no_colon⟩,
      fun h => ⟨h.not_here, h.not_up, h.no_colon⟩⟩

/-- A path of such components, empty ones among them. -/
def Tame (path : Text) : Prop :=
  ∀ component ∈ split path, TameComponent component

instance : DecidablePred Tame := fun path =>
  inferInstanceAs (Decidable (∀ component ∈ split path, TameComponent component))

/-- A name that means only itself wherever it stands. -/
structure Plain (name : Text) : Prop where
  ne_nil : name ≠ []
  unbroken : Unbroken name
  tame : TameComponent name

theorem Plain.isName {name : Text} (h : Plain name) : isName name = true :=
  isName_iff.mpr ⟨h.ne_nil, h.tame.not_here⟩

/-- Joined names are no absolute path: the first of them is neither empty nor a drive. -/
theorem isAbsolute_join {parts : List Text} (plain : ∀ name ∈ parts, Plain name) :
    isAbsolute (join parts) = false := by
  rw [← Bool.not_eq_true]
  intro absolute
  have ne : parts ≠ [] := by
    rintro rfl
    cases absolute
  have whole := split_join ne fun name mem => (plain name mem).unbroken
  rcases isAbsolute_cases absolute with ⟨c, rest, hc, eq⟩ | ⟨d, s, rest, hd, hs, eq⟩
  · rw [eq, split_cons_of_separator hc] at whole
    exact (plain [] (whole ▸ List.mem_cons_self)).ne_nil rfl
  · rw [eq, split_drive hd hs] at whole
    exact (plain [d, ':'] (whole ▸ List.mem_cons_self)).tame.no_colon (by simp)

theorem TameComponent.ne_up {component : Text} (h : TameComponent component) : component ≠ up := by
  rintro rfl
  exact h.not_up List.prefix_rfl

theorem tame_nil : Tame [] := by decide

theorem tame_append_slash {p q : Text} : Tame (p ++ '/' :: q) ↔ Tame p ∧ Tame q := by
  simp only [Tame, split_append_slash, List.mem_append, or_imp, forall_and]

theorem tame_slash {path : Text} : Tame ('/' :: path) ↔ Tame path := by
  simpa [tame_nil] using tame_append_slash (p := []) (q := path)

theorem Tame.closeUp {path : Text} (h : Tame path) : Tame (closeUp path) := by
  rcases closeUp_eq path with e | e <;> rw [e]
  · exact h
  · exact tame_append_slash.mpr ⟨h, tame_nil⟩

theorem Tame.of_append_replicate_slash {path : Text} {n : Nat}
    (h : Tame (path ++ List.replicate n '/')) : Tame path := by
  cases n with
  | zero => simpa using h
  | succ n => exact (tame_append_slash.mp (List.replicate_succ ▸ h)).1

theorem tame_join {parts : List Text} (unbroken : ∀ part ∈ parts, Unbroken part)
    (tame : ∀ part ∈ parts, TameComponent part) : Tame (join parts) := by
  by_cases none : parts = []
  · exact none ▸ tame_nil
  · rw [Tame, split_join none unbroken]
    exact tame

/-- A text without a separator makes the last component of a path longer. -/
theorem exists_split_append (path : Text) :
    ∃ front last, split path = front ++ [last] ∧
      ∀ ending, Unbroken ending → split (path ++ ending) = front ++ [last ++ ending] := by
  induction path with
  | nil => exact ⟨[], [], rfl, fun _ unbroken => split_of_unbroken unbroken⟩
  | cons c path ih =>
    obtain ⟨front, last, whole, longer⟩ := ih
    by_cases hc : isSeparator c = true
    · refine ⟨[] :: front, last, ?_, fun ending unbroken => ?_⟩
      · rw [split_cons_of_separator hc, whole, List.cons_append]
      · rw [List.cons_append, split_cons_of_separator hc, longer ending unbroken, List.cons_append]
    · cases front with
      | nil =>
        refine ⟨[], c :: last, ?_, fun ending unbroken => ?_⟩
        · simp [split, hc, whole]
        · simp [split, hc, longer ending unbroken]
      | cons first front =>
        refine ⟨(c :: first) :: front, last, ?_, fun ending unbroken => ?_⟩
        · simp [split, hc, whole]
        · simp [split, hc, longer ending unbroken]

/-- An ending with one dot leaves a component as tame as it is. -/
theorem tameComponent_append {component rest : Text} {c : Char} (dot : c ≠ '.')
    (colon : ':' ∉ '.' :: c :: rest) :
    TameComponent (component ++ '.' :: c :: rest) ↔ TameComponent component := by
  constructor
  · intro longer
    refine ⟨?_, fun starts => longer.not_up (starts.trans (List.prefix_append _ _)),
      fun mem => longer.no_colon (List.mem_append_left _ mem)⟩
    rintro rfl
    exact longer.not_up ⟨c :: rest, rfl⟩
  · intro tame
    have long : component ++ '.' :: c :: rest ≠ here := by
      intro e
      have lengths := congrArg List.length e
      simp only [here, List.length_append, List.length_cons, List.length_nil] at lengths
      omega
    refine ⟨long, ?_, by simpa [tame.no_colon] using colon⟩
    rcases component with _ | ⟨first, _ | ⟨second, more⟩⟩
    · simp [up, Ne.symm dot]
    · have other : first ≠ '.' := fun e => tame.not_here (by rw [e, here])
      simp [up, Ne.symm other]
    · have starts := tame.not_up
      simpa [up] using starts

theorem tame_append {path rest : Text} {c : Char} (unbroken : Unbroken ('.' :: c :: rest))
    (dot : c ≠ '.') (colon : ':' ∉ '.' :: c :: rest) :
    Tame (path ++ '.' :: c :: rest) ↔ Tame path := by
  obtain ⟨front, last, whole, longer⟩ := exists_split_append path
  simp only [Tame, whole, longer _ unbroken, List.mem_append, List.mem_singleton, or_imp, forall_and,
    forall_eq, tameComponent_append dot colon]

/-- Without a `..`, what the names of a path come to are these names. -/
theorem Tame.down {path : Text} (h : Tame path) :
    ∀ name ∈ names path, Path.isName name = true ∧ name ≠ up := by
  intro name mem
  obtain ⟨mem, isName⟩ := List.mem_filter.mp mem
  exact ⟨isName, (h name mem).ne_up⟩

end Path

/-- A tame path names one place, from the root and behind a `.`. -/
theorem FileKey.ofPath_dot_slash_of_tame {path : Text} (tame : Tame path) :
    ofPath ('.' :: '/' :: path) = ofPath ('/' :: path) := by
  have noDrive : ∀ first ∈ (names path).head?, ¬ IsDrive first := by
    intro first mem drive
    have component := tame first (List.mem_filter.mp (List.mem_of_mem_head? mem)).1
    exact component.no_colon (List.mem_of_getLast? drive)
  have stays : up ∉ names path := fun mem => (tame.down up mem).2 rfl
  rw [ofPath_slash, ofPath_dot_slash, resolve_of_down tame.down, resolve_of_down tame.down,
    if_neg stays, withoutDrive_of_head noDrive]

namespace Cursor

/-! ## Endings -/

theorem tame_append_suffix {path ending : Text} (mem : ending ∈ suffixes) :
    Tame (path ++ ending) ↔ Tame path := by
  simp only [suffixes, List.mem_cons, List.not_mem_nil, or_false] at mem
  rcases mem with rfl | rfl
  · exact tame_append (by decide) (by decide) (by decide)
  · exact tame_append (by decide) (by decide) (by decide)

theorem tame_append_initSuffix {path ending : Text} (mem : ending ∈ initSuffixes) :
    Tame (path ++ ending) ↔ Tame path := by
  simp only [initSuffixes, List.mem_cons, List.not_mem_nil, or_false] at mem
  rcases mem with rfl | rfl
  · exact tame_append_slash.trans (and_iff_left (by decide +kernel))
  · exact tame_append_slash.trans (and_iff_left (by decide +kernel))

/-- Without its ending a path is as tame as with it. -/
theorem tame_stripModuleSuffix {path : Text} : Tame (stripModuleSuffix path) ↔ Tame path := by
  obtain ⟨ending, eq, none | known⟩ := exists_ending path
  · rw [none, List.append_nil] at eq
    rw [← eq]
  · rcases List.mem_append.mp known with mem | mem
    · rw [← tame_append_initSuffix mem, ← eq]
    · rw [← tame_append_suffix mem, ← eq]

theorem tame_moduleOf {path : Text} (tame : Tame path) : Tame (moduleOf path) := by
  unfold moduleOf
  split
  · exact tame_nil
  · exact tame_stripModuleSuffix.mpr tame

/-! ## What resolves behind a `.` -/

section

variable (tree : FileTree)

theorem isFile_dot {path : Text} (tame : Tame path) :
    tree.isFile ('.' :: '/' :: path) = tree.isFile ('/' :: path) :=
  tree.isFile_congr (FileKey.ofPath_dot_slash_of_tame tame)

theorem isDirectory_dot {path : Text} (tame : Tame path) :
    tree.isDirectory ('.' :: '/' :: path) = tree.isDirectory ('/' :: path) := by
  rw [FileTree.isDirectory, FileKey.ofPath_dot_slash_of_tame tame, FileTree.isDirectory]

/-- Candidates from the root are candidates behind a `.`. -/
theorem candidates_dot {base : Text} {endings : List Text}
    (tame : ∀ ending ∈ endings, ∃ path, base ++ ending = '/' :: path ∧ Tame path) :
    candidates (.ofTree tree) ('.' :: base) endings =
      (candidates (.ofTree tree) base endings).map ('.' :: ·) := by
  have isFile : ∀ file ∈ endings.map (base ++ ·),
      ((FileSystem.ofTree tree).isFile ∘ ('.' :: ·)) file = (FileSystem.ofTree tree).isFile file := by
    intro file listed
    obtain ⟨ending, mem, rfl⟩ := List.mem_map.mp listed
    obtain ⟨path, eq, level⟩ := tame ending mem
    rw [eq]
    exact isFile_dot tree level
  have dotted : endings.map ('.' :: base ++ ·) = (endings.map (base ++ ·)).map ('.' :: ·) := by
    simp
  rw [candidates, candidates, dotted, List.filter_map, List.filter_congr isFile]

theorem exists_trimSlashes_append_initSuffix {path : Text} (tame : Tame path) :
    ∀ ending ∈ initSuffixes,
      ∃ longer, trimSlashes ('/' :: path) ++ ending = '/' :: longer ∧ Tame longer := by
  intro ending mem
  obtain ⟨n, whole⟩ := exists_trimSlashes_append ('/' :: path)
  have trimmed : Tame (trimSlashes ('/' :: path)) := by
    refine Tame.of_append_replicate_slash (n := n) ?_
    rw [whole]
    exact tame_slash.mpr tame
  have level := (tame_append_initSuffix mem).mpr trimmed
  obtain ⟨name, rfl, unbroken, isName, -⟩ := initSuffixes_name mem
  obtain ⟨longer, eq, -⟩ := trimSlashes_slash_append path unbroken isName
  rw [eq] at level ⊢
  exact ⟨longer, rfl, tame_slash.mp level⟩

theorem moduleFiles_dot {path : Text} (tame : Tame path) :
    moduleFiles (.ofTree tree) ('.' :: '/' :: path) =
      (moduleFiles (.ofTree tree) ('/' :: path)).map ('.' :: ·) := by
  have files : candidates (.ofTree tree) ('.' :: '/' :: path) suffixes =
      (candidates (.ofTree tree) ('/' :: path) suffixes).map ('.' :: ·) :=
    candidates_dot tree fun ending mem =>
      ⟨path ++ ending, rfl, (tame_append_suffix mem).mpr tame⟩
  rw [moduleFiles, moduleFiles, lastComponent_cons (by simp) '.', files]
  split <;> rfl

theorem initFiles_dot {path : Text} (tame : Tame path) :
    initFiles (.ofTree tree) ('.' :: '/' :: path) =
      (initFiles (.ofTree tree) ('/' :: path)).map ('.' :: ·) := by
  rw [initFiles, initFiles, trimSlashes_dot]
  exact candidates_dot tree (exists_trimSlashes_append_initSuffix tame)

/-- A tame path behind a `.` resolves to what it resolves to from the root, behind a `.`. -/
theorem realPath_dot_slash {path : Text} (tame : Tame path) :
    realPath (.ofTree tree) ('.' :: '/' :: path) =
      (realPath (.ofTree tree) ('/' :: path)).map ('.' :: ·) := by
  have directory : (FileSystem.ofTree tree).isDirectory ('.' :: '/' :: path) =
      (FileSystem.ofTree tree).isDirectory ('/' :: path) := isDirectory_dot tree tame
  simp only [realPath]
  rw [← moduleFiles, ← moduleFiles, ← initFiles, ← initFiles, directory, moduleFiles_dot tree tame,
    initFiles_dot tree tame]
  cases (FileSystem.ofTree tree).isDirectory ('/' :: path) <;>
    rcases moduleFiles (.ofTree tree) ('/' :: path) with _ | ⟨file, _ | _⟩ <;>
    rcases initFiles (.ofTree tree) ('/' :: path) with _ | ⟨init, _ | _⟩ <;> rfl

/-- What a tame path from the root resolves to is one as well. -/
theorem tame_of_realPath {path file : Text} (tame : Tame path)
    (resolved : realPath (.ofTree tree) ('/' :: path) = .ok file) :
    ∃ rest, file = '/' :: rest ∧ Tame rest := by
  rcases realPath_eq_ok_iff.mp resolved with ⟨files, -⟩ | ⟨-, -, inits | ⟨-, rfl⟩⟩
  · have found : file ∈ moduleFiles (.ofTree tree) ('/' :: path) := by simp [files]
    obtain ⟨-, ending, mem, rfl, -⟩ := mem_moduleFiles.mp found
    exact ⟨path ++ ending, rfl, (tame_append_suffix mem).mpr tame⟩
  · have found : file ∈ initFiles (.ofTree tree) ('/' :: path) := by simp [inits]
    obtain ⟨ending, mem, rfl, -⟩ := mem_initFiles.mp found
    exact exists_trimSlashes_append_initSuffix tame ending mem
  · exact ⟨path, rfl, tame⟩

end

/-! ## Twins -/

/-- Two cursors on one place: they are one cursor, or one has a `.` before what the other has from the
root. -/
inductive Alike : Cursor → Cursor → Prop
  | same (c : Cursor) : Alike c c
  | twins {path file : Text} (rooted : Rooted ('/' :: path)) (tame : Tame path)
      (tameFile : Tame file) :
      Alike ⟨'.' :: '/' :: path, '/' :: path, '.' :: '/' :: file, '/' :: file, []⟩
        ⟨'/' :: path, '/' :: path, '/' :: file, '/' :: file, []⟩

/-- Two walks that end alike: both fail for one reason, or both get to one place. -/
inductive EndAlike : Except NavigateError Cursor → Except NavigateError Cursor → Prop
  | failed (e : NavigateError) : EndAlike (.error e) (.error e)
  | landed {c d : Cursor} (alike : Alike c d) : EndAlike (.ok c) (.ok d)

theorem EndAlike.same : ∀ ended, EndAlike ended ended
  | .error e => .failed e
  | .ok c => .landed (.same c)

section

variable (tree : FileTree)

/-- Twins land on one place. -/
theorem EndAlike.land {path : Text} (rooted : Rooted ('/' :: path)) (tame : Tame path) :
    EndAlike (land (.ofTree tree) ⟨'.' :: '/' :: path, '/' :: path, []⟩)
      (land (.ofTree tree) ⟨'/' :: path, '/' :: path, []⟩) := by
  simp only [Cursor.land, realPath_dot_slash tree tame]
  cases resolved : realPath (.ofTree tree) ('/' :: path) with
  | error e => exact .failed e
  | ok file =>
    obtain ⟨rest, rfl, tameFile⟩ := tame_of_realPath tree tame resolved
    have relative : (FileSystem.ofTree tree).isAbsolute ('.' :: '/' :: rest) = false :=
      isAbsolute_dot ('/' :: rest)
    simp only [Except.map, bind, Except.bind, pure, Except.pure, relative, List.nil_append,
      Bool.false_eq_true, ite_self]
    exact .landed (.twins rooted tame tameFile)

theorem tame_normalize_slash {path : Text}
    (tame : ∀ name ∈ resolve true (names path), TameComponent name) :
    ∃ rest, normalize ('/' :: path) = '/' :: rest ∧ Tame rest := by
  obtain ⟨rest, eq⟩ := closeUp_cons '/' (join (resolve true (names path)))
  have joined : Tame (join (resolve true (names path))) :=
    tame_join (fun _ mem => unbroken_of_mem_resolve mem) tame
  refine ⟨rest, (normalize_slash path).trans eq, tame_slash.mp ?_⟩
  rw [← eq]
  exact (tame_slash.mpr joined).closeUp

/-- Twins that take the same way, and neither above the start, end alike. -/
theorem EndAlike.along {path : Text} (stays : up ∉ resolve false (names path))
    (tame : ∀ name ∈ resolve true (names path), TameComponent name) :
    EndAlike (Cursor.land (.ofTree tree) ⟨normalize ('.' :: '/' :: path), normalize ('/' :: path), []⟩)
      (Cursor.land (.ofTree tree) ⟨normalize ('/' :: path), normalize ('/' :: path), []⟩) := by
  have below : up ∉ resolve false (names ('.' :: '/' :: path)) := by rwa [names_here_slash]
  have dotted : normalize ('.' :: '/' :: path) = '.' :: normalize ('/' :: path) := by
    rw [normalize_staying (isAbsolute_dot _) below]
    exact congrArg _ (normalize_slash_congr (by rw [names_here_slash]))
  obtain ⟨rest, eq, tameRest⟩ := tame_normalize_slash tame
  have rooted := rooted_normalize_slash path
  rw [dotted, eq] at *
  exact .land tree rooted tameRest

/-! ## Moves of twins -/

/-- A path below the root and the same path from the root. -/
theorem EndAlike.path {parts : List Text} (plain : ∀ name ∈ parts, Plain name) (c d : Cursor) :
    EndAlike (destination (.ofTree tree) c (.path (join parts)))
      (destination (.ofTree tree) d (.path ('/' :: join parts))) := by
  have usual := FileSystem.usualPaths_ofTree tree
  have names : names (join parts) = parts :=
    names_join (fun name mem => (plain name mem).unbroken) fun name mem => (plain name mem).isName
  have down : ∀ part ∈ parts, isName part = true ∧ part ≠ up := fun part mem =>
    ⟨(plain part mem).isName, (plain part mem).tame.ne_up⟩
  have relative := isAbsolute_join plain
  have stays : up ∉ resolve false (Path.names (join parts)) := by
    rw [names, resolve_of_down down]
    exact fun mem => (down up mem).2 rfl
  have tameParts : ∀ part ∈ resolve true (Path.names (join parts)), TameComponent part := by
    rw [names, resolve_of_down down]
    exact fun part mem => (plain part mem).tame
  obtain ⟨rest, normal, tame⟩ := tame_normalize_slash tameParts
  have rooted : Rooted (orRoot (moduleOf (normalize ('/' :: join parts)))) :=
    (rooted_normalize_slash _).moduleOf.orRoot
  simp only [destination, pathTarget_of_relative usual rfl relative,
    pathTarget_of_absolute usual (isAbsolute_slash _), normalize_staying relative stays, normal,
    fromRoot_slash, driveOf_slash] at rooted ⊢
  rcases moduleOf_dot_slash rest with ⟨nothing, nothing'⟩ | ⟨m, eq, eq'⟩
  · rw [nothing, nothing']
    exact .same _
  · have tameModule : Tame m := by
      rw [← tame_slash, ← eq']
      exact tame_moduleOf (tame_slash.mpr tame)
    rw [eq'] at rooted
    rw [eq, eq']
    exact .land tree rooted tameModule

/-- Twins walk down to one place. -/
theorem Alike.child {c d : Cursor} (alike : Alike c d) {name : Text} (plain : Plain name) :
    EndAlike (destination (.ofTree tree) c (.child name))
      (destination (.ofTree tree) d (.child name)) := by
  cases alike with
  | same => exact .same _
  | @twins path _ _ tame _ =>
    have names : names (path ++ '/' :: name) = names path ++ [name] := by
      rw [names_append_slash, names_of_unbroken plain.unbroken plain.isName]
    have down := down_concat tame.down plain.isName plain.tame.ne_up
    have usual := FileSystem.usualPaths_ofTree tree
    simp only [destination, stepTarget_eq usual, List.cons_append]
    refine .along tree ?_ ?_
    · rw [names, resolve_of_down down]
      exact fun mem => (down up mem).2 rfl
    · rw [names, resolve_of_down down]
      intro part mem
      rcases List.mem_append.mp mem with mem | mem
      · exact tame part (List.mem_filter.mp mem).1
      · obtain rfl := List.mem_singleton.mp mem
        exact plain.tame

/-- Twins walk up to one place. Above the root they are one cursor. -/
theorem Alike.parent {c d : Cursor} (alike : Alike c d) :
    EndAlike (destination (.ofTree tree) c .parent) (destination (.ofTree tree) d .parent) := by
  cases alike with
  | same => exact .same _
  | @twins path _ rooted tame _ =>
    have usual := FileSystem.usualPaths_ofTree tree
    have target : ∀ c : Cursor, c.absoluteModulePath = '/' :: path →
        destination (.ofTree tree) c .parent =
          land (.ofTree tree) (if '/' ∈ path then stepTarget (.ofTree tree) c up
            else ⟨[], [], c.drive⟩) := fun c eq => by
      rw [destination, parentTarget_slash _ eq]
      rfl
    rw [target _ rfl, target _ rfl]
    by_cases more : '/' ∈ path
    · have ne := names_ne_nil_of_slash rooted more
      have names : names (path ++ '/' :: up) = names path ++ [up] := names_append_slash path up
      have fewer : ∀ name ∈ (Path.names path).dropLast, name ∈ Path.names path :=
        fun _ mem => List.dropLast_subset _ mem
      simp only [if_pos more, stepTarget_eq usual, List.cons_append]
      refine .along tree ?_ ?_
      · rw [names, resolve_up tame.down ne]
        exact fun mem => (tame.down up (fewer up mem)).2 rfl
      · rw [names, resolve_up tame.down ne]
        exact fun name mem => tame name (List.mem_filter.mp (fewer name mem)).1
    · simp only [if_neg more]
      exact .same _

/-- Moves that end alike are answered alike and leave twins. -/
theorem Alike.move {fs : FileSystem} {c d : Cursor} (alike : Alike c d) {m m' : Move}
    (ends : EndAlike (destination fs c m) (destination fs d m')) :
    (c.move fs m).1 = (d.move fs m').1 ∧ Alike (c.move fs m).2 (d.move fs m').2 := by
  unfold Cursor.move
  generalize destination fs c m = ended, destination fs d m' = ended' at ends
  cases ends with
  | failed e => exact ⟨rfl, alike⟩
  | landed landed => exact ⟨rfl, landed⟩

/-! ## What twins see -/

theorem Alike.absoluteFilePath {c d : Cursor} (alike : Alike c d) :
    c.absoluteFilePath = d.absoluteFilePath := by
  cases alike <;> rfl

theorem Alike.ofPath_filePath {c d : Cursor} (alike : Alike c d) :
    FileKey.ofPath c.filePath = FileKey.ofPath d.filePath := by
  cases alike with
  | same => rfl
  | twins _ _ tameFile => exact FileKey.ofPath_dot_slash_of_tame tameFile

/-- Twins have their configuration file at one place. -/
theorem Alike.ofPath_configPath {c d : Cursor} (alike : Alike c d) :
    FileKey.ofPath (c.configPath (.ofTree tree)) = FileKey.ofPath (d.configPath (.ofTree tree)) := by
  cases alike with
  | same => rfl
  | @twins _ file _ _ tameFile =>
    have stripped := tame_stripModuleSuffix.mpr (tame_slash.mpr tameFile)
    have config : Tame ".luaurc".toList := by decide +kernel
    simp only [configPath, FileSystem.ofTree, join_cons_cons, join_singleton,
      stripModuleSuffix_dot_slash]
    -- Nothing may be left of the path to the file.
    rcases stripModuleSuffix_slash file with e | ⟨m, e⟩
    · rw [e]
      exact FileKey.ofPath_dot_slash_of_tame config
    · rw [e] at stripped ⊢
      exact FileKey.ofPath_dot_slash_of_tame (tame_append_slash.mpr ⟨tame_slash.mp stripped, config⟩)

end

end Cursor

end ScriptHost

/-
The two spellings of a cursor's place under a working directory. A move that starts from where they name one
place gets to where they do (`commonPlace_step`), but a reset may get to where they do not: to the `init`
file of a working directory that is not the root, to a directory of which only the joined path shows a name
with a module ending, and to what came from no file (`Strays`). There are no other exceptions
(`spellings_name_one_place`).
-/
import ScriptHost.Proofs.Cursor.Climbing
import ScriptHost.Proofs.Cursor.Configs

namespace ScriptHost

open ScriptHost.Path

/-! ## Paths below a directory -/

namespace Path

/-- A closing slash makes no difference to an absolute path. -/
theorem normalize_append_closing {path : Text} (absolute : isAbsolute path = true) :
    normalize (path ++ ['/']) = normalize path := by
  obtain ⟨drive, s, rest, isDrive, separates, rfl⟩ := exists_drive_of_isAbsolute absolute
  rw [List.append_assoc, List.cons_append, normalize_append_separator isDrive separates,
    normalize_append_separator isDrive separates]
  exact congrArg _ (normalize_slash_congr (by simp [names_append_slash]))

/-- A drive alone is relative. -/
theorem Drive.isAbsolute_eq_false {drive : Text} (h : Drive drive) : isAbsolute drive = false := by
  cases h with
  | none => rfl
  | @letter d alpha =>
    have whole := unbroken_drive alpha d (by simp)
    simp [isAbsolute, whole]

/-- Behind a drive a path from the root may as well follow in its normal form. -/
theorem Drive.normalize_append_normalize {drive : Text} (h : Drive drive) (path : Text) :
    normalize (drive ++ normalize ('/' :: path)) = normalize (drive ++ '/' :: path) := by
  obtain ⟨more, normal⟩ := exists_normalize_slash path
  rw [normal, normalize_append_separator h rfl, normalize_append_separator h rfl, ← normal,
    normalize_normalize]

/-- A relative normal form ends in a slash or in a name. -/
theorem exists_last_of_relative {path : Text} (relative : isAbsolute path = false) :
    (∃ before, normalize path = before ++ ['/']) ∨
      ∃ before last, ProperName last ∧ ¬ up <:+ last ∧ normalize path = '.' :: before ++ '/' :: last := by
  obtain ⟨climbs, eq⟩ := resolve_false_eq (names path)
  have spelled : normalize path = spell (lead (resolve false (names path))) (resolve false (names path)) := by
    rw [normalize_of_relative relative, closeUp_lead_join]
  by_cases closed : EndsUp (resolve false (names path))
  · rw [spell, if_pos closed] at spelled
    exact .inl ⟨_, spelled⟩
  rw [spell, if_neg closed, List.append_nil] at spelled
  rcases List.eq_nil_or_concat (resolve true (names path)) with none | ⟨front, last, all⟩
  · rw [none, List.append_nil] at eq
    cases climbs with
    | zero =>
      rw [List.replicate_zero] at eq
      exact .inl ⟨here, by rw [spelled, eq]; rfl⟩
    | succ n =>
      rw [eq, List.replicate_succ'] at closed
      exact absurd ⟨up, by simp, List.suffix_refl up⟩ closed
  · rw [List.concat_eq_append] at all
    have mem : last ∈ resolve true (names path) := by simp [all]
    have proper : ProperName last := properName_of_mem_resolve mem
    rw [all, ← List.append_assoc] at eq
    have plain : ¬ up <:+ last := fun ends => closed ⟨last, by simp [eq], ends⟩
    obtain ⟨front', spelled'⟩ : ∃ front', normalize path = front' ++ '/' :: last := by
      rw [spelled, lead, eq]
      split
      · next first =>
        refine ⟨_, join_concat ?_ last⟩
        intro none
        rw [none, List.nil_append, List.head?_cons, Option.some.injEq] at first
        exact proper.down first
      · obtain ⟨before, behind⟩ := exists_slash_join (List.replicate climbs up ++ front) last
        exact ⟨'.' :: before, congrArg ('.' :: ·) behind⟩
    obtain ⟨rest, dot⟩ := exists_normalize_of_relative relative
    rw [dot] at spelled'
    cases front' with
    | nil => cases spelled'
    | cons c before =>
      obtain ⟨rfl, -⟩ := List.cons.inj spelled'
      exact .inr ⟨before, last, proper, plain, dot.trans spelled'⟩

end Path

namespace Cursor

/-! ## One place under a working directory -/

/-- Nothing, or a path from the root. -/
def FromRoot (modulePath : Text) : Prop :=
  modulePath = [] ∨ modulePath.head? = some '/'

instance : DecidablePred FromRoot := fun modulePath =>
  inferInstanceAs (Decidable (modulePath = [] ∨ modulePath.head? = some '/'))

/-- Both module paths name one place: the first is the one from the root, or it is relative, and a working
directory makes of it what the drive makes of the one from the root. -/
structure CommonPlace (directory : Text) (t : Target) : Prop where
  itself : FromRoot t.modulePath → t.modulePath = t.absoluteModulePath
  joined : ¬ FromRoot t.modulePath →
    normalize (directory ++ '/' :: t.modulePath) = normalize (t.drive ++ t.absoluteModulePath)

instance (directory : Text) : DecidablePred (CommonPlace directory) := fun t =>
  decidable_of_iff ((FromRoot t.modulePath → t.modulePath = t.absoluteModulePath) ∧
      (¬ FromRoot t.modulePath →
        normalize (directory ++ '/' :: t.modulePath) = normalize (t.drive ++ t.absoluteModulePath)))
    ⟨fun ⟨itself, joined⟩ => ⟨itself, joined⟩, fun h => ⟨h.itself, h.joined⟩⟩

section

variable {directory modulePath absoluteModulePath drive rest : Text}

theorem commonPlace_iff_of_fromRoot (fromRoot : FromRoot modulePath) :
    CommonPlace directory ⟨modulePath, absoluteModulePath, drive⟩ ↔ modulePath = absoluteModulePath :=
  ⟨fun h => h.itself fromRoot, fun same => ⟨fun _ => same, fun relative => absurd fromRoot relative⟩⟩

theorem commonPlace_iff_of_slash (spelled : modulePath = '/' :: rest) :
    CommonPlace directory ⟨modulePath, absoluteModulePath, drive⟩ ↔ modulePath = absoluteModulePath :=
  commonPlace_iff_of_fromRoot (.inr (by rw [spelled]; rfl))

theorem commonPlace_iff_of_dot (spelled : modulePath = '.' :: rest) :
    CommonPlace directory ⟨modulePath, absoluteModulePath, drive⟩ ↔
      normalize (directory ++ '/' :: modulePath) = normalize (drive ++ absoluteModulePath) := by
  have relative : ¬ FromRoot modulePath := by simp [FromRoot, spelled]
  exact ⟨fun h => h.joined relative, fun same => ⟨fun fromRoot => absurd fromRoot relative, fun _ => same⟩⟩

end

/-- A working directory that is the root, but for a drive. -/
def IsRoot (directory : Text) : Prop :=
  fromRoot (normalize (directory ++ ['/'])) = root

/-- The resets that get to where the two spellings of a place differ. -/
inductive Strays (directory : Text) : Move → Prop
  /-- To an `init` file that lies in the working directory itself: what is left of its path is nothing, and
  that is taken for the root. -/
  | init {path name : Text} (isInit : name ∈ initNames) (spelled : normalize path = '.' :: '/' :: name)
      (below : ¬ IsRoot directory) : Strays directory (.path path)
  /-- To a directory that the path leads to without its name: where the joined path shows this name, a module
  ending of it goes. -/
  | ending {path before ending : Text} (relative : isAbsolute path = false)
      (unnamed : normalize path = before ++ ['/']) (mem : ending ∈ suffixes)
      (ends : ending <:+ normalize (directory ++ '/' :: path)) : Strays directory (.path path)
  /-- To what came from no file, which is at one place whatever the working directory is. -/
  | stdin (elsewhere : normalize (directory ++ ['/']) ≠ root) : Strays directory .stdin

/-- The moves that do not start from where the cursor stands. -/
def Move.IsReset : Move → Prop
  | .stdin | .path _ => True
  | .parent | .child _ => False

instance : DecidablePred Move.IsReset
  | .stdin | .path _ => isTrue trivial
  | .parent | .child _ => isFalse id

/-- The last reset of a run that got somewhere. -/
def lastReset : List Step → Cursor → Option Move
  | [], _ => none
  | step :: steps, c =>
    (lastReset steps (c.move step.files step.move).2).or
      (if step.move.IsReset ∧ (c.move step.files step.move).1 = .ok () then some step.move else none)

/-! ## Spellings -/

/-- An anchored cursor whose module path is empty, or starts at the root, or says that it is relative. -/
structure Charted (c : Cursor) : Prop extends Anchored c where
  spelled : c.modulePath = [] ∨ (∃ rest, c.modulePath = '/' :: rest) ∨ ∃ rest, c.modulePath = '.' :: rest

theorem Charted.start : Charted .start :=
  ⟨.start, .inr (.inl ⟨[], rfl⟩)⟩

theorem Charted.stdin : Charted .stdin :=
  ⟨.stdin, .inr (.inr ⟨_, rfl⟩)⟩

/-- What a normal form from the root leaves as a module path starts at the root. -/
theorem exists_orRoot_moduleOf (rest : Text) : ∃ more, orRoot (moduleOf ('/' :: rest)) = '/' :: more := by
  rcases moduleOf_slash rest with none | ⟨m, eq⟩
  · exact ⟨[], by rw [none]; rfl⟩
  · exact ⟨m, by rw [eq]; rfl⟩

/-- Without a module ending a normal form from the root is its own module path. With one, what is left of
it names another place. -/
theorem normalize_moduleOf_eq_iff (path : Text) :
    normalize (orRoot (moduleOf (normalize ('/' :: path)))) = normalize ('/' :: path) ↔
      ∀ ending ∈ suffixes, ¬ ending <:+ normalize ('/' :: path) := by
  obtain ⟨rest, normal⟩ := exists_normalize_slash path
  obtain ⟨m, spelled⟩ := exists_orRoot_moduleOf rest
  constructor
  · intro same ending mem ends
    have rooted := rooted_normalize_slash path
    rw [normal] at same rooted ends
    obtain ⟨front, base, all, -, -, shorter⟩ := exists_shorter_of_ending rooted mem ends
    have left : names (normalize (orRoot (moduleOf ('/' :: rest)))) =
        resolve true (names (stripModuleSuffix ('/' :: rest))) := by
      rw [← names_orRoot_moduleOf, spelled, names_normalize_of_separator rfl, names_slash]
    rw [same, names_slash, all] at left
    rcases shorter true with cut | cut
    · rw [cut] at left
      have same := (List.cons.inj (List.append_cancel_left left)).1
      exact suffix_ne_nil mem (List.append_right_eq_self.mp same)
    · rw [← left] at cut
      exact absurd cut.length_le (by simp)
  · intro none
    have whole : orRoot (moduleOf (normalize ('/' :: path))) = normalize ('/' :: path) := by
      rw [moduleOf, stripModuleSuffix_of_no_suffix none, normal]
      rfl
    rw [whole, normalize_normalize]

/-- What stands before the last name of an absolute normal form: a drive, and names each behind a slash. -/
theorem exists_above {path name : Text} (absolute : isAbsolute path = true) (proper : ProperName name)
    (plain : ¬ up <:+ name) :
    ∃ drive above, Drive drive ∧ (above = [] ∨ ∃ rest, above = '/' :: rest) ∧
      normalize (path ++ '/' :: name) = drive ++ (above ++ '/' :: name) ∧
      (orRoot above = root ↔ fromRoot (normalize path) = root) ∧
      ∀ more, normalize (drive ++ (above ++ '/' :: more)) = normalize (path ++ '/' :: more) := by
  obtain ⟨drive, s, rest, isDrive, separates, rfl⟩ := exists_drive_of_isAbsolute absolute
  have noSlash : '/' ∉ up := by decide
  have spelled : normalize (drive ++ s :: rest ++ '/' :: name) =
      drive ++ '/' :: join (resolve true (names rest) ++ [name]) := by
    have whole : closeUp ('/' :: join (resolve true (names rest) ++ [name])) =
        '/' :: join (resolve true (names rest) ++ [name]) := by
      obtain ⟨before, eq⟩ := exists_slash_join (resolve true (names rest)) name
      rw [closeUp, eq, if_neg]
      rwa [List.isSuffixOf_iff_suffix, suffix_append_slash_iff noSlash]
    rw [List.append_assoc, List.cons_append, normalize_append_separator isDrive separates, normalize_slash,
      names_append_slash, proper.names, resolve_append_name proper.isName proper.down, whole]
  have driveless : fromRoot (normalize (drive ++ s :: rest)) =
      closeUp ('/' :: join (resolve true (names rest))) := by
    rw [normalize_append_separator isDrive separates, fromRoot_append_normalize isDrive, normalize_slash]
  by_cases none : resolve true (names rest) = []
  · refine ⟨drive, [], isDrive, .inl rfl, by simpa [none] using spelled, ?_, fun more => ?_⟩
    · rw [driveless, none]
      exact iff_of_true rfl (by decide)
    · rw [List.nil_append, List.append_assoc, List.cons_append, normalize_append_separator isDrive rfl,
        normalize_append_separator isDrive separates]
      refine congrArg _ (normalize_slash_congr ?_)
      rw [names_append_slash, ← resolve_resolve_append, none, List.nil_append]
  · have below : join (resolve true (names rest)) ≠ [] := fun only =>
      none (by rw [← names_join_resolve true rest, only]; rfl)
    refine ⟨drive, '/' :: join (resolve true (names rest)), isDrive, .inr ⟨_, rfl⟩, ?_, ?_, fun more => ?_⟩
    · rw [spelled, join_concat none, List.cons_append]
    · refine iff_of_false (fun only => below (List.cons.inj only).2) fun only => ?_
      rw [driveless] at only
      rcases closeUp_eq ('/' :: join (resolve true (names rest))) with e | e <;> rw [e] at only
      · exact below (List.cons.inj only).2
      · simp [root] at only
    · rw [List.append_assoc, List.cons_append, List.cons_append,
        normalize_append_separator isDrive rfl, normalize_append_separator isDrive separates]
      refine congrArg _ (normalize_slash_congr ?_)
      rw [names_append_slash, names_append_slash, names_join_resolve, resolve_resolve_append]

/-- Nothing is left of an `init` file right below the root, and only of that. -/
theorem stripModuleSuffix_slash_eq_nil_iff {last : Text} :
    stripModuleSuffix ('/' :: last) = [] ↔ last ∈ initNames := by
  constructor
  · intro none
    obtain ⟨ending, eq, known⟩ := exists_ending ('/' :: last)
    rw [none, List.nil_append] at eq
    rcases known with rfl | known
    · cases eq
    · have roots : ∀ ending ∈ endings, ending.head? = some '/' → ending ∈ initSuffixes := by decide
      have isInit := roots ending known (by rw [← eq]; rfl)
      rw [← eq, initSuffixes_eq] at isInit
      obtain ⟨name, mem, same⟩ := List.mem_map.mp isInit
      exact (List.cons.inj same).2 ▸ mem
  · exact stripModuleSuffix_init []

/-- The only path that ends in a name and strays is that of an `init` file in the working directory. -/
theorem strays_named_iff {directory path before last : Text} (proper : ProperName last)
    (named : normalize path = '.' :: before ++ '/' :: last) :
    Strays directory (.path path) ↔ before = [] ∧ last ∈ initNames ∧ ¬ IsRoot directory := by
  have lastOf := lastComponent_append_slash ('.' :: before) proper.slash_notMem
  rw [← named] at lastOf
  constructor
  · intro strays
    cases strays with
    | @init _ name isInit spelled below =>
      have whole : '/' ∉ name := fun slash =>
        absurd ((endsPlainly_initName isInit).unbroken _ slash) (by decide)
      obtain rfl : name = last := by
        rw [← lastOf, spelled]
        exact (lastComponent_append_slash ['.'] whole).symm
      have front : '.' :: before = ['.'] := List.append_cancel_right (named.symm.trans spelled)
      exact ⟨(List.cons.inj front).2, isInit, below⟩
    | @ending _ front _ _ unnamed =>
      rw [unnamed, lastComponent_append_slash front List.not_mem_nil] at lastOf
      exact absurd lastOf.symm proper.ne_nil
  · rintro ⟨rfl, isInit, below⟩
    exact .init isInit named below

theorem orRoot_moduleOf_of_stripped {path modulePath : Text} (stripped : stripModuleSuffix path = modulePath)
    (other : modulePath ≠ here) : orRoot (moduleOf path) = orRoot modulePath := by
  rw [moduleOf, stripped, if_neg other]

section Conventional

variable {fs : FileSystem} (conventional : fs.Conventional)

include conventional

/-- Wherever a move leads from a charted place, the module path is spelled like one. -/
theorem Leads.spelled {c : Cursor} {t : Target} (leads : Leads fs c t) (charted : Charted c) :
    t.modulePath = [] ∨ (∃ rest, t.modulePath = '/' :: rest) ∨ ∃ rest, t.modulePath = '.' :: rest := by
  cases leads with
  | path path =>
    cases absolute : isAbsolute path with
    | true =>
      obtain ⟨rest, eq⟩ := exists_fromRoot_normalize absolute
      obtain ⟨more, normal⟩ := exists_normalize_slash rest
      rw [pathTarget_of_absolute conventional.usual absolute, eq, normal]
      exact .inr (.inl (exists_orRoot_moduleOf more))
    | false =>
      rw [pathTarget_of_joined conventional.usual absolute]
      rcases normalize_relative_cases absolute with ⟨rest, eq⟩ | eq <;> rw [eq]
      · rw [orRoot_of_climbs (climbs_moduleOf rest)]
        rcases climbs_moduleOf rest with up | ⟨more, eq⟩
        · exact .inr (.inr ⟨_, up⟩)
        · exact .inr (.inr ⟨_, eq⟩)
      · obtain ⟨rest, normal⟩ := exists_normalize_slash path
        rw [normal]
        rcases moduleOf_dot_slash rest with ⟨none, -⟩ | ⟨m, eq, -⟩
        · exact .inr (.inl ⟨[], by rw [none]; rfl⟩)
        · exact .inr (.inr ⟨_, by rw [eq]; rfl⟩)
  | step component =>
    rw [stepTarget_eq conventional.usual]
    rcases charted.spelled with none | ⟨rest, eq⟩ | ⟨rest, eq⟩
    · rw [none]
      exact .inr (.inl (exists_normalize_slash component))
    · rw [eq]
      exact .inr (.inl (exists_normalize_slash _))
    · rw [eq]
      exact .inr (.inr (exists_normalize_of_relative (isAbsolute_dot _)))
  | above => exact .inl rfl

/-- Every move over conventional files keeps a cursor charted. -/
theorem Charted.move {c : Cursor} (charted : Charted c) (m : Move) : Charted (c.move fs m).2 := by
  refine kept_by_move Charted charted .stdin (fun t c' leads landed => ?_) m
  have rooted := leads.rooted conventional charted.rooted
  have drive := leads.drive conventional charted.drive
  have spelled := leads.spelled conventional charted
  obtain ⟨file, absoluteFile, -, -, rfl⟩ := land_eq_ok_iff.mp landed
  exact ⟨⟨rooted, drive⟩, spelled⟩

/-! ## Paths that are joined -/

/-- A closing slash of the working directory makes no difference. -/
theorem normalize_joined (path : Text) :
    normalize (fs.workingDirectory ++ '/' :: path) =
      normalize (fs.workingDirectory ++ ['/'] ++ '/' :: path) := by
  rcases conventional.directory with none | absolute
  · rw [none]
    exact normalize_slash_congr (by simp)
  · obtain ⟨drive, s, rest, isDrive, separates, eq⟩ := exists_drive_of_isAbsolute absolute
    rw [eq]
    simp only [List.append_assoc, List.cons_append, List.nil_append,
      normalize_append_separator isDrive separates]
    exact congrArg _ (normalize_slash_congr (by simp [names_append_slash]))

theorem isAbsolute_joined_append (path more : Text) :
    isAbsolute (fs.workingDirectory ++ '/' :: path ++ more) = true :=
  isAbsolute_append (isAbsolute_joined conventional path) more

/-- A relative path may as well be joined in its normal form. -/
theorem normalize_joined_normalize {path : Text} (relative : isAbsolute path = false) :
    normalize (fs.workingDirectory ++ '/' :: normalize path) =
      normalize (fs.workingDirectory ++ '/' :: path) := by
  rw [normalize_joined conventional, normalize_joined conventional path]
  refine normalize_append_normalize ?_ relative
  rw [isAbsolute_joined_append conventional, isAbsolute_joined conventional]

/-- What is joined may go on from its normal form. -/
theorem normalize_joined_append (path more : Text) :
    normalize (fs.workingDirectory ++ '/' :: (path ++ '/' :: more)) =
      normalize (normalize (fs.workingDirectory ++ '/' :: path) ++ '/' :: more) := by
  have absolute : isAbsolute (fs.workingDirectory ++ '/' :: path ++ '/' :: more) =
      isAbsolute (fs.workingDirectory ++ '/' :: path) := by
    rw [isAbsolute_joined_append conventional, isAbsolute_joined conventional]
  rw [normalize_normalize_append absolute, List.append_assoc, List.cons_append]

/-! ## One component more -/

/-- From where both spellings name one place, one more component leads to where they do. -/
theorem commonPlace_step {c : Cursor} (charted : Charted c)
    (same : CommonPlace fs.workingDirectory c.target) (component : Text) :
    CommonPlace fs.workingDirectory (stepTarget fs c component) := by
  rw [stepTarget_eq conventional.usual]
  rcases charted.spelled with none | ⟨rest, eq⟩ | ⟨rest, eq⟩
  · have same : c.modulePath = c.absoluteModulePath := same.itself (.inl none)
    obtain ⟨more, normal⟩ := exists_normalize_slash component
    rw [← same, none, List.nil_append, commonPlace_iff_of_slash normal]
  · have same : c.modulePath = c.absoluteModulePath := (commonPlace_iff_of_slash eq).mp same
    obtain ⟨more, normal⟩ := exists_normalize_slash (rest ++ '/' :: component)
    rw [← same, eq, List.cons_append, commonPlace_iff_of_slash normal]
  · have same : normalize (fs.workingDirectory ++ '/' :: c.modulePath) =
        normalize (c.drive ++ c.absoluteModulePath) := (commonPlace_iff_of_dot eq).mp same
    have relative : isAbsolute (c.modulePath ++ '/' :: component) = false := by
      rw [eq]
      exact isAbsolute_dot _
    obtain ⟨more, normal⟩ := exists_normalize_of_relative relative
    rw [commonPlace_iff_of_dot normal]
    show normalize (fs.workingDirectory ++ '/' :: normalize (c.modulePath ++ '/' :: component)) =
      normalize (c.drive ++ normalize (c.absoluteModulePath ++ '/' :: component))
    rcases charted.rooted with none | ⟨path, fromRoot, -⟩
    · -- A drive alone is relative, and what is joined is not.
      have absolute := isAbsolute_joined conventional c.modulePath
      rw [← isAbsolute_normalize, same, isAbsolute_normalize, none, List.append_nil,
        charted.drive.isAbsolute_eq_false] at absolute
      cases absolute
    · have goesOn : isAbsolute (c.drive ++ '/' :: path ++ '/' :: component) =
          isAbsolute (c.drive ++ '/' :: path) := by
        rw [List.append_assoc, List.cons_append, isAbsolute_append_separator charted.drive rfl,
          isAbsolute_append_separator charted.drive rfl]
      calc normalize (fs.workingDirectory ++ '/' :: normalize (c.modulePath ++ '/' :: component))
          = normalize (normalize (fs.workingDirectory ++ '/' :: c.modulePath) ++ '/' :: component) := by
            rw [normalize_joined_normalize conventional relative, normalize_joined_append conventional]
        _ = normalize (c.drive ++ '/' :: path ++ '/' :: component) := by
            rw [same, fromRoot, normalize_normalize_append goesOn]
        _ = normalize (c.drive ++ normalize (c.absoluteModulePath ++ '/' :: component)) := by
            rw [fromRoot, List.cons_append, charted.drive.normalize_append_normalize, List.append_assoc,
              List.cons_append]

/-! ## Resets -/

/-- What an absolute path leads to is spelled in one way. -/
theorem commonPlace_of_absolute {path : Text} (absolute : isAbsolute path = true) (directory : Text) :
    CommonPlace directory (pathTarget fs path) := by
  obtain ⟨rest, eq⟩ := exists_fromRoot_normalize absolute
  obtain ⟨more, normal⟩ := exists_normalize_slash rest
  obtain ⟨m, spelled⟩ := exists_orRoot_moduleOf more
  rw [pathTarget_of_absolute conventional.usual absolute, eq, normal]
  exact (commonPlace_iff_of_slash spelled).mpr rfl

omit conventional in
theorem relative_of_strays {directory path : Text} (strays : Strays directory (.path path)) :
    isAbsolute path = false := by
  cases strays with
  | init isInit spelled below =>
    rw [← isAbsolute_normalize, spelled]
    exact isAbsolute_dot _
  | ending relative => exact relative

/-- A relative path leads behind the drive of the path that is joined. -/
theorem pathTarget_of_spelled {path drive rest : Text} (relative : isAbsolute path = false)
    (isDrive : Drive drive)
    (joined : normalize (fs.workingDirectory ++ '/' :: normalize path) = drive ++ '/' :: rest) :
    pathTarget fs path =
      ⟨orRoot (moduleOf (normalize path)), orRoot (moduleOf ('/' :: rest)), drive⟩ := by
  rw [pathTarget_of_joined conventional.usual relative, joined, fromRoot_append isDrive,
    driveOf_append isDrive]

/-- A path that ends in a slash leads to one place if the joined path has no module ending. -/
theorem commonPlace_unnamed_iff {path before : Text} (relative : isAbsolute path = false)
    (unnamed : normalize path = before ++ ['/']) :
    CommonPlace fs.workingDirectory (pathTarget fs path) ↔
      ¬ Strays fs.workingDirectory (.path path) := by
  have noEnding : ∀ ending ∈ suffixes, ¬ ending <:+ normalize path := fun ending mem ends => by
    rw [unnamed, suffix_append_slash_iff (slash_notMem_suffix mem), List.suffix_nil] at ends
    exact suffix_ne_nil mem ends
  have module : orRoot (moduleOf (normalize path)) = normalize path := by
    rw [moduleOf, stripModuleSuffix_of_no_suffix noEnding, if_neg, unnamed]
    · cases before <;> rfl
    · intro only
      have last := congrArg List.getLast? (unnamed.symm.trans only)
      simp [here] at last
  obtain ⟨rest, dot⟩ := exists_normalize_of_relative relative
  obtain ⟨drive, behind, isDrive, joined⟩ :=
    exists_normalize_of_isAbsolute (isAbsolute_joined conventional (normalize path))
  obtain ⟨more, normal⟩ := exists_normalize_slash behind
  obtain ⟨m, spelled⟩ := exists_orRoot_moduleOf more
  have whole := normalize_moduleOf_eq_iff behind
  rw [normal] at joined whole
  rw [pathTarget_of_spelled conventional relative isDrive joined, module,
    commonPlace_iff_of_dot dot, joined, spelled, normalize_append_separator isDrive rfl,
    List.append_cancel_left_eq, eq_comm, ← spelled, whole]
  constructor
  · rintro none strays
    cases strays with
    | @init _ name isInit spelled =>
      have known : ∀ name ∈ initNames, ∃ ending ∈ suffixes, ending <:+ name := by decide
      obtain ⟨ending, mem, ends⟩ := known name isInit
      exact noEnding ending mem (spelled ▸ ends.trans (List.suffix_append ['.', '/'] name))
    | ending _ _ mem ends =>
      rw [← normalize_joined_normalize conventional relative, joined,
        suffix_append_slash_iff (slash_notMem_suffix mem)] at ends
      exact none _ mem (ends.trans (List.suffix_cons _ _))
  · intro plain ending mem ends
    refine plain (.ending relative unnamed mem ?_)
    rw [← normalize_joined_normalize conventional relative, joined]
    exact ends.trans (List.suffix_append _ _)

/-- A path that ends in a name leads to one place, but for that of an `init` file which lies in the working
directory itself. -/
theorem commonPlace_named_iff {path before last : Text} (relative : isAbsolute path = false)
    (proper : ProperName last) (plain : ¬ up <:+ last) (named : normalize path = '.' :: before ++ '/' :: last) :
    CommonPlace fs.workingDirectory (pathTarget fs path) ↔
      ¬ Strays fs.workingDirectory (.path path) := by
  obtain ⟨drive, above, isDrive, fromRoot', joined, below, goesOn⟩ :=
    exists_above (isAbsolute_joined conventional ('.' :: before)) proper plain
  rw [List.append_assoc, List.cons_append, ← named] at joined
  obtain ⟨rest, spelled⟩ : ∃ rest, above ++ '/' :: last = '/' :: rest := by
    rcases fromRoot' with rfl | ⟨rest, rfl⟩
    · exact ⟨_, rfl⟩
    · exact ⟨_, rfl⟩
  have module := stripModuleSuffix_append_slash ('.' :: before) last
  have absoluteModule := stripModuleSuffix_append_slash above last
  have joinedPath := isAbsolute_joined conventional ('.' :: before)
  rw [pathTarget_of_spelled conventional relative isDrive (spelled ▸ joined), ← spelled,
    strays_named_iff proper named, named]
  rcases stripModuleSuffix_slash last with none | ⟨m, some⟩
  · -- The name goes, so on both sides the directory is left.
    have isInit := stripModuleSuffix_slash_eq_nil_iff.mp none
    rw [none, List.append_nil] at module absoluteModule
    rw [orRoot_moduleOf_of_stripped absoluteModule (by rcases fromRoot' with rfl | ⟨_, rfl⟩ <;> simp [here])]
    by_cases itself : before = []
    · subst itself
      have left : orRoot (moduleOf (['.'] ++ '/' :: last)) = root := by
        rw [moduleOf, module]
        rfl
      have same : normalize (fs.workingDirectory ++ '/' :: here) = normalize (fs.workingDirectory ++ ['/']) := by
        rw [← normalize_joined_normalize conventional (show isAbsolute here = false from rfl),
          ← normalize_joined_normalize conventional (show isAbsolute [] = false from rfl)]
        rfl
      rw [left, commonPlace_iff_of_slash (show root = '/' :: [] from rfl), eq_comm, below, IsRoot, ← same]
      simp [isInit, here]
    · rw [orRoot_moduleOf_of_stripped module (by simpa [here] using itself)]
      refine iff_of_true ((commonPlace_iff_of_dot rfl).mpr ?_) fun strays => itself strays.1
      show normalize (fs.workingDirectory ++ '/' :: '.' :: before) = normalize (drive ++ orRoot above)
      rw [← normalize_append_closing joinedPath, ← goesOn []]
      rcases fromRoot' with rfl | ⟨rest, rfl⟩
      · rfl
      · rw [← List.append_assoc, normalize_append_closing (isAbsolute_append_separator isDrive rfl rest)]
        rfl
  · -- On both sides the same is left of the name.
    have notInit : last ∉ initNames := fun isInit => by
      rw [stripModuleSuffix_slash_eq_nil_iff.mpr isInit] at some
      cases some
    rw [some] at module absoluteModule
    rw [orRoot_moduleOf_of_stripped module (by cases before <;> simp [here]),
      orRoot_moduleOf_of_stripped absoluteModule (by rcases fromRoot' with rfl | ⟨_, rfl⟩ <;> simp [here])]
    refine iff_of_true ((commonPlace_iff_of_dot rfl).mpr ?_) fun strays =>
      notInit strays.2.1
    have whole : orRoot (above ++ '/' :: m) = above ++ '/' :: m := by
      rcases fromRoot' with rfl | ⟨_, rfl⟩ <;> rfl
    show normalize (fs.workingDirectory ++ '/' :: ('.' :: before ++ '/' :: m)) =
      normalize (drive ++ orRoot (above ++ '/' :: m))
    rw [whole, goesOn, List.append_assoc]
    rfl

/-- A path leads to one place if it does not stray. -/
theorem commonPlace_path_iff (path : Text) :
    CommonPlace fs.workingDirectory (pathTarget fs path) ↔
      ¬ Strays fs.workingDirectory (.path path) := by
  cases absolute : isAbsolute path with
  | true =>
    refine iff_of_true (commonPlace_of_absolute conventional absolute _) fun strays => ?_
    rw [relative_of_strays strays] at absolute
    cases absolute
  | false =>
    rcases exists_last_of_relative absolute with ⟨before, unnamed⟩ | ⟨before, last, proper, plain, named⟩
    · exact commonPlace_unnamed_iff conventional absolute unnamed
    · exact commonPlace_named_iff conventional absolute proper plain named

/-- What came from no file is at one place if the working directory is the root, without a drive. -/
theorem commonPlace_stdin_iff :
    CommonPlace fs.workingDirectory stdin.target ↔ ¬ Strays fs.workingDirectory .stdin := by
  rcases conventional.directory with none | absolute
  · rw [none]
    exact iff_of_true (by decide +kernel) fun | .stdin elsewhere => elsewhere (by decide +kernel)
  have named : ProperName "stdin".toList := ⟨by decide, by decide, by decide⟩
  have stays : ∀ more, isAbsolute (fs.workingDirectory ++ more) = isAbsolute fs.workingDirectory := fun more => by
    rw [isAbsolute_append absolute, absolute]
  have same : CommonPlace fs.workingDirectory stdin.target ↔
      normalize (fs.workingDirectory ++ '/' :: "stdin".toList) = "/stdin".toList := by
    rw [← normalize_joined_normalize conventional (show isAbsolute "stdin".toList = false by decide)]
    exact commonPlace_iff_of_dot rfl
  rw [same]
  constructor
  · rintro there (_ | _ | elsewhere)
    refine elsewhere ?_
    rw [normalize_append_closing absolute, ← named.normalize_append_up (stays _),
      normalize_joined_append conventional, there]
    decide +kernel
  · intro notStray
    have atRoot : normalize (fs.workingDirectory ++ ['/']) = root := by_contra fun elsewhere =>
      notStray (.stdin elsewhere)
    rw [normalize_append_closing absolute] at atRoot
    rw [← normalize_normalize_append (stays _), atRoot]
    decide +kernel

/-! ## Moves -/

/-- Above a place and right below it both spellings name one place if they do there. -/
theorem commonPlace_parent {c c' : Cursor} (charted : Charted c)
    (same : CommonPlace fs.workingDirectory c.target) (up : c.move fs .parent = (.ok (), c')) :
    CommonPlace fs.workingDirectory c'.target := by
  have destined : destination fs c .parent = .ok c' := destination_of_move up
  rw [destination] at destined
  rcases charted.rooted with none | ⟨path, fromRoot, -⟩
  · simp [parentTarget, none, bind, Except.bind] at destined
  · rw [parentTarget_slash fs fromRoot] at destined
    rw [target_of_land destined]
    split
    · exact commonPlace_step conventional charted same Path.up
    · exact (commonPlace_iff_of_fromRoot (.inl rfl)).mpr rfl

/-- A reset gets to where both spellings name one place if it does not stray, and the other moves get there
from such a place. -/
theorem commonPlace_move {c c' : Cursor} (charted : Charted c) {m : Move}
    (reached : c.move fs m = (.ok (), c')) :
    (m.IsReset → (CommonPlace fs.workingDirectory c'.target ↔ ¬ Strays fs.workingDirectory m)) ∧
      (¬ m.IsReset → CommonPlace fs.workingDirectory c.target →
        CommonPlace fs.workingDirectory c'.target) := by
  have destined := destination_of_move reached
  cases m with
  | stdin =>
    cases destined
    exact ⟨fun _ => commonPlace_stdin_iff conventional, fun no => absurd trivial no⟩
  | path path =>
    rw [target_of_land destined]
    exact ⟨fun _ => commonPlace_path_iff conventional path, fun no => absurd trivial no⟩
  | parent => exact ⟨False.elim, fun _ same => commonPlace_parent conventional charted same reached⟩
  | child name =>
    rw [target_of_land destined]
    exact ⟨False.elim, fun _ same => commonPlace_step conventional charted same name⟩

end Conventional

/-! ## Runs -/

/-- Steps over conventional files with one working directory. -/
def Under (directory : Text) (steps : List Step) : Prop :=
  ∀ step ∈ steps, step.files.Conventional ∧ step.files.workingDirectory = directory

theorem Charted.run {directory : Text} {steps : List Step} (under : Under directory steps) {c : Cursor}
    (charted : Charted c) : Charted (c.run steps).2 := by
  induction steps generalizing c with
  | nil => exact charted
  | cons step steps ih =>
    exact ih (fun later mem => under later (List.mem_cons_of_mem _ mem))
      (charted.move (under step List.mem_cons_self).1 step.move)

theorem eq_of_move_error {fs : FileSystem} {c c' : Cursor} {m : Move} {e : NavigateError}
    (failed : c.move fs m = (.error e, c')) : c' = c := by
  unfold move at failed
  split at failed
  · cases failed
  · exact (Prod.mk.inj failed).2.symm

/-- Where a run ends, both spellings name one place if they do where its last reset got to. -/
theorem commonPlace_run {directory : Text} {steps : List Step} (under : Under directory steps) {c : Cursor}
    (charted : Charted c) (same : c.lastReset steps = none → CommonPlace directory c.target)
    (along : ∀ m ∈ c.lastReset steps, ¬ Strays directory m) :
    CommonPlace directory (c.run steps).2.target := by
  induction steps generalizing c with
  | nil => exact same rfl
  | cons step steps ih =>
    obtain ⟨conventional, rfl⟩ := under step List.mem_cons_self
    refine ih (fun later mem => under later (List.mem_cons_of_mem _ mem))
      (charted.move conventional step.move) (fun none => ?_) fun m mem => along m ?_
    · rcases ended : c.move step.files step.move with ⟨_ | ⟨⟩, c'⟩
      · obtain rfl := eq_of_move_error ended
        rw [ended] at none
        exact same (by simp [lastReset, ended, none])
      · rw [ended] at none
        have moved := commonPlace_move conventional charted ended
        by_cases reset : step.move.IsReset
        · refine (moved.1 reset).mpr (along step.move ?_)
          simp [lastReset, ended, none, reset]
        · exact moved.2 reset (same (by simp [lastReset, ended, none, reset]))
    · rw [lastReset, Option.mem_def.mp mem]
      rfl

/-- **The two spellings name one place unless a reset strays.** Under a working directory that stays, whatever
the files are at every move, both module paths name one place wherever a run is whose last reset did not
stray. From anywhere that runs lead, a reset gets to such a place exactly if it does not stray, and the moves
to a parent and to a child keep to such places. -/
theorem spellings_name_one_place {directory : Text} {history : List Step} (under : Under directory history) :
    let c := (start.run history).2
    ((∀ m ∈ start.lastReset history, ¬ Strays directory m) → CommonPlace directory c.target) ∧
    ∀ fs : FileSystem, fs.Conventional → fs.workingDirectory = directory →
      ∀ m c', c.move fs m = (.ok (), c') →
        (m.IsReset → (CommonPlace directory c'.target ↔ ¬ Strays directory m)) ∧
        (¬ m.IsReset → CommonPlace directory c.target → CommonPlace directory c'.target) := by
  intro c
  refine ⟨commonPlace_run under .start fun _ => (commonPlace_iff_of_slash rfl).mpr rfl, ?_⟩
  rintro fs conventional rfl m c' reached
  exact commonPlace_move conventional (Charted.start.run under) reached

/-- From an `init` file below a working directory on a drive up to the working directory itself. -/
theorem spellings_name_one_place_of_parent :
    let tree : FileTree :=
      .ofStorings [.file "/x/init.lua".toList [], .file "/a.lua/x/init.lua".toList []]
    let fs := (FileSystem.ofTree tree).within "C:/a.lua".toList
    let history : List Step := [⟨fs, .stdin⟩, ⟨fs, .path "x/init.lua".toList⟩, ⟨fs, .parent⟩]
    let c := (start.run history).2
    Under "C:/a.lua".toList history ∧
      (∀ m ∈ start.lastReset history, ¬ Strays "C:/a.lua".toList m) ∧
      c.modulePath = "./".toList ∧ c.absoluteModulePath = "/a.lua".toList ∧
      CommonPlace "C:/a.lua".toList c.target := by
  intro tree fs history c
  have here : fs.Conventional ∧ fs.workingDirectory = "C:/a.lua".toList :=
    ⟨⟨FileSystem.usualPaths_ofTree tree, .inr (by decide +kernel)⟩, rfl⟩
  have under : Under "C:/a.lua".toList history := by
    simp only [Under, history, List.forall_mem_cons]
    exact ⟨here, here, here, nofun⟩
  have named : ProperName "init.lua".toList := ⟨by decide, by decide, by decide⟩
  have spelled : normalize "x/init.lua".toList = '.' :: "/x".toList ++ '/' :: "init.lua".toList := by
    decide +kernel
  have along : ∀ m ∈ start.lastReset history, ¬ Strays "C:/a.lua".toList m := by
    have reset : start.lastReset history = some (.path "x/init.lua".toList) := by decide +kernel
    rintro m mem strays
    obtain rfl := Option.some.inj (reset.symm.trans mem)
    exact absurd ((strays_named_iff named spelled).mp strays).1 (by decide)
  have same : CommonPlace "C:/a.lua".toList c.target := (spellings_name_one_place under).1 along
  have module : c.modulePath = "./".toList := by decide +kernel
  have absoluteModule : c.absoluteModulePath = "/a.lua".toList := by decide +kernel
  exact ⟨under, along, module, absoluteModule, same⟩

/-- The `init` file of a working directory: as it was reached the module is the root, and from the root it is
the working directory. -/
theorem not_commonPlace_of_init :
    let tree : FileTree := .ofStorings [.file "/a/init.luau".toList []]
    let moved := start.move ((FileSystem.ofTree tree).within "/a".toList) (.path "init.luau".toList)
    moved.1 = .ok () ∧ moved.2.modulePath = "/".toList ∧ moved.2.absoluteModulePath = "/a".toList ∧
      ¬ CommonPlace "/a".toList moved.2.target := by
  decide +kernel

end Cursor

end ScriptHost

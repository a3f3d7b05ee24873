/-
Where the configuration file of a cursor lies: behind what is left of the path to its file without an
ending. Mostly that is the place that the module path names, since the ending is what was put behind the
module path to find the file (`stripModuleSuffix_of_realPath`). But a directory without an `init` file keeps
its own path, and its name may have an ending of its own, which goes all the same; and a name that is
dropped from a module path counts behind a drive. There are no other exceptions (`configInside_iff_of_land`).
-/
import ScriptHost.Proofs.Cursor.Candidates
import ScriptHost.Proofs.Cursor.Landing
import ScriptHost.Proofs.Cursor.OwnFile

namespace ScriptHost

open ScriptHost.Path

/-! ## One component more -/

/-- A component behind names is one more of them, or it takes names away. -/
theorem Path.resolve_concat_cases {front : List Text}
    (down : ∀ name ∈ front, isName name = true ∧ name ≠ up) (absolute : Bool) (base : Text) :
    resolve absolute (front ++ [base]) = front ++ [base] ∨ resolve absolute (front ++ [base]) <+: front := by
  have last : resolve absolute (front ++ [base]) = (resolveComponent absolute front.reverse base).reverse := by
    rw [resolve, List.foldl_append, foldl_resolveComponent_of_down down, List.append_nil]
    rfl
  rw [last]
  unfold resolveComponent
  split
  · next isUp =>
    split
    · next none =>
      rw [List.reverse_eq_nil_iff.mp none, isUp]
      cases absolute <;> simp
    · next top below all =>
      obtain rfl : front = below.reverse ++ [top] := by
        rw [← List.reverse_reverse front, all, List.reverse_cons]
      split
      · simp [isUp]
      · exact .inr (List.prefix_append _ _)
  · split
    · simp
    · simp

/-! ## Names that were cut off -/

namespace FileKey

variable {front : List Text} {last : Text}

/-- With another name at the end there is another key, dropped names aside. -/
theorem withoutDrive_concat_ne {base : Text} (other : base ≠ last) :
    withoutDrive (front ++ [base]) ≠ withoutDrive front ++ [last] := by
  intro same
  by_cases none : front = []
  · subst none
    by_cases drive : IsDrive base
    · rw [List.nil_append, withoutDrive_cons drive] at same
      cases same
    · rw [withoutDrive_concat drive] at same
      exact other (List.cons.inj same).1
  · rw [withoutDrive_append none] at same
    exact other (List.cons.inj (List.append_cancel_left same)).1

/-- With names taken away there is another key, whether the first is dropped or not. -/
theorem ne_of_prefix {short : List Text} (noDrive : ¬ IsDrive last) (cut : short <+: front) :
    short ≠ withoutDrive front ++ [last] ∧ withoutDrive short ≠ withoutDrive front ++ [last] := by
  have shorter := cut.length_le
  rcases front with _ | ⟨first, rest⟩
  · simp [List.prefix_nil.mp cut, withoutDrive]
  by_cases drive : IsDrive first
  · rw [withoutDrive_cons drive]
    constructor
    · -- One name goes in front and one comes behind, so all are one name, and the last is no drive.
      rintro rfl
      have all := cut.eq_of_length (by simp)
      exact noDrive (Cursor.eq_of_cons_eq_concat all.symm ▸ drive)
    · rcases short with _ | ⟨first', short⟩
      · simp [withoutDrive]
      · obtain ⟨rfl, cut⟩ := List.cons_prefix_cons.mp cut
        rw [withoutDrive_cons drive]
        exact fun same => absurd cut.length_le (by simp [same])
  · rw [withoutDrive_of_head (by simpa using drive)]
    have shortest := (withoutDrive_suffix short).length_le
    have more : (first :: rest ++ [last]).length = (first :: rest).length + 1 := by simp
    constructor
    · intro same
      rw [← same] at more
      omega
    · intro same
      rw [← same] at more
      omega

end FileKey

/-! ## Leads -/

/-- What a path has before its first slash. -/
inductive Lead where
  | root
  | letter (d : Char) (alpha : d.isAlpha = true)
  | dot

namespace Lead

def text : Lead → Text
  | root => []
  | letter d _ => [d, ':']
  | dot => here

/-- The place that names come to behind a lead, if they do not lead above it. -/
def place : Lead → List Text → Option FileKey
  | root, names => some (FileKey.withoutDrive (resolve true names))
  | letter _ _, names => some (resolve true names)
  | dot, names =>
    if (resolve false names).all (· ≠ up) then some (resolve false names) else none

def drive : Lead → Text
  | letter d _ => [d, ':']
  | root | dot => []

/-- The same without the drive. -/
def driveless : Lead → Lead
  | root | letter _ _ => root
  | dot => dot

theorem exists_of_drive {drive : Text} (isDrive : Drive drive) :
    ∃ lead : Lead, lead.text = drive ∧ lead.drive = drive ∧ lead.driveless = root := by
  cases isDrive with
  | none => exact ⟨root, rfl, rfl, rfl⟩
  | letter alpha => exact ⟨letter _ alpha, rfl, rfl, rfl⟩

theorem place_dot (names : List Text) :
    dot.place names = if up ∈ resolve false names then none else some (resolve false names) := by
  by_cases climbs : up ∈ resolve false names <;> simp [place, climbs]

theorem ofPath_eq (lead : Lead) (path : Text) :
    FileKey.ofPath (lead.text ++ '/' :: path) = lead.place (names path) := by
  cases lead with
  | root => exact FileKey.ofPath_slash path
  | letter d alpha => exact FileKey.ofPath_drive alpha rfl path
  | dot => exact (FileKey.ofPath_dot_slash path).trans (place_dot _).symm

/-- A plain name behind a lead and what may stand between them. -/
theorem ofPath_append_name (lead : Lead) {rest name : Text} (fromRoot : rest = [] ∨ ∃ more, rest = '/' :: more)
    (plain : FileKey.EndsPlainly name) :
    FileKey.ofPath (lead.text ++ (rest ++ '/' :: name)) =
      (lead.place (names rest)).map (· ++ [name]) := by
  -- One slash more makes no difference.
  have closed : FileKey.ofPath (lead.text ++ (rest ++ '/' :: name)) =
      FileKey.ofPath ((lead.text ++ '/' :: rest) ++ '/' :: name) := by
    rcases fromRoot with rfl | ⟨more, rfl⟩
    · rw [List.nil_append, ofPath_eq, List.append_assoc, List.cons_append, ofPath_eq, List.nil_append,
        names_slash]
    · rw [List.cons_append, ofPath_eq, List.append_assoc, List.cons_append, ofPath_eq, List.cons_append,
        names_slash]
  have absolute : isAbsolute ((lead.text ++ '/' :: rest) ++ '/' :: name) =
      isAbsolute (lead.text ++ '/' :: rest) := by
    cases lead <;> simp [text, isAbsolute, here]
  rw [closed, FileKey.ofPath_append_name plain (.inr absolute), ofPath_eq]

/-- Without the drive of a lead, names come to the same place if none of them is dropped. -/
theorem place_driveless_iff (lead : Lead) (names : List Text) :
    lead.place names = lead.driveless.place names ↔
      lead.drive = [] ∨ ∀ first ∈ (resolve true names).head?, ¬ FileKey.IsDrive first := by
  cases lead with
  | root | dot => simp [driveless, drive]
  | letter d alpha =>
    rw [← FileKey.withoutDrive_eq_self_iff, @eq_comm FileKey (FileKey.withoutDrive _)]
    simp [driveless, drive, place]

/-- With a name taken away, or with another name at the end, names do not come to the same place. -/
theorem place_ne_of_shorter (lead : Lead) {names front : List Text} {base last : Text}
    (down : ∀ name ∈ front ++ [last], isName name = true ∧ name ≠ up) (noDrive : ¬ FileKey.IsDrive last)
    (other : base ≠ last)
    (shorter : ∀ absolute, resolve absolute names = front ++ [base] ∨ resolve absolute names <+: front) :
    lead.place names ≠ lead.driveless.place (front ++ [last]) := by
  have whole := FileKey.withoutDrive_concat noDrive front
  cases lead with
  | root =>
    rw [driveless, place, place, resolve_of_down down, whole, Ne, Option.some.injEq]
    rcases shorter true with cut | cut
    · rw [cut]
      exact FileKey.withoutDrive_concat_ne other
    · exact (FileKey.ne_of_prefix noDrive cut).2
  | letter d alpha =>
    rw [driveless, place, place, resolve_of_down down, whole, Ne, Option.some.injEq]
    rcases shorter true with cut | cut
    · rw [cut]
      exact fun same => other (List.cons.inj (List.append_inj_right' same rfl)).1
    · exact (FileKey.ne_of_prefix noDrive cut).1
  | dot =>
    have stays : up ∉ front ++ [last] := fun mem => (down up mem).2 rfl
    rw [driveless, place_dot, place_dot, resolve_of_down down, if_neg stays]
    split
    · simp
    · rw [Ne, Option.some.injEq]
      rcases shorter false with cut | cut
      · rw [cut]
        exact fun same => other (List.cons.inj (List.append_inj_right' same rfl)).1
      · exact fun same => absurd cut.length_le (by simp [same])

end Lead

namespace Cursor

/-! ## Where the file lies -/

def configName : Text := ".luaurc".toList

theorem endsPlainly_configName : FileKey.EndsPlainly configName :=
  .of_getLast? (c := 'c') (by decide) rfl (by decide) (by decide)

/-- The configuration file of a cursor lies right inside what its module path names. -/
def ConfigInside (tree : FileTree) (c : Cursor) : Prop :=
  FileKey.ofPath (c.configPath (.ofTree tree)) = (FileKey.ofPath c.modulePath).map (· ++ [configName])

/-- A directory that stands for itself and is named like a module file. -/
structure NamedLikeFile (tree : FileTree) (modulePath : Text) : Prop where
  directory : tree.isDirectory modulePath = true
  noInit : initsAt tree modulePath = ∅
  ends : ∃ ending ∈ suffixes, ending <:+ modulePath

/-- The ways to look for the configuration file somewhere else. -/
inductive Misplaced (tree : FileTree) (c : Cursor) : Prop
  /-- The ending of a directory is cut off. -/
  | cut (named : NamedLikeFile tree c.modulePath)
  /-- A name that is dropped from the module path counts behind the drive. -/
  | driveTwice (drive : c.drive ≠ []) (starts : StartsLikeDrive c.modulePath)

theorem configPath_ofTree (tree : FileTree) (c : Cursor) :
    c.configPath (.ofTree tree) = stripModuleSuffix c.filePath ++ '/' :: configName := by
  show join [stripModuleSuffix c.filePath, configName] = _
  rw [join_cons_cons, join_singleton]

/-- Whether the file lies inside, if of the path to the module file a lead and a path behind it is left. -/
theorem configInside_iff_of_stripped {tree : FileTree} {c : Cursor} {lead : Lead} {rest : Text}
    (stripped : stripModuleSuffix c.filePath = lead.text ++ rest)
    (fromRoot : rest = [] ∨ ∃ more, rest = '/' :: more) :
    ConfigInside tree c ↔ lead.place (names rest) = FileKey.ofPath c.modulePath := by
  rw [ConfigInside, configPath_ofTree, stripped, List.append_assoc,
    lead.ofPath_append_name fromRoot endsPlainly_configName]
  exact (Option.map_injective (List.append_left_injective [configName])).eq_iff

/-! ## What is left of the file -/

/-- What a module path resolves to comes back to it without its ending, but for slashes at the end. -/
theorem stripModuleSuffix_of_realPath {tree : FileTree} {modulePath file : Text}
    (resolved : realPath (.ofTree tree) modulePath = .ok file) (whole : ¬ NamedLikeFile tree modulePath) :
    stripModuleSuffix file = modulePath ∨ stripModuleSuffix file = trimSlashes modulePath := by
  rcases realPath_eq_ok_iff.mp resolved with ⟨files, -⟩ | ⟨-, directory, inits | ⟨inits, rfl⟩⟩
  · have found : file ∈ moduleFiles (.ofTree tree) modulePath := by simp [files]
    obtain ⟨notInit, ending, mem, rfl, -⟩ := mem_moduleFiles.mp found
    exact .inl (stripModuleSuffix_append notInit mem)
  · have found : file ∈ initFiles (.ofTree tree) modulePath := by simp [inits]
    obtain ⟨ending, mem, rfl, -⟩ := mem_initFiles.mp found
    obtain ⟨name, isInit, rfl⟩ := List.mem_map.mp (initSuffixes_eq ▸ mem)
    exact .inr (stripModuleSuffix_init _ isInit)
  · have noInit : initsAt tree file = ∅ :=
      Set.eq_empty_iff_forall_notMem.mpr fun other => by simp [← mem_initFiles_iff, inits]
    exact .inl (stripModuleSuffix_of_no_suffix fun ending mem ends =>
      whole ⟨directory, noInit, ending, mem, ends⟩)

/-- A directory that stands for itself is what it resolves to. -/
theorem NamedLikeFile.eq_of_realPath {tree : FileTree} {modulePath file : Text}
    (named : NamedLikeFile tree modulePath) (resolved : realPath (.ofTree tree) modulePath = .ok file) :
    file = modulePath := by
  rcases realPath_eq_ok_iff.mp resolved with ⟨-, noDirectory⟩ | ⟨-, -, inits | ⟨-, rfl⟩⟩
  · exact absurd (named.directory.symm.trans noDirectory) (by simp)
  · have found : file ∈ initsAt tree modulePath := mem_initFiles_iff.mp (by simp [inits])
    rw [named.noInit] at found
    cases found
  · rfl

/-- A directory that is named like a module file is left with another name, or with a name less. -/
theorem exists_shorter_of_ending {path ending : Text} (rooted : Rooted ('/' :: path))
    (mem : ending ∈ suffixes) (ends : ending <:+ '/' :: path) :
    ∃ front base, names path = front ++ [base ++ ending] ∧
      (∀ name ∈ front ++ [base ++ ending], isName name = true ∧ name ≠ up) ∧
      FileKey.EndsPlainly (base ++ ending) ∧
      ∀ absolute, resolve absolute (names (stripModuleSuffix ('/' :: path))) = front ++ [base] ∨
        resolve absolute (names (stripModuleSuffix ('/' :: path))) <+: front := by
  obtain ⟨front, last, parts⟩ := rooted.exists_parts (by simp)
  obtain ⟨before, spelled⟩ := exists_slash_join front last
  rw [parts.eq, spelled, suffix_append_slash_iff (slash_notMem_suffix mem)] at ends
  obtain ⟨base, rfl⟩ := ends
  have plain := endsPlainly_moduleFile (parts.unbroken (base ++ ending) (by simp)) mem
  have all : names path = front ++ [base ++ ending] := by
    rw [← names_slash, parts.names_eq, List.filter_eq_self.mpr (by simpa using plain.isName)]
  have kept : ∀ absolute, resolve absolute front = front := resolve_of_down parts.names
  refine ⟨front, base, all, down_concat parts.names plain.isName plain.not_up, plain, fun absolute => ?_⟩
  rw [parts.eq, ← names_orRoot_moduleOf, orRoot_moduleOf_moduleFile mem parts.of_append]
  split
  · have unbroken : ∀ name ∈ front, Unbroken name := fun name named =>
      parts.unbroken name (List.mem_append_left _ named)
    rw [names_slash, names_join unbroken fun name named => (parts.names name named).1, kept]
    exact .inr List.prefix_rfl
  · rw [parts.of_append.names_eq]
    by_cases named : isName base = true
    · rw [List.filter_cons_of_pos named, List.filter_nil]
      exact resolve_concat_cases parts.names absolute base
    · rw [List.filter_cons_of_neg named, List.filter_nil, List.append_nil, kept]
      exact .inr List.prefix_rfl

/-! ## Wherever a cursor lands -/

section

variable {tree : FileTree} {c : Cursor}

theorem trimSlashes_driveless (lead : Lead) (path : Text) :
    trimSlashes (lead.driveless.text ++ path) = lead.driveless.text ++ trimSlashes path := by
  cases lead with
  | root | letter => rfl
  | dot => exact trimSlashes_dot path

theorem names_driveless (lead : Lead) (path : Text) :
    names (lead.driveless.text ++ '/' :: path) = names path := by
  rw [names_append_slash]
  cases lead <;> rfl

/-- Where a cursor lands behind a lead, its configuration file lies inside, but for the exceptions. -/
theorem configInside_iff_of_lead (lead : Lead) {path absolutePath : Text} (rooted : Rooted ('/' :: path))
    (landed : land (.ofTree tree) ⟨lead.driveless.text ++ '/' :: path, absolutePath, lead.drive⟩ = .ok c) :
    ConfigInside tree c ↔ ¬ Misplaced tree c := by
  obtain ⟨_, _, resolved, -, eq⟩ := land_eq_ok_iff.mp landed
  obtain ⟨file, rfl⟩ := realPath_append_slash (trimSlashes_driveless lead) resolved
  have module : c.modulePath = lead.driveless.text ++ '/' :: path := by rw [eq]
  have drive : c.drive = lead.drive := by rw [eq]
  have spelled : c.filePath = lead.text ++ '/' :: file := by
    rw [eq]
    cases lead <;> rfl
  have stripped : stripModuleSuffix c.filePath = lead.text ++ stripModuleSuffix ('/' :: file) := by
    rw [spelled, stripModuleSuffix_append_slash]
  rw [configInside_iff_of_stripped stripped (stripModuleSuffix_slash file), module, Lead.ofPath_eq]
  by_cases named : NamedLikeFile tree c.modulePath
  · refine iff_of_false ?_ (not_not_intro (.cut named))
    rw [module] at named
    obtain rfl : file = path := by simpa using named.eq_of_realPath resolved
    obtain ⟨ending, mem, ends⟩ := named.ends
    rw [suffix_append_slash_iff (slash_notMem_suffix mem)] at ends
    obtain ⟨front, base, all, down, plain, shorter⟩ :=
      exists_shorter_of_ending rooted mem (ends.trans (List.suffix_cons '/' file))
    have other : base ≠ base ++ ending := by simpa using suffix_ne_nil mem
    rw [all]
    exact lead.place_ne_of_shorter down plain.not_drive other shorter
  · have left : names (stripModuleSuffix ('/' :: file)) = names path := by
      have back := stripModuleSuffix_of_realPath resolved (module ▸ named)
      rw [stripModuleSuffix_append_slash, trimSlashes_driveless] at back
      rcases back with e | e
      · rw [List.append_cancel_left e, names_slash]
      · rw [List.append_cancel_left e, names_trimSlashes, names_slash]
    rw [left, lead.place_driveless_iff]
    constructor
    · rintro straight (named' | ⟨behind, first, head, isDrive⟩)
      · exact named named'
      · rw [module, names_driveless] at head
        exact straight.elim (fun none => behind (drive.trans none)) fun plainly => plainly first head isDrive
    · intro straight
      refine or_iff_not_imp_left.mpr fun behind first head isDrive => straight (.driveTwice ?_ ⟨first, ?_, isDrive⟩)
      · rwa [drive]
      · rwa [module, names_driveless]

/-- At the root, spelled as nothing, the file lies inside. -/
theorem configInside_of_nil {drive : Text} (isDrive : Drive drive)
    (landed : land (.ofTree tree) ⟨[], [], drive⟩ = .ok c) : ConfigInside tree c ∧ ¬ Misplaced tree c := by
  obtain ⟨file, _, resolved, -, eq⟩ := land_eq_ok_iff.mp landed
  have module : c.modulePath = [] := by rw [eq]
  have whole : ¬ NamedLikeFile tree [] := by
    rintro ⟨-, -, ending, mem, ends⟩
    exact suffix_ne_nil mem (List.suffix_nil.mp ends)
  have left : stripModuleSuffix file = [] := (stripModuleSuffix_of_realPath resolved whole).elim id id
  constructor
  · obtain ⟨lead, stripped⟩ : ∃ lead : Lead, stripModuleSuffix c.filePath = lead.text ++ [] := by
      rcases realPath_nil resolved with rfl | ⟨rest, rfl⟩
      · exact ⟨.root, by simp [eq, FileSystem.ofTree, isAbsolute, left, Lead.text]⟩
      · obtain ⟨lead, rfl, -⟩ := Lead.exists_of_drive isDrive
        have absolute : (FileSystem.ofTree tree).isAbsolute ('/' :: rest) = true := isAbsolute_slash rest
        exact ⟨lead, by simp only [eq, absolute, if_true, stripModuleSuffix_append_slash, left]⟩
    rw [configInside_iff_of_stripped stripped (.inl rfl), module, FileKey.ofPath_nil]
    cases lead <;> rfl
  · rintro (named | ⟨-, first, head, -⟩)
    · exact whole (module ▸ named)
    · rw [module] at head
      cases head

/-- Above the root there is a file, and neither its configuration file nor its module path names a place. -/
theorem configInside_of_up (landed : land (.ofTree tree) ⟨up, root, []⟩ = .ok c) :
    ConfigInside tree c ∧ ¬ Misplaced tree c := by
  obtain ⟨file, _, resolved, -, eq⟩ := land_eq_ok_iff.mp landed
  have module : c.modulePath = up := by rw [eq]
  have whole : ¬ NamedLikeFile tree up := fun named =>
    absurd named.directory (by simp [FileTree.isDirectory])
  have spelled : c.filePath = file := by simp [eq]
  have left : stripModuleSuffix file = up := (stripModuleSuffix_of_realPath resolved whole).elim id id
  constructor
  · rw [ConfigInside, configPath_ofTree, spelled, left, module, FileKey.ofPath_up]
    exact FileKey.ofPath_up_slash configName
  · rintro (named | ⟨behind, -⟩)
    · exact whole (module ▸ named)
    · exact behind (by rw [eq])

/-- Where a cursor lands, its configuration file lies inside, but for the two exceptions. -/
theorem configInside_iff_of_land {t : Target} (placed : Placed t) (rooted : Rooted t.absoluteModulePath)
    (drive : Drive t.drive) (landed : land (.ofTree tree) t = .ok c) :
    ConfigInside tree c ↔ ¬ Misplaced tree c := by
  obtain ⟨modulePath, absoluteModulePath, letter⟩ := t
  rcases placed with (⟨same, -⟩ | ⟨path, e, e', noDrive⟩) | above
  · obtain rfl : modulePath = absoluteModulePath := same
    rcases rooted with rfl | ⟨path, rfl, known⟩
    · obtain ⟨inside, straight⟩ := configInside_of_nil drive landed
      exact iff_of_true inside straight
    · obtain ⟨lead, -, rfl, root⟩ := Lead.exists_of_drive drive
      have behind : land (.ofTree tree) ⟨lead.driveless.text ++ '/' :: path, '/' :: path, lead.drive⟩ =
          .ok c := by
        rw [root]
        exact landed
      exact configInside_iff_of_lead lead (.inr ⟨path, rfl, known⟩) behind
  · obtain rfl : modulePath = '.' :: '/' :: path := e
    obtain rfl : absoluteModulePath = '/' :: path := e'
    obtain rfl : letter = [] := noDrive
    exact configInside_iff_of_lead .dot rooted landed
  · obtain ⟨rfl, rfl, rfl⟩ := by simpa using above
    obtain ⟨inside, straight⟩ := configInside_of_up landed
    exact iff_of_true inside straight

end

end Cursor
end ScriptHost

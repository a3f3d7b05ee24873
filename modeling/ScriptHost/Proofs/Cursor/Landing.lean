/-
Whether a walk that gets somewhere gets to one place. A module path is looked up without its drive, and
the drive is put before what was found; and a first name that ends in a colon is dropped from the root, but
not behind a `.` or a drive. So the two files of a cursor may lie at different places, or nowhere. These are
all the ways to land astray (`landing_onePlace_iff`).
-/
import ScriptHost.Proofs.Cursor.Reading
import ScriptHost.Proofs.Cursor.Atomic

namespace ScriptHost

open ScriptHost.Path

/-! ## Places behind a drive -/

namespace FileKey

/-- A drive alone is a name like any other. -/
theorem ofPath_letter_alone {d : Char} (alpha : d.isAlpha = true) :
    ofPath [d, ':'] = some [[d, ':']] := by
  have unbroken := unbroken_drive alpha
  have relative : isAbsolute [d, ':'] = false := by
    simpa [isAbsolute] using unbroken d (by simp)
  have isName : isName [d, ':'] = true := by simp [isName, here]
  have down : [d, ':'] ≠ up := by simp [up]
  rw [ofPath_of_relative relative, names_of_unbroken unbroken isName,
    resolve_of_down (by simpa using ⟨isName, down⟩), if_neg (by simpa using down.symm)]

end FileKey

namespace Cursor

/-! ## Landing -/

/-- Both files of a cursor name one place, and there is something. -/
def OnePlace (tree : FileTree) (c : Cursor) : Prop :=
  ∃ key, FileKey.ofPath c.filePath = some key ∧ FileKey.ofPath c.absoluteFilePath = some key ∧
    tree.Has key

/-- From the root, the first name of a path is one that is dropped. -/
def StartsLikeDrive (path : Text) : Prop :=
  ∃ first ∈ (resolve true (names path)).head?, FileKey.IsDrive first

instance (path : Text) : Decidable (StartsLikeDrive path) :=
  inferInstanceAs (Decidable (∃ first ∈ (resolve true (names path)).head?, FileKey.IsDrive first))

/-- The ways to land somewhere else than at one place. -/
inductive Astray (tree : FileTree) (c : Cursor) : Prop
  /-- The drive is put before the root, which is spelled as nothing, so what is left is a name. -/
  | driveAlone (drive : c.drive ≠ []) (alone : c.absoluteFilePath = c.drive)
  /-- A name was dropped as a drive when it was looked up; behind the drive it counts, and there nothing
  is found. -/
  | driveTwice (drive : c.drive ≠ []) (starts : StartsLikeDrive c.absoluteModulePath)
      (nothing : ∀ key, FileKey.ofPath c.absoluteFilePath = some key → ¬ tree.Has key)
  /-- A name is dropped as a drive from the root, but not behind a `.`. -/
  | name (relative : c.modulePath ≠ c.absoluteModulePath)
      (starts : StartsLikeDrive c.absoluteModulePath)
  /-- The ending of a path above the root was cut off, and the `..` that is left starts a file name. -/
  | above (up : c.modulePath = up)

/-- What a module path resolves to is there. -/
theorem has_of_realPath {tree : FileTree} {path file : Text}
    (resolved : realPath (.ofTree tree) path = .ok file) :
    ∃ key, FileKey.ofPath file = some key ∧ tree.Has key := by
  have ofFile : tree.isFile file = true → ∃ key, FileKey.ofPath file = some key ∧ tree.Has key := by
    intro isFile
    obtain ⟨key, contents, place, found⟩ := FileTree.isFile_iff.mp isFile
    exact ⟨key, place, .inl (by simp [found])⟩
  rcases realPath_eq_ok_iff.mp resolved with ⟨files, -⟩ | ⟨-, dir, inits | ⟨-, rfl⟩⟩
  · have found : file ∈ moduleFiles (.ofTree tree) path := by simp [files]
    obtain ⟨-, -, -, -, isFile⟩ := mem_moduleFiles.mp found
    exact ofFile isFile
  · have found : file ∈ initFiles (.ofTree tree) path := by simp [inits]
    obtain ⟨-, -, -, isFile⟩ := mem_initFiles.mp found
    exact ofFile isFile
  · obtain ⟨key, place, isDir⟩ := FileTree.isDirectory_iff.mp dir
    exact ⟨key, place, .inr isDir⟩

/-! ### One path -/

section

variable {tree : FileTree}

theorem not_startsLikeDrive {path : Text} (h : ¬ StartsLikeDrive path) :
    ∀ first ∈ (resolve true (names path)).head?, ¬ FileKey.IsDrive first :=
  fun first mem drive => h ⟨first, mem, drive⟩

theorem not_rooted_up : ¬ Rooted up := by
  rintro (none | ⟨rest, slash, -⟩)
  · cases none
  · cases slash

/-- Behind a drive there is what was found from the root, if no name was dropped to find it. -/
theorem has_of_letter (ways : tree.WaysLead) {path file : Text} (rooted : Rooted path)
    (resolved : realPath (.ofTree tree) path = .ok ('/' :: file)) (plainly : ¬ StartsLikeDrive path) :
    tree.Has (resolve true (names file)) := by
  rcases rooted with rfl | ⟨rest, rfl, known⟩
  · obtain ⟨key, place, has⟩ := has_of_realPath resolved
    rcases realPath_eq_ok_iff.mp resolved with ⟨-, noDir⟩ | ⟨-, -, inits | ⟨-, no⟩⟩
    · simp [FileSystem.ofTree, FileTree.isDirectory, FileTree.hasDirectory] at noDir
    · have found : '/' :: file ∈ initFiles (.ofTree tree) [] := by simp [inits]
      obtain ⟨ending, mem, eq, -⟩ := mem_initFiles.mp found
      obtain ⟨name, isInit, rfl⟩ := List.mem_map.mp (initSuffixes_eq ▸ mem)
      obtain rfl : file = name := (List.cons.inj eq).2
      have plain := endsPlainly_initName isInit
      have all : resolve true (names file) = [file] := by
        rw [names_of_unbroken plain.unbroken plain.isName,
          resolve_of_down (by simpa using ⟨plain.isName, plain.not_up⟩)]
      rw [FileKey.ofPath_slash, all, FileKey.withoutDrive_of_head (by simpa using plain.not_drive)] at place
      rw [all]
      exact Option.some.inj place ▸ has
    · cases no
  · obtain ⟨rest', eq, -, stands⟩ := reads_slash.exists_stands ways (.inr ⟨rest, rfl, known⟩)
      (up_notMem_resolve_true _) resolved
    obtain rfl : file = rest' := (List.cons.inj eq).2
    have kept := stands.beside.noDrive (not_startsLikeDrive plainly)
    exact FileKey.withoutDrive_of_head kept ▸ stands.has

/-- If both spellings are one path and there is no drive, a cursor lands on one place. -/
theorem onePlace_of_noDrive {path : Text} {c : Cursor}
    (landed : land (.ofTree tree) ⟨path, path, []⟩ = .ok c) : OnePlace tree c := by
  obtain ⟨file, absoluteFile, resolved, resolved', eq⟩ := land_eq_ok_iff.mp landed
  obtain rfl : file = absoluteFile := Except.ok.inj (resolved.symm.trans resolved')
  obtain ⟨key, place, has⟩ := has_of_realPath resolved
  exact ⟨key, by simpa [eq] using place, by simpa [eq] using place, has⟩

/-- If both spellings are one path from the root behind a drive, only the drive leads astray. -/
theorem onePlace_iff_of_letter (ways : tree.WaysLead) {d : Char} (alpha : d.isAlpha = true) {path : Text}
    (rooted : Rooted path) {c : Cursor} (landed : land (.ofTree tree) ⟨path, path, [d, ':']⟩ = .ok c) :
    OnePlace tree c ↔ ¬ Astray tree c := by
  obtain ⟨file, absoluteFile, resolved, resolved', eq⟩ := land_eq_ok_iff.mp landed
  obtain rfl : file = absoluteFile := Except.ok.inj (resolved.symm.trans resolved')
  have drive : c.drive = [d, ':'] := by simp [eq]
  have module : c.modulePath = path := by simp [eq]
  have module' : c.absoluteModulePath = path := by simp [eq]
  have fromRoot : file = [] ∨ ∃ rest, file = '/' :: rest := by
    rcases rooted with rfl | ⟨rest, rfl, -⟩
    · exact realPath_nil resolved
    · exact .inr (realPath_slash resolved)
  rcases fromRoot with rfl | ⟨rest, rfl⟩
  · -- The root is spelled as nothing, so the drive stands alone.
    have spelled : c.filePath = [] := by simp [eq, FileSystem.ofTree, isAbsolute]
    have spelled' : c.absoluteFilePath = [d, ':'] := by simp [eq]
    refine iff_of_false ?_ (not_not_intro (.driveAlone (by simp [drive]) (by rw [spelled', drive])))
    rintro ⟨key, place, place', -⟩
    rw [spelled, FileKey.ofPath_nil] at place
    rw [spelled', FileKey.ofPath_letter_alone alpha] at place'
    exact absurd (place.trans place'.symm) (by simp)
  · have absolute : (FileSystem.ofTree tree).isAbsolute ('/' :: rest) = true := isAbsolute_slash rest
    have spelled : c.filePath = d :: ':' :: '/' :: rest := by simp [eq, absolute]
    have spelled' : c.absoluteFilePath = d :: ':' :: '/' :: rest := by simp [eq]
    have place := FileKey.ofPath_drive (s := '/') alpha rfl rest
    have one : OnePlace tree c ↔ tree.Has (resolve true (names rest)) := by
      simp only [OnePlace, spelled, spelled', place, Option.some.injEq, exists_eq_left', true_and]
    rw [one]
    constructor
    · rintro has (⟨-, alone⟩ | ⟨-, -, nothing⟩ | ⟨other, -⟩ | ⟨above⟩)
      · simp [spelled', drive] at alone
      · exact nothing _ (spelled' ▸ place) has
      · exact other (module.trans module'.symm)
      · exact not_rooted_up (above ▸ module ▸ rooted)
    · intro straight
      by_contra nothing
      refine nothing (has_of_letter ways rooted resolved fun starts => straight ?_)
      refine .driveTwice (by simp [drive]) (module' ▸ starts) fun key place' => ?_
      rw [spelled', place, Option.some.injEq] at place'
      exact place' ▸ nothing

/-- If both spellings are one path from the root, only a drive leads astray. -/
theorem onePlace_iff_of_same (ways : tree.WaysLead) {path drive : Text} (rooted : Rooted path)
    (isDrive : Drive drive) {c : Cursor} (landed : land (.ofTree tree) ⟨path, path, drive⟩ = .ok c) :
    OnePlace tree c ↔ ¬ Astray tree c := by
  cases isDrive with
  | letter alpha => exact onePlace_iff_of_letter ways alpha rooted landed
  | none =>
    have target := target_of_land landed
    have module : c.modulePath = path := congrArg Target.modulePath target
    have module' : c.absoluteModulePath = path := congrArg Target.absoluteModulePath target
    have noDrive : c.drive = [] := congrArg Target.drive target
    refine iff_of_true (onePlace_of_noDrive landed) ?_
    rintro (⟨drive, -⟩ | ⟨drive, -⟩ | ⟨other, -⟩ | ⟨above⟩)
    · exact drive noDrive
    · exact drive noDrive
    · exact other (module.trans module'.symm)
    · exact not_rooted_up (above ▸ module ▸ rooted)

/-! ### A path and the same behind a `.` -/

/-- Behind a `.`, a rooted path leads above the root only if it is a `..` and nothing else. -/
theorem eq_up_of_climbs {path : Text} (rooted : Rooted ('/' :: path))
    (climbs : up ∈ resolve false (names path)) : path = up := by
  obtain ⟨front, last, parts⟩ := rooted.exists_parts (by simp)
  by_cases isUp : last = up
  · subst isUp
    rw [← names_slash, parts.names_eq, List.filter_cons_of_pos rfl, List.filter_nil] at climbs
    by_cases none : front = []
    · rw [none] at parts
      exact (List.cons.inj parts.eq).2
    · rw [resolve_up parts.names none] at climbs
      exact absurd rfl (parts.names up (List.dropLast_subset _ climbs)).2
  · have down := parts.down isUp
    rw [← names_slash, resolve_of_down down] at climbs
    exact absurd rfl (down up climbs).2

/-- What resolves behind a `.` and from the root does not lead above the root. -/
theorem stays_of_realPath {path file absoluteFile : Text} (rooted : Rooted ('/' :: path))
    (resolved : realPath (.ofTree tree) ('.' :: '/' :: path) = .ok file)
    (resolved' : realPath (.ofTree tree) ('/' :: path) = .ok absoluteFile) :
    up ∉ resolve false (names path) := by
  intro climbs
  obtain rfl := eq_up_of_climbs rooted climbs
  -- Behind the `.` there is at most a file, and from the root that file and the root itself.
  have noDir : (FileSystem.ofTree tree).isDirectory ('.' :: '/' :: up) = false := by
    have nowhere : FileKey.ofPath ('.' :: '/' :: up) = none := by decide +kernel
    simp [FileSystem.ofTree, FileTree.isDirectory, nowhere]
  have dir : (FileSystem.ofTree tree).isDirectory ('/' :: up) = true := by
    have place : FileKey.ofPath ('/' :: up) = some [] := by decide +kernel
    simp [FileSystem.ofTree, FileTree.isDirectory, FileTree.hasDirectory, place]
  have place : ∀ ending ∈ suffixes,
      FileKey.ofPath ('/' :: up ++ ending) = FileKey.ofPath ('.' :: '/' :: up ++ ending) := by
    decide +kernel
  have same : ∀ ending ∈ suffixes, (FileSystem.ofTree tree).isFile ('/' :: up ++ ending) =
      (FileSystem.ofTree tree).isFile ('.' :: '/' :: up ++ ending) := by
    intro ending mem
    simp only [FileSystem.ofTree]
    exact tree.isFile_congr (place ending mem)
  rcases realPath_eq_ok_iff.mp resolved with ⟨files, -⟩ | ⟨-, isDir, -⟩
  · have found : file ∈ moduleFiles (.ofTree tree) ('.' :: '/' :: up) := by simp [files]
    obtain ⟨-, ending, mem, rfl, isFile⟩ := mem_moduleFiles.mp found
    have found' : '/' :: up ++ ending ∈ moduleFiles (.ofTree tree) ('/' :: up) :=
      mem_moduleFiles.mpr ⟨by decide, ending, mem, rfl, (same ending mem).trans isFile⟩
    rcases realPath_eq_ok_iff.mp resolved' with ⟨-, noDir'⟩ | ⟨files', -⟩
    · simp [dir] at noDir'
    · simp [files'] at found'
  · simp [noDir] at isDir

/-- Files that name places agree if the places do. -/
theorem onePlace_iff_of_places {c : Cursor} {path path' : Text} {key key' : FileKey}
    (spelled : c.filePath = path) (spelled' : c.absoluteFilePath = path')
    (place : FileKey.ofPath path = some key) (place' : FileKey.ofPath path' = some key')
    (has : tree.Has key) : OnePlace tree c ↔ key' = key := by
  simp only [OnePlace, spelled, spelled', place, place', Option.some.injEq, exists_eq_left',
    and_iff_left has]

/-- If one spelling is the other behind a `.`, only a name that is dropped leads astray. -/
theorem onePlace_iff_of_dot (ways : tree.WaysLead) {path : Text} (rooted : Rooted ('/' :: path))
    {c : Cursor} (landed : land (.ofTree tree) ⟨'.' :: '/' :: path, '/' :: path, []⟩ = .ok c) :
    OnePlace tree c ↔ ¬ Astray tree c := by
  obtain ⟨file, absoluteFile, resolved, resolved', eq⟩ := land_eq_ok_iff.mp landed
  have stays := stays_of_realPath rooted resolved resolved'
  obtain ⟨rest, rfl, stays', stands⟩ := reads_dot.exists_stands ways rooted stays resolved
  obtain ⟨rest', rfl, -, stands'⟩ :=
    reads_slash.exists_stands ways rooted (up_notMem_resolve_true _) resolved'
  have spelled : c.filePath = ['.'] ++ '/' :: rest := by simp [eq]
  have spelled' : c.absoluteFilePath = '/' :: rest' := by simp [eq]
  have module : c.modulePath = '.' :: '/' :: path := by simp [eq]
  have module' : c.absoluteModulePath = '/' :: path := by simp [eq]
  have noDrive : c.drive = [] := by simp [eq]
  rw [onePlace_iff_of_places spelled spelled' (reads_dot.ofPath rest stays') (FileKey.ofPath_slash rest')
    stands.has]
  rw [resolve_false_of_notMem stays] at stands
  by_cases plainly : StartsLikeDrive c.absoluteModulePath
  · have astray : Astray tree c := .name (by simp [module, module']) plainly
    refine iff_of_false ?_ (not_not_intro astray)
    obtain ⟨first, head, drive⟩ := plainly
    rw [module', names_slash] at head
    obtain ⟨more, all⟩ := List.head?_eq_some_iff.mp head
    rw [all] at stands stands'
    exact stands.ne_of_drive drive stands'
  · have kept : ∀ first ∈ (resolve true (names path)).head?, ¬ FileKey.IsDrive first :=
      fun first mem drive => plainly ⟨first, by rwa [module'], drive⟩
    refine iff_of_true (stands.eq_of_noDrive kept stands') ?_
    rintro (⟨drive, -⟩ | ⟨drive, -⟩ | ⟨-, starts⟩ | ⟨above⟩)
    · exact drive noDrive
    · exact drive noDrive
    · exact plainly starts
    · cases module.symm.trans above

/-! ### Above the root -/

/-- A `..` that a file name starts with is not the root. -/
theorem not_onePlace_of_up (ways : tree.WaysLead) {c : Cursor}
    (landed : land (.ofTree tree) ⟨up, root, []⟩ = .ok c) : ¬ OnePlace tree c := by
  obtain ⟨file, absoluteFile, resolved, resolved', rfl⟩ := land_eq_ok_iff.mp landed
  have rooted : Rooted ('/' :: []) := rooted_root
  obtain ⟨rest, rfl, -, stands⟩ :=
    reads_slash.exists_stands ways rooted (up_notMem_resolve_true _) resolved'
  have beside : Beside [] (resolve true (names rest)) := stands.beside
  have place' := FileKey.ofPath_slash rest
  rw [FileKey.withoutDrive_of_head (beside.noDrive (by simp))] at place'
  have named : ∀ ending ∈ suffixes, FileKey.ofPath (up ++ ending) = some [up ++ ending] := by
    decide +kernel
  rcases realPath_eq_ok_iff.mp resolved with ⟨files, -⟩ | ⟨-, isDir, -⟩
  · have found : file ∈ moduleFiles (.ofTree tree) up := by simp [files]
    obtain ⟨-, ending, mem, rfl, -⟩ := mem_moduleFiles.mp found
    have relative : (FileSystem.ofTree tree).isAbsolute (up ++ ending) = false :=
      isAbsolute_dot ('.' :: ending)
    have place := named ending mem
    rintro ⟨key, here, there, -⟩
    simp only [relative, Bool.false_eq_true, if_false, List.nil_append, place, place'] at here there
    have same := Option.some.inj (here.trans there.symm)
    generalize resolve true (names rest) = found at beside same
    cases beside with
    | itself => cases same
    | init isInit =>
      obtain rfl := (List.cons.inj same).1
      exact absurd (eq_init_of_append mem isInit) (by decide)
    | file none => simp at none
  · simp [FileSystem.ofTree, FileTree.isDirectory] at isDir

end

/-! ## The spellings of a cursor -/

/-- The spellings of a target are coherent, or it is what is left above the root of a path to an `init`
file. -/
def Placed (t : Target) : Prop :=
  t.Coherent ∨ t = ⟨up, root, []⟩

theorem normalize_ne_up (path : Text) : normalize path ≠ up := by
  intro eq
  have relative : isAbsolute path = false := by rw [← isAbsolute_normalize, eq]; rfl
  rcases normalize_relative_cases relative with ⟨rest, e⟩ | e
  · simp [e, up] at eq
  · obtain ⟨rest, slash⟩ := exists_normalize_slash path
    simp [e, slash, up] at eq

theorem stripModuleSuffix_eq_up {path : Text} (h : orRoot (moduleOf path) = up) :
    stripModuleSuffix path = up := by
  unfold moduleOf at h
  split at h
  · cases h
  · cases stripped : stripModuleSuffix path with
    | nil => simp [stripped, orRoot, root, up] at h
    | cons c rest => rwa [stripped] at h

/-- Only paths to `init` files above the root leave `..` as a module path. -/
theorem pathTarget_up {fs : FileSystem} (usual : fs.UsualPaths) (rooted : fs.workingDirectory = [])
    {path : Text} (above : (pathTarget fs path).modulePath = up) :
    pathTarget fs path = ⟨up, root, []⟩ := by
  cases absolute : isAbsolute path with
  | true =>
    rw [pathTarget_of_absolute usual absolute] at above
    exact absurd (above ▸ (rooted_fromRoot_normalize absolute).moduleOf.orRoot) not_rooted_up
  | false =>
    rw [pathTarget_of_relative usual rooted absolute] at above ⊢
    have stripped : stripModuleSuffix (normalize path) = up := stripModuleSuffix_eq_up above
    rcases normalize_relative_cases absolute with ⟨more, climbs⟩ | stays
    · obtain ⟨ending, eq, known⟩ := exists_ending (normalize path)
      rw [stripped] at eq
      have slash : ending = '/' :: more := List.append_cancel_left (eq.symm.trans climbs)
      have joined : normalize ('/' :: path) = normalize ('/' :: (up ++ ending)) := by
        rw [← normalize_slash_normalize absolute, eq]
      rw [show moduleOf (normalize path) = up by rw [moduleOf, stripped]; rfl, joined]
      subst slash
      rcases known with none | known
      · cases none
      · simp only [endings, initSuffixes, suffixes, List.cons_append, List.nil_append, List.mem_cons,
          List.not_mem_nil, or_false] at known
        rcases known with e | e | e | e
        · rw [e]
          decide +kernel
        · rw [e]
          decide +kernel
        · cases e
        · cases e
    · obtain ⟨rest, slash⟩ := exists_normalize_slash path
      rw [stays, slash, stripModuleSuffix_dot_slash] at stripped
      have left : stripModuleSuffix ('/' :: rest) = here := (List.cons.inj stripped).2
      rcases stripModuleSuffix_slash rest with e | ⟨m, e⟩
      · exact absurd (e.symm.trans left) (by simp [here])
      · exact absurd (e.symm.trans left) (by simp [here])

/-- A move from a placed cursor that lands anywhere lands on a placed target. -/
theorem Leads.placed {tree : FileTree} {c : Cursor} {t : Target} (leads : Leads (.ofTree tree) c t)
    (placed : Placed c.target) {c' : Cursor} (landed : land (.ofTree tree) t = .ok c') : Placed t := by
  have usual := FileSystem.usualPaths_ofTree tree
  obtain ⟨file, -, resolved, -⟩ := land_eq_ok_iff.mp landed
  -- Nothing is found further above, so only the `..` itself is left.
  have only : Climbs t.modulePath → t.modulePath = up := by
    rintro (up | ⟨rest, e⟩)
    · exact up
    · exact absurd (e ▸ resolved) (realPath_up_slash tree rest file)
  cases leads with
  | path path =>
    rcases coherent_pathTarget usual rfl path with coherent | climbs
    · exact .inl coherent
    · exact .inr (pathTarget_up usual rfl (only climbs))
  | step component =>
    have stays : (stepTarget (.ofTree tree) c component).modulePath ≠ up := by
      rw [stepTarget_eq usual]
      exact normalize_ne_up _
    rcases placed with coherent | above
    · exact (coherent_stepTarget usual coherent component).imp_right fun climbs =>
        absurd (only climbs) stays
    · have climbed : c.modulePath = up := congrArg Target.modulePath above
      refine absurd (only ?_) stays
      rw [stepTarget_eq usual, climbed]
      exact .inr (normalize_climbing (isAbsolute_dot ('.' :: '/' :: component))
        (up_mem_resolve_false_up (names component)))
  | above => exact .inl (.inl ⟨rfl, .inl rfl⟩)

theorem onePlace_iff_of_land {tree : FileTree} (ways : tree.WaysLead) {t : Target} (placed : Placed t)
    (rooted : Rooted t.absoluteModulePath) (drive : Drive t.drive) {c : Cursor}
    (landed : land (.ofTree tree) t = .ok c) : OnePlace tree c ↔ ¬ Astray tree c := by
  rcases placed with (⟨same, -⟩ | ⟨rest, e, e', noDrive⟩) | above
  · obtain ⟨modulePath, absoluteModulePath, letter⟩ := t
    obtain rfl : modulePath = absoluteModulePath := same
    exact onePlace_iff_of_same ways rooted drive landed
  · obtain ⟨modulePath, absoluteModulePath, letter⟩ := t
    obtain rfl : modulePath = '.' :: '/' :: rest := e
    obtain rfl : absoluteModulePath = '/' :: rest := e'
    obtain rfl : letter = [] := noDrive
    exact onePlace_iff_of_dot ways rooted landed
  · subst above
    have up : c.modulePath = up := congrArg Target.modulePath (target_of_land landed)
    exact iff_of_false (not_onePlace_of_up ways landed) (not_not_intro (.above up))

/-! ## Walks -/

/-- Where walks over a tree leave a cursor. -/
structure Walked (c : Cursor) : Prop where
  placed : Placed c.target
  anchored : Anchored c

theorem Walked.start : Walked .start :=
  ⟨.inl (Standing.start .empty).coherent, .start⟩

theorem Walked.stdin : Walked .stdin :=
  ⟨.inl (Standing.stdin .empty).coherent, .stdin⟩

theorem Walked.move {tree : FileTree} {c : Cursor} (walked : Walked c) (m : Move) :
    Walked (c.move (.ofTree tree) m).2 := by
  refine ⟨?_, walked.anchored.move (FileSystem.conventional_ofTree tree) m⟩
  refine kept_by_move (fun c => Placed c.target) walked.placed Walked.stdin.placed
    (fun t c' leads landed => ?_) m
  exact target_of_land landed ▸ leads.placed walked.placed landed

theorem Walked.after {tree : FileTree} {c : Cursor} (walked : Walked c) (moves : List Move) :
    Walked (c.after (.ofTree tree) moves) :=
  invariant_after Walked (fun _ m walked => walked.move m) walked moves

/-- **A walk lands on one place, or astray.** Over the tree of any storings and after any moves, a walk that
gets somewhere stands on two files that name one place, and there is something. There are four ways to land
astray, and in each of them this fails. -/
theorem landing_onePlace_iff (storings : List Storing) (moves : List Move) {m : Move}
    (walks : m ≠ .stdin) {c : Cursor}
    (reached : (start.after (.ofTree (.ofStorings storings)) moves).move
      (.ofTree (.ofStorings storings)) m = (.ok (), c)) :
    OnePlace (.ofStorings storings) c ↔ ¬ Astray (.ofStorings storings) c := by
  have walked : Walked (start.after (.ofTree (.ofStorings storings)) moves) :=
    Walked.start.after moves
  obtain ⟨t, leads, landed⟩ := exists_leads_of_destination walks (destination_of_move reached)
  have conventional := FileSystem.conventional_ofTree (.ofStorings storings)
  exact onePlace_iff_of_land (FileTree.waysLead_ofStorings storings)
    (leads.placed walked.placed landed) (leads.rooted conventional walked.anchored.rooted)
    (leads.drive conventional walked.anchored.drive) landed

/-- Up to a directory behind a drive, and to the file that stands for it. -/
theorem landing_onePlace_iff_of_init :
    let storings : List Storing := [.file "/lib/init.luau".toList [], .file "/lib/x.luau".toList []]
    let tree : FileTree := .ofStorings storings
    let c : Cursor := ⟨"/lib".toList, "/lib".toList, "C:/lib/init.luau".toList,
      "C:/lib/init.luau".toList, "C:".toList⟩
    (start.after (.ofTree tree) [.path "C:/lib/x".toList]).move (.ofTree tree) .parent = (.ok (), c) ∧
      OnePlace tree c := by
  intro storings tree c
  have reached : (start.after (.ofTree tree) [.path "C:/lib/x".toList]).move (.ofTree tree) .parent =
      (.ok (), c) := by decide +kernel
  refine ⟨reached, (landing_onePlace_iff storings _ Move.noConfusion reached).mpr ?_⟩
  have plainly : ¬ StartsLikeDrive c.absoluteModulePath := by decide +kernel
  rintro (⟨-, alone⟩ | ⟨-, starts, -⟩ | ⟨other, -⟩ | ⟨above⟩)
  · exact absurd alone (by decide)
  · exact plainly starts
  · exact other rfl
  · exact absurd above (by decide)

/-- Up to the root behind a drive, which is then the name of nothing. -/
theorem landing_of_drive_above_root :
    let tree : FileTree := .ofStorings [.file "/a.luau".toList []]
    let c : Cursor := ⟨[], [], [], "C:".toList, "C:".toList⟩
    (start.after (.ofTree tree) [.path "C:/a".toList]).move (.ofTree tree) .parent = (.ok (), c) ∧
      FileKey.ofPath c.absoluteFilePath = some ["C:".toList] ∧ ¬ tree.Has ["C:".toList] ∧
      ¬ OnePlace tree c := by
  intro tree c
  have place : FileKey.ofPath c.absoluteFilePath = some ["C:".toList] := FileKey.ofPath_letter_alone rfl
  refine ⟨by decide +kernel, place, by decide +kernel, ?_⟩
  rintro ⟨key, here, there, -⟩
  have root : FileKey.ofPath c.filePath = some [] := FileKey.ofPath_nil
  exact absurd (root.symm.trans (here.trans (there.symm.trans place))) (by decide)

end Cursor
end ScriptHost

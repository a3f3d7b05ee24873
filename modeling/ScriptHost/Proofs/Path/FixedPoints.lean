/-
Which texts are normal forms, said by how they are spelled: a root or a start, names, and before the
names of a relative path the `..` that lead above its start. Normalizing ends in such a text
(`isNormal_normalize`) and leaves it as it is (`IsNormal.normalize_eq`), so these texts are its fixed
points, and all that it ever comes to.
-/
import ScriptHost.Proofs.Path.Composing

namespace ScriptHost.Path

/-! ## Spelling -/

/-- Whether there is a last component and it ends in `..`. -/
def EndsUp (components : List Text) : Prop :=
  ∃ last ∈ components.getLast?, up <:+ last

instance : DecidablePred EndsUp := fun components =>
  inferInstanceAs (Decidable (∃ last ∈ components.getLast?, up <:+ last))

/-- Components behind what they start from, with one more slash if the last of them ends in `..`. -/
def spell (marker : Text) (components : List Text) : Text :=
  marker ++ join components ++ if EndsUp components then ['/'] else []

/-- Texts in normal form. An absolute one is a root, with or without a drive, and proper names; a
relative one may lead above its start before its names do, and says `./` if it does not. -/
inductive IsNormal : Text → Prop
  | absolute {drive : Text} {names : List Text} (isDrive : Drive drive)
      (proper : ∀ name ∈ names, ProperName name) : IsNormal (spell (drive ++ ['/']) names)
  | relative (climbs : Nat) {names : List Text} (proper : ∀ name ∈ names, ProperName name) :
      IsNormal (spell (lead (List.replicate climbs up ++ names)) (List.replicate climbs up ++ names))

theorem append_spell (before marker : Text) (components : List Text) :
    before ++ spell marker components = spell (before ++ marker) components := by
  simp [spell]

theorem up_suffix_join_iff {components : List Text} : up <:+ join components ↔ EndsUp components := by
  rcases List.eq_nil_or_concat components with rfl | ⟨front, last, rfl⟩
  · simp [EndsUp, up]
  · rw [List.concat_eq_append]
    by_cases none : front = []
    · simp [EndsUp, none]
    · rw [join_concat none, suffix_append_slash_iff (by decide)]
      simp [EndsUp]

theorem closeUp_join (components : List Text) : closeUp (join components) = spell [] components := by
  simp only [closeUp, spell, List.isSuffixOf_iff_suffix, up_suffix_join_iff, List.nil_append]
  split <;> simp

theorem closeUp_append_slash_join (before : Text) (components : List Text) :
    closeUp (before ++ '/' :: join components) = spell (before ++ ['/']) components := by
  have noSlash : '/' ∉ up := by decide
  simp only [closeUp, spell, List.isSuffixOf_iff_suffix, suffix_append_slash_iff noSlash,
    up_suffix_join_iff]
  split <;> simp

theorem closeUp_lead_join (components : List Text) :
    closeUp (lead components ++ join components) = spell (lead components) components := by
  unfold lead
  split
  · exact closeUp_join components
  · exact closeUp_append_slash_join here components

/-! ## What normalizing comes to -/

theorem properName_of_mem_resolve {path name : Text} (mem : name ∈ resolve true (names path)) :
    ProperName name where
  unbroken := unbroken_of_mem_resolve mem
  isName := (mem_of_mem_resolve mem).2
  down := fun e => up_notMem_resolve_true _ (e ▸ mem)

theorem isNormal_normalize (path : Text) : IsNormal (normalize path) := by
  cases absolute : isAbsolute path with
  | true =>
    obtain ⟨drive, rest, isDrive, eq⟩ := exists_normalize_of_isAbsolute absolute
    have spelled : normalize ('/' :: rest) = spell ['/'] (resolve true (names rest)) :=
      (normalize_slash rest).trans (closeUp_append_slash_join [] _)
    rw [eq, spelled, append_spell]
    exact .absolute isDrive fun _ => properName_of_mem_resolve
  | false =>
    obtain ⟨climbs, eq⟩ := resolve_false_eq (names path)
    rw [normalize_of_relative absolute, closeUp_lead_join, eq]
    exact .relative climbs fun _ => properName_of_mem_resolve

/-! ## What normalizing leaves alone -/

/-- Names behind the `..` that lead above the start are resolved. -/
theorem resolve_false_climbs (climbs : Nat) {names : List Text}
    (proper : ∀ name ∈ names, ProperName name) :
    resolve false (List.replicate climbs up ++ names) = List.replicate climbs up ++ names := by
  have climbed : (List.replicate climbs up).foldl (resolveComponent false) [] =
      List.replicate climbs up := by
    induction climbs with
    | zero => rfl
    | succ n ih =>
      rw [List.replicate_succ', List.foldl_append, ih, ← List.replicate_succ']
      cases n <;> simp [resolveComponent, List.replicate_succ]
  rw [resolve, List.foldl_append, climbed,
    foldl_resolveComponent_of_down fun name mem => ⟨(proper name mem).isName, (proper name mem).down⟩]
  simp

/-- What starts with a component starts with its first character. -/
theorem exists_join_cons (c : Char) (name : Text) (rest : List Text) :
    ∃ more, join ((c :: name) :: rest) = c :: more := by
  cases rest with
  | nil => exact ⟨name, join_singleton _⟩
  | cons second rest => exact ⟨name ++ '/' :: join (second :: rest), join_cons_cons _ _ _⟩

theorem isAbsolute_spell_lead (components : List Text) :
    isAbsolute (spell (lead components) components) = false := by
  unfold lead
  split
  · next first =>
    obtain ⟨rest, rfl⟩ := List.head?_eq_some_iff.mp first
    obtain ⟨more, eq⟩ := exists_join_cons '.' ['.'] rest
    rw [spell, List.nil_append, up, eq]
    exact isAbsolute_dot _
  · exact isAbsolute_dot _

theorem names_spell_lead {components : List Text} (unbroken : ∀ part ∈ components, Unbroken part)
    (isName : ∀ part ∈ components, isName part = true) :
    names (spell (lead components) components) = components := by
  rw [← closeUp_lead_join, names_closeUp, lead]
  split
  · exact names_join unbroken isName
  · exact (names_here_slash _).trans (names_join unbroken isName)

theorem IsNormal.normalize_eq {path : Text} (h : IsNormal path) : normalize path = path := by
  cases h with
  | @absolute drive parts isDrive proper =>
    have spelled : spell ['/'] parts = closeUp ('/' :: join parts) :=
      (closeUp_append_slash_join [] parts).symm
    obtain ⟨rest, eq⟩ := closeUp_cons '/' (join parts)
    have all : names rest = parts := by
      rw [← names_slash, ← eq, names_closeUp, names_slash]
      exact names_join (fun name mem => (proper name mem).unbroken) fun name mem => (proper name mem).isName
    have resolved : resolve true parts = parts :=
      resolve_of_down (fun name mem => ⟨(proper name mem).isName, (proper name mem).down⟩) true
    rw [← append_spell, spelled, eq, normalize_append_separator isDrive rfl, normalize_slash, all,
      resolved, eq]
  | @relative climbs parts proper =>
    have unbroken : ∀ part ∈ List.replicate climbs up ++ parts, Unbroken part := by
      intro part mem
      rcases List.mem_append.mp mem with mem | mem
      · rw [List.eq_of_mem_replicate mem]
        decide
      · exact (proper part mem).unbroken
    have isName : ∀ part ∈ List.replicate climbs up ++ parts, isName part = true := by
      intro part mem
      rcases List.mem_append.mp mem with mem | mem
      · rw [List.eq_of_mem_replicate mem]
        rfl
      · exact (proper part mem).isName
    rw [normalize_of_relative (isAbsolute_spell_lead _), names_spell_lead unbroken isName,
      resolve_false_climbs climbs proper, closeUp_lead_join]

theorem normalize_eq_self_iff {path : Text} : normalize path = path ↔ IsNormal path :=
  ⟨fun fixed => fixed ▸ isNormal_normalize path, IsNormal.normalize_eq⟩

/-- What was normalized is a normal form. -/
theorem normalize_normalize (path : Text) : normalize (normalize path) = normalize path :=
  (isNormal_normalize path).normalize_eq

/-! ## Drive letters -/

/-- The letter of the drive that an absolute path starts with. -/
def driveLetter? : Text → Option Char
  | d :: ':' :: s :: _ => if d.isAlpha && isSeparator s then some d else none
  | _ => none

theorem driveLetter?_append_separator {drive : Text} (h : Drive drive) {s : Char}
    (separates : isSeparator s = true) (path : Text) :
    driveLetter? (drive ++ s :: path) = drive.head? := by
  cases h with
  | none =>
    have letter : s.isAlpha = false := by
      rw [Bool.eq_false_iff]
      intro alpha
      simp [unbroken_drive alpha s (by simp)] at separates
    simp only [List.nil_append, driveLetter?, List.head?_nil]
    split <;> simp_all
  | letter alpha => simp [driveLetter?, alpha, separates]

theorem isAbsolute_of_driveLetter? {path : Text} {d : Char} (h : driveLetter? path = some d) :
    isAbsolute path = true := by
  unfold driveLetter? at h
  split at h
  · next d s rest =>
    split at h
    · next both =>
      rw [Bool.and_eq_true] at both
      exact isAbsolute_drive both.1 both.2 rest
    · cases h
  · cases h

theorem driveLetter?_of_relative {path : Text} (h : isAbsolute path = false) :
    driveLetter? path = none := by
  rw [Option.eq_none_iff_forall_ne_some]
  intro d letter
  simp [isAbsolute_of_driveLetter? letter] at h

theorem driveLetter?_normalize (path : Text) : driveLetter? (normalize path) = driveLetter? path := by
  cases absolute : isAbsolute path with
  | true =>
    obtain ⟨drive, s, rest, isDrive, separates, rfl⟩ := exists_drive_of_isAbsolute absolute
    obtain ⟨more, normal⟩ := exists_normalize_slash rest
    rw [normalize_append_separator isDrive separates, normal,
      driveLetter?_append_separator isDrive rfl, driveLetter?_append_separator isDrive separates]
  | false =>
    rw [driveLetter?_of_relative absolute, driveLetter?_of_relative]
    rw [isAbsolute_normalize, absolute]

/-! ## Normal forms and fixed points -/

/-- **The normal forms are exactly the fixed points.** Normalizing ends in a normal form that is
absolute, with the same drive, exactly if the path is. It changes no normal form and every other text,
so normalizing twice is normalizing once, and the normal forms are all that it comes to. -/
theorem normal_forms_are_fixed_points :
    (∀ path, IsNormal (normalize path) ∧ isAbsolute (normalize path) = isAbsolute path ∧
      driveLetter? (normalize path) = driveLetter? path) ∧
    (∀ path, normalize path = path ↔ IsNormal path) ∧
    (∀ path, normalize (normalize path) = normalize path) ∧
    ∀ path, (∃ source, normalize source = path) ↔ IsNormal path := by
  refine ⟨fun path => ⟨isNormal_normalize path, isAbsolute_normalize path, driveLetter?_normalize path⟩,
    fun path => normalize_eq_self_iff, normalize_normalize,
    fun path => ⟨?_, fun h => ⟨path, h.normalize_eq⟩⟩⟩
  rintro ⟨source, rfl⟩
  exact isNormal_normalize source

end ScriptHost.Path

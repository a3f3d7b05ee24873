/-
Paths that go on. An absolute path is a drive, which may be missing, and a path from the root, and so is
its normal form (`normalize_append_separator`). What a path comes to depends on what its start comes to
and on the rest, so the start may as well be a normal form (`normalize_normalize_append`), and the rest as
well (`normalize_append_normalize`), and a name with a `..` behind it is as good as nothing
(`ProperName.normalize_append_up`).
-/
import ScriptHost.Proofs.Path.Normal

namespace ScriptHost.Path

/-! ## Drives -/

/-- What can stand before the first separator of an absolute path. -/
inductive Drive : Text → Prop
  | none : Drive []
  | letter {d : Char} (alpha : d.isAlpha = true) : Drive [d, ':']

theorem Drive.slash_notMem {drive : Text} (h : Drive drive) : '/' ∉ drive := by
  cases h with
  | none => exact List.not_mem_nil
  | letter alpha => exact fun mem => absurd (unbroken_drive alpha _ mem) (by decide)

theorem Drive.all_ne_slash {drive : Text} (h : Drive drive) : ∀ c ∈ drive, decide (c ≠ '/') = true :=
  fun _ mem => decide_eq_true fun e => h.slash_notMem (e ▸ mem)

theorem isAbsolute_append_separator {drive : Text} (h : Drive drive) {s : Char}
    (separates : isSeparator s = true) (path : Text) : isAbsolute (drive ++ s :: path) = true := by
  cases h with
  | none => exact isAbsolute_of_separator separates path
  | letter alpha => exact isAbsolute_drive alpha separates path

theorem exists_drive_of_isAbsolute {path : Text} (h : isAbsolute path = true) :
    ∃ drive s rest, Drive drive ∧ isSeparator s = true ∧ path = drive ++ s :: rest := by
  rcases isAbsolute_cases h with ⟨s, rest, separates, rfl⟩ | ⟨d, s, rest, alpha, separates, rfl⟩
  · exact ⟨[], s, rest, .none, separates, rfl⟩
  · exact ⟨[d, ':'], s, rest, .letter alpha, separates, rfl⟩

/-- An absolute path that goes on is absolute. -/
theorem isAbsolute_append {path : Text} (h : isAbsolute path = true) (more : Text) :
    isAbsolute (path ++ more) = true := by
  obtain ⟨drive, s, rest, isDrive, separates, rfl⟩ := exists_drive_of_isAbsolute h
  rw [List.append_assoc, List.cons_append]
  exact isAbsolute_append_separator isDrive separates (rest ++ more)

/-- A drive stays before the normal form of what is behind it. -/
theorem normalize_append_separator {drive : Text} (h : Drive drive) {s : Char}
    (separates : isSeparator s = true) (path : Text) :
    normalize (drive ++ s :: path) = drive ++ normalize ('/' :: path) := by
  cases h with
  | none =>
    rw [List.nil_append, List.nil_append, normalize_of_separator separates, normalize_slash]
  | @letter d alpha =>
    simp only [List.cons_append, List.nil_append]
    rw [normalize_drive alpha separates, normalize_slash, closeUp_cons_of_slash (by simp),
      closeUp_cons_of_slash (by simp)]

/-- An absolute normal form is a drive and a normal form from the root. -/
theorem exists_normalize_of_isAbsolute {path : Text} (h : isAbsolute path = true) :
    ∃ drive rest, Drive drive ∧ normalize path = drive ++ normalize ('/' :: rest) := by
  obtain ⟨drive, s, rest, isDrive, separates, rfl⟩ := exists_drive_of_isAbsolute h
  exact ⟨drive, rest, isDrive, normalize_append_separator isDrive separates rest⟩

theorem exists_normalize_of_relative {path : Text} (h : isAbsolute path = false) :
    ∃ rest, normalize path = '.' :: rest := by
  rcases normalize_relative_cases h with ⟨rest, e⟩ | e
  · exact ⟨_, e⟩
  · exact ⟨_, e⟩

/-- Whatever is put behind a normal form, it is absolute or not as before. -/
theorem isAbsolute_normalize_append (path more : Text) :
    isAbsolute (normalize path ++ more) = isAbsolute path := by
  cases h : isAbsolute path with
  | true => exact isAbsolute_append (by rw [isAbsolute_normalize, h]) more
  | false =>
    obtain ⟨rest, e⟩ := exists_normalize_of_relative h
    rw [e]
    exact isAbsolute_dot (rest ++ more)

/-! ## Resolving what goes on -/

/-- What was resolved is resolved. -/
theorem resolve_resolve (absolute : Bool) (components : List Text) :
    resolve absolute (resolve absolute components) = resolve absolute components := by
  have down : ∀ c ∈ resolve true components, isName c = true ∧ c ≠ up := fun c mem =>
    ⟨(mem_of_mem_resolve mem).2, fun e => up_notMem_resolve_true components (e ▸ mem)⟩
  cases absolute with
  | true => exact resolve_of_down down true
  | false => exact resolve_append_resolve_false false [] components

/-- Resolving goes on from what the start comes to. -/
theorem resolve_append_congr {absolute : Bool} {start start' : List Text}
    (same : resolve absolute start = resolve absolute start') (more : List Text) :
    resolve absolute (start ++ more) = resolve absolute (start' ++ more) := by
  rw [resolve, List.foldl_append, List.reverse_inj.mp same, resolve, List.foldl_append]

theorem resolve_resolve_append (absolute : Bool) (start more : List Text) :
    resolve absolute (resolve absolute start ++ more) = resolve absolute (start ++ more) :=
  resolve_append_congr (resolve_resolve absolute start) more

/-- A component that leads one step down. -/
structure ProperName (name : Text) : Prop where
  unbroken : Unbroken name
  isName : isName name = true
  down : name ≠ up

theorem ProperName.ne_nil {name : Text} (h : ProperName name) : name ≠ [] :=
  (isName_iff.mp h.isName).1

theorem ProperName.slash_notMem {name : Text} (h : ProperName name) : '/' ∉ name := fun mem =>
  absurd (h.unbroken _ mem) (by decide)

theorem ProperName.names {name : Text} (h : ProperName name) : names name = [name] :=
  names_of_unbroken h.unbroken h.isName

/-- A name with a `..` behind it is as good as nothing. -/
theorem ProperName.resolve_append_up {name : Text} (h : ProperName name) (absolute : Bool)
    (start : List Text) : resolve absolute (start ++ [name] ++ [up]) = resolve absolute start := by
  have back : ∀ stack, resolveComponent absolute (name :: stack) up = stack := fun stack => by
    simp [resolveComponent, h.down]
  simp [resolve, resolveComponent_of_name h.isName h.down, back]

/-! ## Normal forms of paths that go on -/

theorem normalize_relative_congr {p q : Text} (hp : isAbsolute p = false) (hq : isAbsolute q = false)
    (same : resolve false (names p) = resolve false (names q)) : normalize p = normalize q := by
  rw [normalize_of_relative hp, normalize_of_relative hq, same]

/-- The names of a normal form from the root are what those of the path come to. -/
theorem names_of_normalize_slash {path rest : Text} (h : normalize ('/' :: path) = '/' :: rest) :
    names rest = resolve true (names path) := by
  rw [← names_slash, ← h, names_normalize_of_separator rfl]

/-- Instead of a path its normal form may go on. -/
theorem normalize_normalize_append {p q : Text}
    (h : isAbsolute (p ++ '/' :: q) = isAbsolute p) :
    normalize (normalize p ++ '/' :: q) = normalize (p ++ '/' :: q) := by
  cases absolute : isAbsolute p with
  | true =>
    obtain ⟨drive, s, rest, isDrive, separates, rfl⟩ := exists_drive_of_isAbsolute absolute
    obtain ⟨more, normal⟩ := exists_normalize_slash rest
    simp only [normalize_append_separator isDrive separates, normal, List.append_assoc,
      List.cons_append, normalize_append_separator isDrive (s := '/') rfl]
    refine congrArg _ (normalize_slash_congr ?_)
    rw [names_append_slash, names_append_slash, names_of_normalize_slash normal,
      resolve_resolve_append]
  | false =>
    rw [absolute] at h
    refine normalize_relative_congr ?_ h ?_
    · rw [isAbsolute_normalize_append, absolute]
    · rw [names_append_slash, names_append_slash, names_normalize_of_relative absolute,
        resolve_resolve_append]

/-- Whether a path that goes on is absolute does not depend on how it goes on. -/
theorem isAbsolute_append_slash_congr (p q q' : Text) :
    isAbsolute (p ++ '/' :: q) = isAbsolute (p ++ '/' :: q') := by
  match p with
  | [] => rfl
  | [c] => rfl
  | [c, d] => by_cases colon : d = ':' <;> simp [isAbsolute, colon]
  | c :: d :: e :: rest => by_cases colon : d = ':' <;> simp [isAbsolute, colon]

/-- A relative path may as well follow in its normal form. -/
theorem normalize_append_normalize {p q : Text} (h : isAbsolute (p ++ '/' :: q) = isAbsolute p)
    (relative : isAbsolute q = false) :
    normalize (p ++ '/' :: normalize q) = normalize (p ++ '/' :: q) := by
  cases absolute : isAbsolute p with
  | true =>
    obtain ⟨drive, s, rest, isDrive, separates, rfl⟩ := exists_drive_of_isAbsolute absolute
    simp only [List.append_assoc, List.cons_append, normalize_append_separator isDrive separates]
    refine congrArg _ (normalize_slash_congr ?_)
    rw [names_append_slash, names_append_slash, names_normalize_of_relative relative,
      resolve_append_resolve_false]
  | false =>
    rw [absolute] at h
    refine normalize_relative_congr ?_ h ?_
    · rw [isAbsolute_append_slash_congr p _ q, h]
    · rw [names_append_slash, names_append_slash, names_normalize_of_relative relative,
        resolve_append_resolve_false]

/-- A name and a `..` behind a path that is absolute or not by itself change nothing. -/
theorem ProperName.normalize_append_up {p name : Text} (proper : ProperName name)
    (h : isAbsolute (p ++ '/' :: (name ++ '/' :: up)) = isAbsolute p) :
    normalize (p ++ '/' :: (name ++ '/' :: up)) = normalize p := by
  have behind : Path.names (name ++ '/' :: up) = [name] ++ [up] := by
    rw [names_append_slash, proper.names]
    rfl
  cases absolute : isAbsolute p with
  | true =>
    obtain ⟨drive, s, rest, isDrive, separates, rfl⟩ := exists_drive_of_isAbsolute absolute
    simp only [List.append_assoc, List.cons_append, normalize_append_separator isDrive separates]
    refine congrArg _ (normalize_slash_congr ?_)
    rw [names_append_slash, behind, ← List.append_assoc, proper.resolve_append_up]
  | false =>
    rw [absolute] at h
    refine normalize_relative_congr h absolute ?_
    rw [names_append_slash, behind, ← List.append_assoc, proper.resolve_append_up]

/-- From a normal form, a name leads down to where `..` leads back. -/
theorem ProperName.normalize_up {p name : Text} (proper : ProperName name) (normal : normalize p = p) :
    normalize (normalize (p ++ '/' :: name) ++ '/' :: up) = p := by
  have stays : ∀ more, isAbsolute (p ++ more) = isAbsolute p := fun more => by
    rw [← normal, isAbsolute_normalize_append, isAbsolute_normalize]
  rw [normalize_normalize_append]
  · rw [List.append_assoc, List.cons_append, proper.normalize_append_up (stays _), normal]
  · rw [List.append_assoc, stays, stays]

/-- Below the root, a name is behind a slash that is not the first. -/
theorem ProperName.exists_normalize_below {path name : Text} (proper : ProperName name)
    (normal : normalize ('/' :: path) = '/' :: path) (ne : path ≠ []) :
    ∃ more, normalize ('/' :: path ++ '/' :: name) = '/' :: more ∧ '/' ∈ more := by
  have some : resolve true (Path.names path) ≠ [] := by
    intro none
    rw [normalize_slash, none] at normal
    exact ne (List.cons.inj normal).2.symm
  have spelled : normalize ('/' :: path ++ '/' :: name) =
      closeUp ('/' :: join (resolve true (Path.names path) ++ [name])) := by
    rw [List.cons_append, normalize_slash, names_append_slash, proper.names,
      resolve_append_name proper.isName proper.down]
  rw [spelled, join_concat some]
  rcases closeUp_eq ('/' :: (join (resolve true (Path.names path)) ++ '/' :: name)) with e | e <;> rw [e]
  · exact ⟨_, rfl, by simp⟩
  · exact ⟨_, rfl, by simp⟩

/-! ## Step by step -/

/-- Where steps lead from a path, each taken from the normal form of what the ones before it came to. -/
def follow (start : Text) (steps : List Text) : Text :=
  steps.foldl (fun place step => normalize (place ++ '/' :: step)) (normalize start)

/-- The first step may as well be part of the start. -/
theorem follow_cons {start step : Text} (h : isAbsolute (start ++ '/' :: step) = isAbsolute start)
    (steps : List Text) : follow start (step :: steps) = follow (start ++ '/' :: step) steps := by
  rw [follow, List.foldl_cons, normalize_normalize_append h]
  rfl

/-- Taking all steps at once leads to the same place. -/
theorem follow_eq_normalize_join {start : Text} {steps : List Text}
    (h : ∀ step ∈ steps.head?, isAbsolute (start ++ '/' :: step) = isAbsolute start) :
    follow start steps = normalize (join (start :: steps)) := by
  induction steps generalizing start with
  | nil => simp [follow]
  | cons step steps ih =>
    have joined : join (start :: step :: steps) = join ((start ++ '/' :: step) :: steps) := by
      cases steps <;> simp [join_cons_cons]
    rw [follow_cons (h step (by simp)), joined]
    refine ih fun next _ => ?_
    -- What has a slash in it already is absolute or not, whatever comes next.
    rw [List.append_assoc, List.cons_append]
    exact isAbsolute_append_slash_congr start _ step

/-- **Normalizing composes with joining.** If a path is absolute or not by itself, its normal form may go
on instead of it, and so may the normal form of a relative path follow it. So taking one step after the
other leads where the whole path does. -/
theorem normalizing_composes {p q : Text} (h : isAbsolute p = isAbsolute (p ++ '/' :: q)) :
    normalize (normalize p ++ '/' :: q) = normalize (p ++ '/' :: q) ∧
    (isAbsolute q = false → normalize (p ++ '/' :: normalize q) = normalize (p ++ '/' :: q)) ∧
    ∀ steps, follow p (q :: steps) = normalize (join (p :: q :: steps)) := by
  refine ⟨normalize_normalize_append h.symm, normalize_append_normalize h.symm, fun steps => ?_⟩
  refine follow_eq_normalize_join fun step mem => ?_
  rw [List.head?_cons, Option.mem_some_iff] at mem
  rw [← mem, h]

/-- The second path takes away more than the first one has. -/
theorem normalizing_composes_of_climb :
    normalize (normalize "a\\.\\b".toList ++ '/' :: "../../../c..".toList) = "../c../".toList ∧
    normalize ("a\\.\\b".toList ++ '/' :: normalize "../../../c..".toList) = "../c../".toList ∧
    follow "a\\.\\b".toList ["../../../c..".toList, "C:/x".toList] = "../c../C:/x".toList := by
  have composes := normalizing_composes (p := "a\\.\\b".toList) (q := "../../../c..".toList)
    (by decide +kernel)
  have whole : normalize ("a\\.\\b".toList ++ '/' :: "../../../c..".toList) = "../c../".toList := by
    decide +kernel
  refine ⟨composes.1.trans whole, (composes.2.1 (by decide +kernel)).trans whole, ?_⟩
  exact (composes.2.2 ["C:/x".toList]).trans (by decide +kernel)

end ScriptHost.Path

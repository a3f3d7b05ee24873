/-
Normal forms by the names they are made of. A path is absolute exactly if its normal form is. The
normal form of a relative path either starts with `../` and leads above its start, or it is `.` and
what the path comes to from the root (`normalize_relative_cases`).
-/
import ScriptHost.Proofs.Path.Components

namespace ScriptHost.Path

/-! ## Absolute paths -/

theorem isAbsolute_of_separator {c : Char} (h : isSeparator c = true) (path : Text) :
    isAbsolute (c :: path) = true := by
  simp [isAbsolute, h]

theorem isAbsolute_slash (path : Text) : isAbsolute ('/' :: path) = true :=
  isAbsolute_of_separator rfl path

theorem isAbsolute_drive {d s : Char} (hd : d.isAlpha = true) (hs : isSeparator s = true)
    (path : Text) : isAbsolute (d :: ':' :: s :: path) = true := by
  simp [isAbsolute, hd, hs]

@[simp] theorem isAbsolute_dot (path : Text) : isAbsolute ('.' :: path) = false := by
  simp [isAbsolute, isSeparator, show Char.isAlpha '.' = false by decide]

/-- An absolute path starts with a separator or with a drive. -/
theorem isAbsolute_cases {path : Text} (h : isAbsolute path = true) :
    (∃ c rest, isSeparator c = true ∧ path = c :: rest) ∨
      ∃ d s rest, d.isAlpha = true ∧ isSeparator s = true ∧ path = d :: ':' :: s :: rest := by
  match path with
  | [] => simp [isAbsolute] at h
  | c :: rest =>
    simp only [isAbsolute, Bool.or_eq_true, Bool.and_eq_true] at h
    rcases h with h | ⟨hc, h⟩
    · exact .inl ⟨c, rest, h, rfl⟩
    · split at h
      · exact .inr ⟨c, _, _, hc, h, rfl⟩
      · cases h

theorem unbroken_drive {d : Char} (h : d.isAlpha = true) : Unbroken [d, ':'] := by
  have alpha_ne : ∀ c : Char, c.isAlpha = true → c ≠ '/' ∧ c ≠ '\\' := by
    rintro c hc
    constructor <;> rintro rfl <;> exact absurd hc (by decide)
  obtain ⟨h₁, h₂⟩ := alpha_ne d h
  intro c hc
  simp only [List.mem_cons, List.not_mem_nil, or_false] at hc
  rcases hc with rfl | rfl
  · simp [isSeparator, h₁, h₂]
  · rfl

theorem split_drive {d s : Char} (hd : d.isAlpha = true) (hs : isSeparator s = true) (path : Text) :
    split (d :: ':' :: s :: path) = [d, ':'] :: split path := by
  have h := split_append_separator hs [d, ':'] path
  rwa [split_of_unbroken (unbroken_drive hd)] at h

/-! ## Normal forms by names -/

theorem normalize_of_separator {c : Char} (h : isSeparator c = true) (path : Text) :
    normalize (c :: path) = closeUp ('/' :: join (resolve true (names path))) := by
  rw [normalize, if_pos (isAbsolute_of_separator h path), split_cons_of_separator h, ← resolve_split]
  rfl

theorem normalize_slash (path : Text) :
    normalize ('/' :: path) = closeUp ('/' :: join (resolve true (names path))) :=
  normalize_of_separator rfl path

theorem normalize_drive {d s : Char} (hd : d.isAlpha = true) (hs : isSeparator s = true)
    (path : Text) : normalize (d :: ':' :: s :: path) =
      closeUp (d :: ':' :: '/' :: join (resolve true (names path))) := by
  rw [normalize, if_pos (isAbsolute_drive hd hs path), split_drive hd hs, ← resolve_split]
  rfl

/-- What a relative normal form starts with. -/
def lead (components : List Text) : Text :=
  if components.head? = some up then [] else ['.', '/']

theorem normalize_of_relative {path : Text} (h : isAbsolute path = false) :
    normalize path =
      closeUp (lead (resolve false (names path)) ++ join (resolve false (names path))) := by
  simp [normalize, h, lead, resolve_split]

/-! ## What a normal form keeps -/

theorem unbroken_of_mem_resolve {absolute : Bool} {path name : Text}
    (h : name ∈ resolve absolute (names path)) : Unbroken name :=
  unbroken_of_mem_names (mem_of_mem_resolve h).1

theorem names_join_resolve (absolute : Bool) (path : Text) :
    names (join (resolve absolute (names path))) = resolve absolute (names path) :=
  names_join (fun _ h => unbroken_of_mem_resolve h) fun _ h => (mem_of_mem_resolve h).2

theorem names_normalize_of_relative {path : Text} (h : isAbsolute path = false) :
    names (normalize path) = resolve false (names path) := by
  rw [normalize_of_relative h, names_closeUp, lead]
  split
  · exact names_join_resolve false path
  · simpa using names_join_resolve false path

theorem names_normalize_of_separator {c : Char} (h : isSeparator c = true) (path : Text) :
    names (normalize (c :: path)) = resolve true (names path) := by
  rw [normalize_of_separator h, names_closeUp, names_slash, names_join_resolve]

theorem names_normalize_of_drive {d s : Char} (hd : d.isAlpha = true) (hs : isSeparator s = true)
    (path : Text) :
    names (normalize (d :: ':' :: s :: path)) = [d, ':'] :: resolve true (names path) := by
  have letter : names [d, ':'] = [[d, ':']] :=
    names_of_unbroken (unbroken_drive hd) (by simp [isName, here])
  have behind := names_append_slash [d, ':'] (join (resolve true (names path)))
  rw [letter, names_join_resolve] at behind
  rw [normalize_drive hd hs, names_closeUp]
  exact behind

/-- A closing slash goes behind what there is. -/
theorem closeUp_eq (path : Text) : closeUp path = path ∨ closeUp path = path ++ ['/'] := by
  unfold closeUp
  split
  · exact .inr rfl
  · exact .inl rfl

theorem closeUp_cons (c : Char) (path : Text) : ∃ rest, closeUp (c :: path) = c :: rest := by
  rcases closeUp_eq (c :: path) with h | h
  · exact ⟨path, h⟩
  · exact ⟨path ++ ['/'], h⟩

/-- The normal form of a path from the root is one. -/
theorem exists_normalize_slash (path : Text) : ∃ rest, normalize ('/' :: path) = '/' :: rest := by
  rw [normalize_slash]
  exact closeUp_cons '/' _

/-- What stands before a path with a slash makes no difference to closing it up. -/
theorem closeUp_cons_of_slash {path : Text} (h : '/' ∈ path) (c : Char) :
    closeUp (c :: path) = c :: closeUp path := by
  have ends : up.isSuffixOf (c :: path) = up.isSuffixOf path := by
    have longer : up ≠ c :: path := by
      intro e
      rw [up, List.cons.injEq] at e
      simp [← e.2] at h
    rw [Bool.eq_iff_iff, List.isSuffixOf_iff_suffix, List.isSuffixOf_iff_suffix,
      List.suffix_cons_iff]
    exact or_iff_right longer
  simp only [closeUp, ends]
  split <;> rfl

/-- A relative path that leads above its start has a normal form that does so at once. -/
theorem normalize_climbing {path : Text} (h : isAbsolute path = false)
    (climbs : up ∈ resolve false (names path)) :
    ∃ rest, normalize path = '.' :: '.' :: '/' :: rest := by
  have head := (head?_resolve_false (names path)).mpr climbs
  rw [normalize_of_relative h, lead, if_pos head, List.nil_append]
  obtain ⟨more, eq⟩ : ∃ more, resolve false (names path) = up :: more := by
    cases hr : resolve false (names path) with
    | nil => simp [hr] at head
    | cons first more => exact ⟨more, by simpa [hr] using head⟩
  rw [eq]
  cases more with
  | nil => exact ⟨[], rfl⟩
  | cons second more =>
    rw [join_cons_cons]
    rcases closeUp_eq (up ++ '/' :: join (second :: more)) with e | e
    · exact ⟨join (second :: more), e⟩
    · exact ⟨join (second :: more) ++ ['/'], by rw [e]; simp [up]⟩

/-- A relative path that stays below its start has for its normal form what it comes to from the root,
behind a `.`. -/
theorem normalize_staying {path : Text} (h : isAbsolute path = false)
    (stays : up ∉ resolve false (names path)) :
    normalize path = '.' :: normalize ('/' :: path) := by
  have head : ¬ (resolve false (names path)).head? = some up := fun e =>
    stays ((head?_resolve_false _).mp e)
  rw [normalize_of_relative h, lead, if_neg head, normalize_slash, ← resolve_false_of_notMem stays]
  exact closeUp_cons_of_slash (by simp) '.'

theorem normalize_relative_cases {path : Text} (h : isAbsolute path = false) :
    (∃ rest, normalize path = '.' :: '.' :: '/' :: rest) ∨
      normalize path = '.' :: normalize ('/' :: path) := by
  by_cases climbs : up ∈ resolve false (names path)
  · exact .inl (normalize_climbing h climbs)
  · exact .inr (normalize_staying h climbs)

/-- A normal form is absolute exactly if the path is. -/
@[simp] theorem isAbsolute_normalize (path : Text) : isAbsolute (normalize path) = isAbsolute path := by
  cases h : isAbsolute path with
  | true =>
    rcases isAbsolute_cases h with ⟨c, rest, hc, rfl⟩ | ⟨d, s, rest, hd, hs, rfl⟩
    · rw [normalize_of_separator hc]
      obtain ⟨more, e⟩ := closeUp_cons '/' (join (resolve true (names rest)))
      rw [e, isAbsolute_slash]
    · rw [normalize_drive hd hs]
      rcases closeUp_eq (d :: ':' :: '/' :: join (resolve true (names rest))) with e | e
      · rw [e, isAbsolute_drive hd rfl]
      · rw [e]
        exact isAbsolute_drive hd rfl _
  | false =>
    rcases normalize_relative_cases h with ⟨more, e⟩ | e
    · rw [e, isAbsolute_dot]
    · rw [e, isAbsolute_dot]

/-- From the root, only the names of a path count. -/
theorem normalize_slash_congr {p q : Text} (h : resolve true (names p) = resolve true (names q)) :
    normalize ('/' :: p) = normalize ('/' :: q) := by
  rw [normalize_slash, normalize_slash, h]

/-- Joined to the root, the normal form of a relative path comes to what the path comes to. -/
theorem normalize_slash_normalize {path : Text} (h : isAbsolute path = false) :
    normalize ('/' :: normalize path) = normalize ('/' :: path) :=
  normalize_slash_congr (by rw [names_normalize_of_relative h, resolve_true_resolve_false])

theorem backslash_notMem_join {parts : List Text} (h : ∀ part ∈ parts, Unbroken part) :
    '\\' ∉ join parts := by
  have whole : ∀ {part : Text}, Unbroken part → '\\' ∉ part := fun hp hm =>
    absurd (hp _ hm) (by decide)
  induction parts with
  | nil => simp
  | cons first rest ih =>
    have hfirst := whole (h first (by simp))
    cases rest with
    | nil => simpa using hfirst
    | cons second rest =>
      rw [join_cons_cons]
      simpa [hfirst] using ih fun part hp => h part (by simp [hp])

/-- A normal form has slashes only. -/
theorem backslash_notMem_normalize (path : Text) : '\\' ∉ normalize path := by
  have closed : ∀ {p : Text}, '\\' ∉ p → '\\' ∉ closeUp p := fun {p} hp => by
    rcases closeUp_eq p with e | e <;> simp [e, hp]
  have joined : ∀ absolute p, '\\' ∉ join (resolve absolute (names p)) := fun _ _ =>
    backslash_notMem_join fun _ h => unbroken_of_mem_resolve h
  cases h : isAbsolute path with
  | true =>
    rcases isAbsolute_cases h with ⟨c, rest, hc, rfl⟩ | ⟨d, s, rest, hd, hs, rfl⟩
    · rw [normalize_of_separator hc]
      exact closed (by simpa using joined true rest)
    · have hd' : '\\' ≠ d := by
        rintro rfl
        exact absurd hd (by decide)
      rw [normalize_drive hd hs]
      exact closed (by simpa [hd'] using joined true rest)
  | false =>
    rw [normalize_of_relative h, lead]
    refine closed ?_
    split <;> simpa using joined false path

end ScriptHost.Path

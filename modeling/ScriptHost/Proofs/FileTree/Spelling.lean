/-
The spelling of a place. Many paths name one place, and one of them is its spelling: its own normal
form, from the root, and with no first name that would be taken for a drive (`isSpelling_slash_iff`).
-/
import ScriptHost.Proofs.FileTree.Key

namespace ScriptHost.FileKey

open ScriptHost.Path

/-- The path from the root that is made of the names of a place. -/
def spelling (key : FileKey) : Text :=
  closeUp ('/' :: join key)

/-- A path that is the spelling of the place it names. -/
def IsSpelling (path : Text) : Prop :=
  ∃ key, ofPath path = some key ∧ path = spelling key

/-- A place has one spelling. -/
theorem IsSpelling.eq_of_ofPath_eq {p q : Text} (hp : IsSpelling p) (hq : IsSpelling q)
    (same : ofPath p = ofPath q) : p = q := by
  obtain ⟨key, place, rfl⟩ := hp
  obtain ⟨key', place', rfl⟩ := hq
  rw [place, place', Option.some.injEq] at same
  rw [same]

theorem IsSpelling.exists_slash {path : Text} (h : IsSpelling path) :
    ∃ rest, path = '/' :: rest := by
  obtain ⟨key, -, rfl⟩ := h
  exact closeUp_cons '/' (join key)

theorem withoutDrive_eq_self_iff {key : FileKey} :
    withoutDrive key = key ↔ ∀ first ∈ key.head?, ¬ IsDrive first := by
  constructor
  · intro same first mem drive
    obtain ⟨rest, rfl⟩ : ∃ rest, key = first :: rest := List.head?_eq_some_iff.mp mem
    have shorter := congrArg List.length ((withoutDrive_cons drive rest).symm.trans same)
    simp at shorter
  · exact withoutDrive_of_head

theorem isSpelling_slash_iff {rest : Text} :
    IsSpelling ('/' :: rest) ↔
      normalize ('/' :: rest) = '/' :: rest ∧ ∀ first ∈ (names rest).head?, ¬ IsDrive first := by
  constructor
  · rintro ⟨key, place, spelled⟩
    rw [ofPath_slash, Option.some.injEq] at place
    have down : ∀ name ∈ key, Unbroken name ∧ isName name = true ∧ name ≠ up := by
      intro name mem
      rw [← place] at mem
      have resolved := mem_of_mem_withoutDrive mem
      exact ⟨unbroken_of_mem_resolve resolved, (mem_of_mem_resolve resolved).2,
        fun e => up_notMem_resolve_true _ (e ▸ resolved)⟩
    have all : names rest = key := by
      rw [← names_slash, spelled, spelling, names_closeUp, names_slash]
      exact names_join (fun name mem => (down name mem).1) fun name mem => (down name mem).2.1
    have resolved : resolve true key = key := resolve_of_down (fun name mem => (down name mem).2) true
    refine ⟨?_, ?_⟩
    · rw [normalize_slash, all, resolved, spelled]
      rfl
    · rw [all]
      rw [all, resolved] at place
      exact withoutDrive_eq_self_iff.mp place
  · rintro ⟨normal, noDrive⟩
    have resolved : resolve true (names rest) = names rest := by
      rw [← names_normalize_of_separator (c := '/') rfl rest, normal, names_slash]
    refine ⟨names rest, ?_, ?_⟩
    · rw [ofPath_slash, resolved, withoutDrive_of_head noDrive]
    · rw [spelling, ← normal, normalize_slash, resolved]

/-! ## Spellings by components -/

/-- A name that no closing slash is put behind, and that is not taken for a drive. -/
structure EndsPlainly (name : Text) : Prop where
  unbroken : Unbroken name
  isName : isName name = true
  not_up : name ≠ up
  not_drive : ¬ IsDrive name
  not_dot : name.getLast? ≠ some '.'

theorem EndsPlainly.of_getLast? {name : Text} {c : Char} (unbroken : Unbroken name)
    (last : name.getLast? = some c) (colon : c ≠ ':') (dot : c ≠ '.') : EndsPlainly name := by
  have other : ∀ text : Text, text.getLast? ≠ some c → name ≠ text := by
    rintro text no rfl
    exact no last
  refine ⟨unbroken, isName_iff.mpr ⟨other _ (by simp), other _ ?_⟩, other _ ?_, ?_, ?_⟩
  · simpa [here] using dot.symm
  · simpa [up] using dot.symm
  · rw [IsDrive, last]
    simpa using colon
  · rw [last]
    simpa using dot

/-- Behind a name that ends plainly there is nothing to close up. -/
theorem EndsPlainly.closeUp {name : Text} (h : EndsPlainly name) (path : Text) :
    closeUp (path ++ '/' :: name) = path ++ '/' :: name := by
  have ne : name ≠ [] := (isName_iff.mp h.isName).1
  refine if_neg fun ends => h.not_dot ?_
  obtain ⟨front, eq⟩ := List.isSuffixOf_iff_suffix.mp ends
  have last := congrArg List.getLast? eq
  rw [List.getLast?_append, List.getLast?_append] at last
  obtain ⟨c, hc⟩ := Option.ne_none_iff_exists'.mp (mt List.getLast?_eq_none_iff.mp ne)
  simpa [up, List.getLast?_cons, hc] using last.symm

theorem EndsPlainly.getLast?_ne_slash {name : Text} (h : EndsPlainly name) (before : Text) {p : Text} :
    (before ++ '/' :: name).getLast? ≠ (p ++ ['/']).getLast? := by
  obtain ⟨c, hc⟩ := Option.ne_none_iff_exists'.mp
    (mt List.getLast?_eq_none_iff.mp (isName_iff.mp h.isName).1)
  have whole : c ≠ '/' := by
    rintro rfl
    exact absurd (h.unbroken '/' (List.mem_of_getLast? hc)) (by decide)
  simpa [List.getLast?_append, List.getLast?_cons, hc] using whole

/-- A path from the root that ends plainly is a spelling exactly if every name before the end is in its
place: none is empty, `.` or `..`, and the first is no drive. -/
theorem isSpelling_join_iff {front : List Text} {name : Text}
    (unbroken : ∀ part ∈ front, Unbroken part) (plain : EndsPlainly name) :
    IsSpelling ('/' :: join (front ++ [name])) ↔
      (∀ part ∈ front, isName part = true ∧ part ≠ up) ∧
        ∀ first ∈ front.head?, ¬ IsDrive first := by
  obtain ⟨before, eq⟩ := exists_slash_join front name
  have closed : Path.closeUp ('/' :: join (front ++ [name])) = '/' :: join (front ++ [name]) := by
    rw [eq, plain.closeUp]
  have whole : ∀ part ∈ front ++ [name], Unbroken part := by
    simpa [or_imp, forall_and] using ⟨unbroken, plain.unbroken⟩
  have split : split (join (front ++ [name])) = front ++ [name] := split_join (by simp) whole
  have head : (∀ first ∈ (front ++ [name]).head?, ¬ IsDrive first) ↔
      ∀ first ∈ front.head?, ¬ IsDrive first := by
    cases front with
    | nil => simpa using plain.not_drive
    | cons first rest => simp
  constructor
  · intro h
    obtain ⟨normal, noDrive⟩ := isSpelling_slash_iff.mp h
    have all : resolve true (names (join (front ++ [name]))) = front ++ [name] := by
      rw [normalize_slash] at normal
      rcases closeUp_eq ('/' :: join (resolve true (names (join (front ++ [name]))))) with e | e
      · rw [e, List.cons.injEq] at normal
        by_cases none : resolve true (names (join (front ++ [name]))) = []
        · rw [none] at normal
          rw [← normal.2] at split
          have empty : name = [] := by
            simpa using congrArg List.getLast? split.symm
          exact absurd empty (isName_iff.mp plain.isName).1
        · have parts := split_join none fun _ mem => unbroken_of_mem_resolve mem
          rw [normal.2, split] at parts
          exact parts.symm
      · rw [e, eq] at normal
        exact absurd (congrArg List.getLast? normal).symm (plain.getLast?_ne_slash before)
    have down : ∀ part ∈ front ++ [name], isName part = true ∧ part ≠ up := by
      intro part mem
      rw [← all] at mem
      exact ⟨(mem_of_mem_resolve mem).2, fun e => up_notMem_resolve_true _ (e ▸ mem)⟩
    refine ⟨fun part mem => down part (by simp [mem]), head.mp ?_⟩
    rw [← names_slash, ← normal, names_normalize_of_separator (c := '/') rfl, all] at noDrive
    exact noDrive
  · rintro ⟨down, noDrive⟩
    have all : names (join (front ++ [name])) = front ++ [name] := by
      refine names_join whole ?_
      simpa [or_imp, forall_and] using ⟨fun part mem => (down part mem).1, plain.isName⟩
    refine isSpelling_slash_iff.mpr ⟨?_, ?_⟩
    · rw [normalize_slash, all, resolve_of_down (down_concat down plain.isName plain.not_up), closed]
    · rw [all]
      exact head.mpr noDrive

end ScriptHost.FileKey

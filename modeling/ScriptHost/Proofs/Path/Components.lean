/-
What a path is made of. Its names are its components but the empty ones and `.`; resolving takes the
`..` among them away. Resolved from the root there is no `..` left. Resolved from somewhere else the
same names are left, with the `..` that lead above the start before them (`resolve_false_eq`).
-/
import Mathlib.Data.List.Induction
import ScriptHost.Path

namespace ScriptHost.Path

/-! ## Splitting -/

/-- A text without a separator. -/
def Unbroken (text : Text) : Prop :=
  ∀ c ∈ text, isSeparator c = false

instance : DecidablePred Unbroken := fun text =>
  List.decidableBAll (isSeparator · = false) text

theorem unbroken_nil : Unbroken [] := by simp [Unbroken]

theorem split_cons_of_separator {c : Char} (h : isSeparator c = true) (cs : Text) :
    split (c :: cs) = [] :: split cs := by
  simp [split, h]

theorem split_of_unbroken {text : Text} (h : Unbroken text) : split text = [text] := by
  induction text with
  | nil => rfl
  | cons c cs ih =>
    have hc : isSeparator c = false := h c (by simp)
    have hcs : split cs = [cs] := ih fun d hd => h d (by simp [hd])
    simp [split, hc, hcs]

/-- A separator splits a path wherever it stands. -/
theorem split_append_separator {c : Char} (h : isSeparator c = true) (p q : Text) :
    split (p ++ c :: q) = split p ++ split q := by
  induction p with
  | nil => simp [split_cons_of_separator h]
  | cons d p ih =>
    by_cases hd : isSeparator d = true
    · simp [split, hd, ih]
    · obtain ⟨first, rest, hp⟩ := List.exists_cons_of_ne_nil (split_ne_nil p)
      simp [split, hd, ih, hp]

theorem split_append_slash (p q : Text) : split (p ++ '/' :: q) = split p ++ split q :=
  split_append_separator rfl p q

theorem unbroken_of_mem_split {path part : Text} (h : part ∈ split path) : Unbroken part := by
  induction path generalizing part with
  | nil =>
    simp only [split_nil, List.mem_singleton] at h
    subst h
    exact unbroken_nil
  | cons c cs ih =>
    by_cases hc : isSeparator c = true
    · rw [split_cons_of_separator hc, List.mem_cons] at h
      rcases h with rfl | h
      · exact unbroken_nil
      · exact ih h
    · obtain ⟨first, rest, hcs⟩ := List.exists_cons_of_ne_nil (split_ne_nil cs)
      simp only [split, hc, hcs, Bool.false_eq_true, if_false, List.mem_cons] at h
      rcases h with rfl | h
      · intro d hd
        rcases List.mem_cons.mp hd with rfl | hd
        · simpa using hc
        · exact (ih (by simp [hcs]) : Unbroken first) d hd
      · exact ih (by simp [hcs, h])

/-- A component is made of characters of the path. -/
theorem subset_of_mem_split {path part : Text} (h : part ∈ split path) : part ⊆ path := by
  induction path generalizing part with
  | nil =>
    rw [split_nil, List.mem_singleton] at h
    exact h ▸ List.Subset.refl []
  | cons c cs ih =>
    by_cases hc : isSeparator c = true
    · rw [split_cons_of_separator hc, List.mem_cons] at h
      rcases h with rfl | h
      · exact List.nil_subset _
      · exact List.subset_cons_of_subset c (ih h)
    · obtain ⟨first, rest, hcs⟩ := List.exists_cons_of_ne_nil (split_ne_nil cs)
      simp only [split, hc, hcs, Bool.false_eq_true, if_false, List.mem_cons] at h
      rcases h with rfl | h
      · exact List.cons_subset_cons c (ih (by simp [hcs]))
      · exact List.subset_cons_of_subset c (ih (by simp [hcs, h]))

/-- Behind a slash, a text ends in what has no slash exactly if it does so by itself. -/
theorem suffix_append_slash_iff {ending : Text} (noSlash : '/' ∉ ending) {before last : Text} :
    ending <:+ before ++ '/' :: last ↔ ending <:+ last := by
  constructor
  · intro ends
    rcases List.suffix_or_suffix_of_suffix ends (List.suffix_append before ('/' :: last)) with h | h
    · rcases List.suffix_cons_iff.mp h with e | h
      · exact absurd (by simp [e]) noSlash
      · exact h
    · exact absurd (h.subset (by simp)) noSlash
  · exact fun ends => ends.trans ((List.suffix_cons '/' last).trans (List.suffix_append before _))

/-! ## Joining -/

theorem join_cons_cons (first second : Text) (rest : List Text) :
    join (first :: second :: rest) = first ++ '/' :: join (second :: rest) := by
  simp [join, List.intercalate]

theorem join_concat {parts : List Text} (ne : parts ≠ []) (last : Text) :
    join (parts ++ [last]) = join parts ++ '/' :: last := by
  induction parts with
  | nil => exact absurd rfl ne
  | cons first rest ih =>
    cases rest with
    | nil => simp [join_cons_cons]
    | cons second rest =>
      have step := ih (by simp)
      rw [List.cons_append] at step
      rw [List.cons_append, List.cons_append, join_cons_cons, join_cons_cons, step]
      simp

/-- From the root, the last part stands behind the last slash. -/
theorem exists_slash_join (front : List Text) (last : Text) :
    ∃ before, '/' :: join (front ++ [last]) = before ++ '/' :: last := by
  by_cases none : front = []
  · exact ⟨[], by simp [none]⟩
  · exact ⟨'/' :: join front, by rw [join_concat none, List.cons_append]⟩

theorem join_append_append (front : List Text) (last ending : Text) :
    join (front ++ [last]) ++ ending = join (front ++ [last ++ ending]) := by
  by_cases none : front = []
  · simp [none]
  · simp [join_concat none]

theorem split_join {parts : List Text} (ne : parts ≠ []) (h : ∀ part ∈ parts, Unbroken part) :
    split (join parts) = parts := by
  induction parts with
  | nil => exact absurd rfl ne
  | cons first rest ih =>
    have hfirst : split first = [first] := split_of_unbroken (h first (by simp))
    cases rest with
    | nil => simpa using hfirst
    | cons second rest =>
      rw [join_cons_cons, split_append_slash, hfirst,
        ih (by simp) fun part hp => h part (by simp [hp])]
      rfl

/-- A path with slashes only is its components joined. -/
theorem join_split {path : Text} (slashes : '\\' ∉ path) : join (split path) = path := by
  induction path with
  | nil => rfl
  | cons c cs ih =>
    obtain ⟨first, rest, hcs⟩ := List.exists_cons_of_ne_nil (split_ne_nil cs)
    have joined : join (first :: rest) = cs := by
      rw [← hcs]
      exact ih fun mem => slashes (by simp [mem])
    by_cases hc : isSeparator c = true
    · obtain rfl : c = '/' := by
        have backslash : c ≠ '\\' := fun e => slashes (by simp [e])
        simpa [isSeparator, backslash] using hc
      rw [split_cons_of_separator rfl, hcs, join_cons_cons, joined]
      rfl
    · simp only [split, hc, hcs, Bool.false_eq_true, if_false]
      rw [← joined]
      cases rest with
      | nil => simp
      | cons second rest =>
        rw [join_cons_cons, join_cons_cons]
        rfl

/-- What stands before the last component of a path stays what it is when the path goes on. -/
theorem dropLast_split_isPrefix (p q : Text) : (split p).dropLast <+: (split (p ++ q)).dropLast := by
  induction p with
  | nil => exact List.nil_prefix
  | cons c p ih =>
    obtain ⟨first, rest, hp⟩ := List.exists_cons_of_ne_nil (split_ne_nil p)
    obtain ⟨first', rest', hpq⟩ := List.exists_cons_of_ne_nil (split_ne_nil (p ++ q))
    rw [hp, hpq] at ih
    by_cases hc : isSeparator c = true
    · simpa [split_cons_of_separator hc, hp, hpq] using ih
    · simp only [List.cons_append, split, hc, hp, hpq, Bool.false_eq_true, if_false]
      cases rest with
      | nil => exact List.nil_prefix
      | cons second rest =>
        cases rest' with
        | nil => simp at ih
        | cons second' rest' =>
          simp only [List.dropLast_cons_cons, List.cons_prefix_cons] at ih ⊢
          exact ⟨by rw [ih.1], ih.2⟩

/-! ## Names -/

/-- Whether a component names something. -/
def isName (component : Text) : Bool :=
  !component.isEmpty && component ≠ here

/-- The components of a path that name something, `..` among them. -/
def names (path : Text) : List Text :=
  (split path).filter isName

theorem isName_iff {component : Text} : isName component = true ↔ component ≠ [] ∧ component ≠ here := by
  simp [isName]

@[simp] theorem names_nil : names [] = [] := rfl

theorem names_append_slash (p q : Text) : names (p ++ '/' :: q) = names p ++ names q := by
  simp [names, split_append_slash]

@[simp] theorem names_slash (path : Text) : names ('/' :: path) = names path :=
  names_append_slash [] path

@[simp] theorem names_here_slash (path : Text) : names ('.' :: '/' :: path) = names path :=
  names_append_slash here path

@[simp] theorem names_up_slash (path : Text) : names ('.' :: '.' :: '/' :: path) = up :: names path :=
  names_append_slash up path

theorem names_of_unbroken {text : Text} (h : Unbroken text) (name : isName text = true) :
    names text = [text] := by
  simp [names, split_of_unbroken h, name]

theorem unbroken_of_mem_names {path name : Text} (h : name ∈ names path) : Unbroken name :=
  unbroken_of_mem_split (List.mem_filter.mp h).1

/-- The names of joined names are these names. -/
theorem names_join {parts : List Text} (unbroken : ∀ part ∈ parts, Unbroken part)
    (name : ∀ part ∈ parts, isName part = true) : names (join parts) = parts := by
  cases parts with
  | nil => rfl
  | cons first rest =>
    rw [names, split_join (by simp) unbroken]
    exact List.filter_eq_self.mpr name

theorem names_closeUp (path : Text) : names (closeUp path) = names path := by
  unfold closeUp
  split
  · simpa using names_append_slash path []
  · rfl

/-! ## Resolving -/

theorem resolveComponent_of_not_isName {component : Text} (h : isName component = false)
    (absolute : Bool) (stack : List Text) : resolveComponent absolute stack component = stack := by
  have none : component = [] ∨ component = here := by
    by_cases hc : component = []
    · exact .inl hc
    · simpa [isName, hc] using h
  rcases none with rfl | rfl <;> rfl

theorem resolveComponent_of_name {component : Text} (h : isName component = true)
    (down : component ≠ up) (absolute : Bool) (stack : List Text) :
    resolveComponent absolute stack component = component :: stack := by
  obtain ⟨h₁, h₂⟩ := isName_iff.mp h
  simp [resolveComponent, down, h₁, h₂]

/-- Only names count. -/
theorem foldl_resolveComponent_filter (absolute : Bool) (components stack : List Text) :
    (components.filter isName).foldl (resolveComponent absolute) stack =
      components.foldl (resolveComponent absolute) stack := by
  induction components generalizing stack with
  | nil => rfl
  | cons c cs ih =>
    cases hc : isName c with
    | true => simp [hc, ih]
    | false => simp [hc, ih, resolveComponent_of_not_isName hc]

theorem resolve_split (absolute : Bool) (path : Text) :
    resolve absolute (split path) = resolve absolute (names path) := by
  simp only [resolve, names, foldl_resolveComponent_filter]

theorem resolve_append_name {name : Text} (h : isName name = true) (down : name ≠ up)
    (absolute : Bool) (components : List Text) :
    resolve absolute (components ++ [name]) = resolve absolute components ++ [name] := by
  simp [resolve, resolveComponent_of_name h down]

/-- Names without a `..` are resolved already. -/
theorem foldl_resolveComponent_of_down {components : List Text}
    (h : ∀ c ∈ components, isName c = true ∧ c ≠ up) (absolute : Bool) (stack : List Text) :
    components.foldl (resolveComponent absolute) stack = components.reverse ++ stack := by
  induction components generalizing stack with
  | nil => rfl
  | cons c cs ih =>
    obtain ⟨hc, down⟩ := h c (by simp)
    rw [List.foldl_cons, resolveComponent_of_name hc down, ih fun d hd => h d (by simp [hd])]
    simp

theorem resolve_of_down {components : List Text} (h : ∀ c ∈ components, isName c = true ∧ c ≠ up)
    (absolute : Bool) : resolve absolute components = components := by
  simp [resolve, foldl_resolveComponent_of_down h]

/-- One more name is one more to be found there. -/
theorem down_concat {components : List Text} {name : Text}
    (h : ∀ c ∈ components, isName c = true ∧ c ≠ up) (isName : isName name = true) (down : name ≠ up) :
    ∀ c ∈ components ++ [name], Path.isName c = true ∧ c ≠ up := by
  intro c mem
  rcases List.mem_append.mp mem with mem | mem
  · exact h c mem
  · rw [List.mem_singleton.mp mem]
    exact ⟨isName, down⟩

/-- Behind names without a `..`, one takes the last of them away, wherever they start. -/
theorem resolve_up {components : List Text} (down : ∀ c ∈ components, isName c = true ∧ c ≠ up)
    (ne : components ≠ []) (absolute : Bool) :
    resolve absolute (components ++ [up]) = components.dropLast := by
  obtain ⟨front, last, eq⟩ := (List.eq_nil_or_concat components).resolve_left ne
  rw [List.concat_eq_append] at eq
  subst eq
  have other : last ≠ up := (down last (by simp)).2
  rw [resolve, List.foldl_append, foldl_resolveComponent_of_down down]
  simp [resolveComponent, other]

/-- From the root, a `..` behind nothing leads nowhere else. -/
theorem resolve_true_up {components : List Text}
    (h : ∀ c ∈ components, isName c = true ∧ c ≠ up) :
    resolve true (components ++ [up]) = components.dropLast := by
  by_cases none : components = []
  · rw [none]
    rfl
  · exact resolve_up h none true

/-- What is resolved are some of the components. -/
theorem mem_of_mem_foldl {absolute : Bool} {components stack : List Text} {name : Text}
    (h : name ∈ components.foldl (resolveComponent absolute) stack) :
    name ∈ stack ∨ (name ∈ components ∧ isName name = true) := by
  induction components generalizing stack with
  | nil => exact .inl h
  | cons c cs ih =>
    rcases ih h with h | ⟨hm, hn⟩
    · by_cases hc : isName c = true
      · by_cases hu : c = up
        · subst hu
          cases stack with
          | nil => cases absolute <;> simp_all [resolveComponent]
          | cons top below =>
            simp only [resolveComponent, if_true] at h
            split at h
            · rcases List.mem_cons.mp h with rfl | h
              · exact .inr ⟨by simp, hc⟩
              · exact .inl h
            · exact .inl (List.mem_cons_of_mem _ h)
        · rw [resolveComponent_of_name hc hu] at h
          rcases List.mem_cons.mp h with rfl | h
          · exact .inr ⟨by simp, hc⟩
          · exact .inl h
      · rw [resolveComponent_of_not_isName (by simpa using hc)] at h
        exact .inl h
    · exact .inr ⟨List.mem_cons_of_mem _ hm, hn⟩

theorem mem_of_mem_resolve {absolute : Bool} {components : List Text} {name : Text}
    (h : name ∈ resolve absolute components) : name ∈ components ∧ isName name = true := by
  have := mem_of_mem_foldl (List.mem_reverse.mp h)
  simpa using this

/-! ## From the root and from somewhere else -/

/-- The two stacks side by side: from somewhere else there are `..` below, from the root there are
none. -/
theorem foldl_resolveComponent_climb (components : List Text) :
    ∀ (stack : List Text) (climbs : Nat), up ∉ stack →
      up ∉ components.foldl (resolveComponent true) stack ∧
      ∃ more, climbs ≤ more ∧
        components.foldl (resolveComponent false) (stack ++ List.replicate climbs up) =
          components.foldl (resolveComponent true) stack ++ List.replicate more up := by
  induction components with
  | nil => exact fun stack climbs h => ⟨h, climbs, Nat.le_refl _, rfl⟩
  | cons c cs ih =>
    intro stack climbs h
    by_cases hc : isName c = true
    · by_cases hu : c = up
      · subst hu
        cases stack with
        | nil =>
          have grow : resolveComponent false (List.replicate climbs up) up =
              [] ++ List.replicate (climbs + 1) up := by
            cases climbs <;> simp [resolveComponent, List.replicate_succ]
          obtain ⟨h₁, more, hle, h₂⟩ := ih [] (climbs + 1) (by simp)
          refine ⟨h₁, more, by omega, ?_⟩
          rw [List.foldl_cons, List.nil_append, grow, h₂]
          rfl
        | cons top below =>
          simp only [List.mem_cons, not_or] at h
          have top_ne : top ≠ up := fun e => h.1 e.symm
          simpa [resolveComponent, top_ne] using ih below climbs h.2
      · simp only [List.foldl_cons, resolveComponent_of_name hc hu]
        exact ih (c :: stack) climbs (by simp [h, Ne.symm hu])
    · have skip := resolveComponent_of_not_isName (by simpa using hc : isName c = false)
      simpa [skip] using ih stack climbs h

theorem up_notMem_resolve_true (components : List Text) : up ∉ resolve true components := by
  simpa [resolve] using (foldl_resolveComponent_climb components [] 0 (by simp)).1

/-- Resolved from somewhere else, the names that are left from the root stand behind the `..` that
lead above the start. -/
theorem resolve_false_eq (components : List Text) :
    ∃ climbs, resolve false components = List.replicate climbs up ++ resolve true components := by
  obtain ⟨-, climbs, -, h⟩ := foldl_resolveComponent_climb components [] 0 (by simp)
  exact ⟨climbs, by simpa [resolve] using congrArg List.reverse h⟩

/-- A path that does not lead above its start comes to the same names from the root. -/
theorem resolve_false_of_notMem {components : List Text} (h : up ∉ resolve false components) :
    resolve false components = resolve true components := by
  obtain ⟨climbs, eq⟩ := resolve_false_eq components
  cases climbs with
  | zero => simpa using eq
  | succ n => exact absurd (by simp [eq, List.replicate_succ]) h

theorem head?_resolve_false (components : List Text) :
    (resolve false components).head? = some up ↔ up ∈ resolve false components := by
  obtain ⟨climbs, eq⟩ := resolve_false_eq components
  cases climbs with
  | zero =>
    have none := up_notMem_resolve_true components
    simp only [List.replicate_zero, List.nil_append] at eq
    rw [eq]
    exact ⟨fun h => List.mem_of_mem_head? (by simp [h]), fun h => absurd h none⟩
  | succ n => simp [eq, List.replicate_succ]

/-- A path that starts with `..` leads above its start, whatever follows. -/
theorem up_mem_resolve_false_up (components : List Text) :
    up ∈ resolve false (up :: components) := by
  obtain ⟨-, climbs, hle, h⟩ := foldl_resolveComponent_climb components [] 1 (by simp)
  have start : resolveComponent false [] up = [] ++ List.replicate 1 up := by simp [resolveComponent]
  cases climbs with
  | zero => omega
  | succ n => rw [resolve, List.foldl_cons, start, h]; simp

/-- What was resolved by itself leads where the components lead, from wherever one is: only a name goes
with the `..` behind it, and the `..` that are left still lead up from there. -/
theorem foldl_resolve_false (absolute : Bool) (components stack : List Text) :
    (resolve false components).foldl (resolveComponent absolute) stack =
      components.foldl (resolveComponent absolute) stack := by
  -- On the components from the end: the last one meets what the others were resolved to.
  induction components using List.reverseRecOn generalizing stack with
  | nil => rfl
  | append_singleton front last ih =>
    simp only [resolve] at ih
    have resolved : resolve false (front ++ [last]) =
        (resolveComponent false (front.foldl (resolveComponent false) []) last).reverse := by
      simp [resolve]
    rw [resolved, List.foldl_append, List.foldl_cons, List.foldl_nil, ← ih]
    by_cases name : isName last = true
    · by_cases climbs : last = up
      · subst climbs
        cases taken : front.foldl (resolveComponent false) [] with
        | nil => rfl
        | cons top below =>
          by_cases topUp : top = up
          · simp [resolveComponent, topUp]
          · have topName : isName top = true := by
              have mem : top ∈ resolve false front := by simp [resolve, taken]
              exact (mem_of_mem_resolve mem).2
            have back : ∀ stack, resolveComponent absolute (top :: stack) up = stack := fun stack => by
              simp [resolveComponent, topUp]
            simp [resolveComponent_of_name topName topUp, back,
              show resolveComponent false (top :: below) up = below by simp [resolveComponent, topUp]]
      · simp [resolveComponent_of_name name climbs]
    · have skip := resolveComponent_of_not_isName (by simpa using name : isName last = false)
      rw [skip, skip]

theorem resolve_append_resolve_false (absolute : Bool) (start more : List Text) :
    resolve absolute (start ++ resolve false more) = resolve absolute (start ++ more) := by
  rw [resolve, List.foldl_append, foldl_resolve_false, ← List.foldl_append]
  rfl

/-- From the root, resolving what was resolved from somewhere else changes no more than resolving from
the root at once. -/
theorem resolve_true_resolve_false (components : List Text) :
    resolve true (resolve false components) = resolve true components :=
  resolve_append_resolve_false true [] components

end ScriptHost.Path

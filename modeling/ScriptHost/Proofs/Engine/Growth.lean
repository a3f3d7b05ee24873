/-
Lists that only grow: an entry stays in its place, and is followed there by what may follow it
(`Grows`). The engine keeps references and objects in such lists, where an entry may fade: it is gone from
some time on, or shows the same as before (`Fades`).
-/
import Mathlib.Order.Defs.Unbundled

namespace ScriptHost

/-! ## Growing -/

/-- What stood in a list is followed in its place, and what was added is fresh. -/
structure Grows {α : Type} (follows : α → α → Prop) (fresh : α → Prop) (l l' : List α) : Prop where
  old : ∀ {i : Nat} {a : α}, l[i]? = some a → ∃ b, l'[i]? = some b ∧ follows a b
  new : ∀ {i : Nat} {b : α}, l.length ≤ i → l'[i]? = some b → fresh b

namespace Grows

variable {α : Type} {follows : α → α → Prop} {fresh : α → Prop} {l l' l'' : List α}

theorem length_le (grown : Grows follows fresh l l') : l.length ≤ l'.length := by
  rcases Nat.lt_or_ge l'.length l.length with shorter | atLeast
  · obtain ⟨b, there, -⟩ := grown.old (List.getElem?_eq_getElem shorter)
    exact absurd (List.getElem?_eq_some_iff.mp there).1 (Nat.lt_irrefl _)
  · exact atLeast

/-- What stands in the longer list is fresh, or follows what stood there. -/
theorem before (grown : Grows follows fresh l l') {i : Nat} {b : α} (there : l'[i]? = some b) :
    (∃ a, l[i]? = some a ∧ follows a b) ∨ l.length ≤ i ∧ fresh b := by
  rcases Nat.lt_or_ge i l.length with bound | beyond
  · obtain ⟨b', there', followed⟩ := grown.old (List.getElem?_eq_getElem bound)
    rw [there] at there'
    obtain rfl := Option.some.inj there'
    exact .inl ⟨_, List.getElem?_eq_getElem bound, followed⟩
  · exact .inr ⟨beyond, grown.new beyond there⟩

/-- What is seen of an entry, and of a place without one, is the same everywhere. -/
theorem elim_eq {β : Type} {look : α → β} {missing : β} (grown : Grows follows fresh l l')
    (same : ∀ {a b}, follows a b → look b = look a) (new : ∀ {b}, fresh b → look b = missing) (i : Nat) :
    (l'[i]?).elim missing look = (l[i]?).elim missing look := by
  cases there : l'[i]? with
  | none =>
    have beyond := Nat.le_trans grown.length_le (List.getElem?_eq_none_iff.mp there)
    rw [List.getElem?_eq_none beyond]
  | some b =>
    rcases grown.before there with ⟨a, old, followed⟩ | ⟨beyond, isFresh⟩
    · rw [old]
      exact same followed
    · rw [List.getElem?_eq_none beyond]
      exact new isFresh

theorem trans [IsTrans α follows] (kept : ∀ {a b}, fresh a → follows a b → fresh b)
    (first : Grows follows fresh l l') (second : Grows follows fresh l' l'') :
    Grows follows fresh l l'' := by
  refine ⟨fun {i a} there => ?_, fun {i c} beyond there => ?_⟩
  · obtain ⟨b, there', followed⟩ := first.old there
    obtain ⟨c, there'', followed'⟩ := second.old there'
    exact ⟨c, there'', IsTrans.trans a b c followed followed'⟩
  · rcases second.before there with ⟨b, there', followed⟩ | ⟨-, isFresh⟩
    · exact kept (first.new beyond there') followed
    · exact isFresh

theorem mapIdx {f : Nat → α → α} (followed : ∀ i a, l[i]? = some a → follows a (f i a)) :
    Grows follows fresh l (l.mapIdx f) := by
  refine ⟨fun {i a} there => ⟨f i a, ?_, followed i a there⟩, fun {i b} beyond there => ?_⟩
  · rw [List.getElem?_mapIdx, there, Option.map_some]
  · rw [List.getElem?_mapIdx, List.getElem?_eq_none beyond] at there
    cases there

/-- An entry that is changed before a list grows, and changed again after it. -/
theorem around {i : Nat} {f g : α → α} (during : Grows follows fresh (l.modify i f) l')
    (bound : i < l.length) (back : ∀ a b, follows (f a) b → follows a (g b)) :
    Grows follows fresh l (l'.modify i g) := by
  refine ⟨fun {j a} there => ?_, fun {j b} beyond there => ?_⟩
  · have before : (l.modify i f)[j]? = some (if i = j then f a else a) := by
      rw [List.getElem?_modify, there]
      split <;> rfl
    obtain ⟨b, there', followed⟩ := during.old before
    refine ⟨if i = j then g b else b, ?_, ?_⟩
    · rw [List.getElem?_modify, there']
      split <;> rfl
    · split at followed
      · next same =>
        rw [if_pos same]
        exact back a b followed
      · next other =>
        rw [if_neg other]
        exact followed
  · have other : i ≠ j := by
      rintro rfl
      exact absurd bound (Nat.not_lt.mpr beyond)
    refine during.new (by rwa [List.length_modify]) (i := j) ?_
    simpa [List.getElem?_modify, other] using there

variable [Std.Refl follows]

theorem refl (l : List α) : Grows follows fresh l l := by
  refine ⟨fun {i a} there => ⟨a, there, Std.Refl.refl a⟩, fun {i b} beyond there => ?_⟩
  rw [List.getElem?_eq_none beyond] at there
  cases there

theorem append (l : List α) {added : List α} (new : ∀ a ∈ added, fresh a) :
    Grows follows fresh l (l ++ added) := by
  refine ⟨fun {i a} there => ⟨a, ?_, Std.Refl.refl a⟩, fun {i b} beyond there => ?_⟩
  · rw [List.getElem?_append_left (List.getElem?_eq_some_iff.mp there).1, there]
  · rw [List.getElem?_append_right beyond] at there
    exact new b (List.mem_of_getElem? there)

theorem set {i : Nat} {a b : α} (there : l[i]? = some a) (followed : follows a b) :
    Grows follows fresh l (l.set i b) := by
  have bound := (List.getElem?_eq_some_iff.mp there).1
  refine ⟨fun {j c} there' => ?_, fun {j c} beyond there' => ?_⟩
  · by_cases same : i = j
    · subst same
      obtain rfl := Option.some.inj (there.symm.trans there')
      exact ⟨b, List.getElem?_set_self bound, followed⟩
    · exact ⟨c, by rw [List.getElem?_set_ne same, there'], Std.Refl.refl c⟩
  · rw [List.getElem?_eq_none (by rwa [List.length_set])] at there'
    cases there'

theorem modify {f : α → α} (followed : ∀ a, follows a (f a)) (i : Nat) :
    Grows follows fresh l (l.modify i f) := by
  refine ⟨fun {j a} there => ?_, fun {j b} beyond there => ?_⟩
  · rw [List.getElem?_modify, there]
    by_cases same : i = j
    · exact ⟨f a, by simp [same], followed a⟩
    · exact ⟨a, by simp [same], Std.Refl.refl a⟩
  · rw [List.getElem?_modify, List.getElem?_eq_none beyond] at there
    cases there

end Grows

/-! ## Fading -/

/-- An entry that is gone, or looks as it did. -/
def Fades {α β : Type} (look : α → β) (x y : Option α) : Prop :=
  y = none ∨ y.map look = x.map look

variable {α β : Type} {look : α → β}

instance : IsPreorder (Option α) (Fades look) where
  refl _ := .inr rfl
  trans x y z := by
    rintro (rfl | first) (rfl | second)
    · exact .inl rfl
    · exact .inl (Option.map_eq_none_iff.mp second)
    · exact .inl rfl
    · exact .inr (second.trans first)

/-- What is gone does not come back. -/
theorem Fades.eq_none {y : Option α} (faded : Fades look none y) : y = none :=
  faded.elim id fun same => Option.map_eq_none_iff.mp same

/-- What is still there looks as it did. -/
theorem Fades.of_some {x : Option α} {b : α} (faded : Fades look x (some b)) :
    ∃ a, x = some a ∧ look a = look b := by
  rcases faded with gone | same
  · cases gone
  · exact Option.map_eq_some_iff.mp same.symm

namespace Grows

variable {fresh : Option α → Prop} {l l' : List (Option α)} {i : Nat}

/-- What was there and still is looks as it did. -/
theorem of_live (grown : Grows (Fades look) fresh l l') {a : α} (there : (l[i]?).join = some a)
    (live : (l'[i]?).join ≠ none) : ∃ b, (l'[i]?).join = some b ∧ look b = look a := by
  obtain ⟨b, still⟩ := Option.ne_none_iff_exists'.mp live
  obtain ⟨x, stands, faded⟩ := grown.old (Option.join_eq_some_iff.mp there)
  rw [Option.join_eq_some_iff.mp still] at stands
  obtain rfl := Option.some.inj stands
  obtain ⟨a', same, look⟩ := faded.of_some
  obtain rfl := Option.some.inj same
  exact ⟨b, still, look.symm⟩

/-- What is gone stays gone. -/
theorem of_gone (grown : Grows (Fades look) fresh l l') (known : i < l.length) (gone : (l[i]?).join = none) :
    (l'[i]?).join = none := by
  have found := List.getElem?_eq_getElem known
  rw [found, Option.join_some] at gone
  obtain ⟨x, there, faded⟩ := grown.old found
  rw [gone] at faded
  rw [there, faded.eq_none, Option.join_some]

end Grows

end ScriptHost

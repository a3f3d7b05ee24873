/-
What stays where it is while rows of pointers grow. An allocation leaves all that was there before; a row that
is pushed to writes its own block or moves to a vacant address, so whatever lies elsewhere can still be reached
by the pointers to it (`Memory.Confined`). Sets of addresses say which blocks a step may write, as it is done
for heaps in separation logic: steps follow one another (`Confined.trans`), and what a step does not know of
can be put beside it (`Confined.frame`).
-/
import ScriptHost.Memory
import Mathlib.Data.Set.Insert
import Mathlib.Data.Set.Lattice
import Mathlib.Logic.Relation
import Mathlib.Order.CompletePartialOrder

namespace ScriptHost

namespace Memory

variable {m m' m'' : Memory} {a b : Address}

/-! ## Single blocks -/

theorem vacant_le (m : Memory) : m.vacant.number ≤ m.blocks.length :=
  List.findIdx_le_length

/-- Nothing is at the address that is given out. -/
theorem block?_vacant (m : Memory) : m.block? m.vacant = none := by
  rw [block?]
  by_cases inside : m.vacant.number < m.blocks.length
  · have free : m.blocks[m.vacant.number].isNone := List.findIdx_getElem
    rw [List.getElem?_eq_getElem inside, Option.join_some]
    exact Option.isNone_iff_eq_none.mp free
  · rw [List.getElem?_eq_none (by omega), Option.join_none]

theorem block?_grown_vacant (m : Memory) (block : Block) : (m.grown block).block? m.vacant = some block := by
  have bound := m.vacant_le
  rw [grown, block?]
  split
  · next inside => simp [inside]
  · next outside =>
    have last : m.vacant.number = m.blocks.length := by omega
    simp [last]

theorem block?_grown_of_ne (block : Block) (other : a ≠ m.vacant) : (m.grown block).block? a = m.block? a := by
  have apart : a.number ≠ m.vacant.number := fun same => other (congrArg Address.mk same)
  have bound := m.vacant_le
  rw [grown, block?, block?]
  split
  · rw [List.getElem?_set_ne apart.symm]
  · next outside =>
    rw [List.getElem?_append]
    split
    · rfl
    · rw [List.getElem?_eq_none (by simp; omega), List.getElem?_eq_none (by omega)]

/-- A new block leaves those that are there. -/
theorem block?_grown_of_live (block : Block) (live : m.block? a ≠ none) :
    (m.grown block).block? a = m.block? a :=
  block?_grown_of_ne block fun vacant => live (vacant ▸ m.block?_vacant)

theorem block?_changed (block : Option Block) (live : m.block? a ≠ none) : (m.changed a block).block? a = block := by
  have inside : a.number < m.blocks.length := by
    refine Nat.lt_of_not_le fun outside => live ?_
    rw [block?, List.getElem?_eq_none outside, Option.join_none]
  rw [changed, block?, List.getElem?_set_self inside, Option.join_some]

theorem block?_changed_of_ne (block : Option Block) (other : b ≠ a) : (m.changed a block).block? b = m.block? b := by
  have apart : a.number ≠ b.number := fun same => other (congrArg Address.mk same.symm)
  rw [changed, block?, block?, List.getElem?_set_ne apart]

theorem text?_eq_some {s : CString} : m.text? a = some s ↔ m.block? a = some (.text s) := by
  rw [text?]
  split <;> simp_all

/-- A text stays if its block does. -/
theorem text?_of_block? {s : CString} (same : m.block? a ≠ none → m'.block? a = m.block? a)
    (there : m.text? a = some s) : m'.text? a = some s := by
  rw [text?_eq_some] at there ⊢
  rw [same (by simp [there]), there]

theorem row?_eq_some {row : List Address} : m.row? a = some row ↔ m.block? a = some (.pointers row) := by
  rw [row?]
  split <;> simp_all

/-! ## Steps and what they may write -/

/-- From one memory to the next only the blocks of `before` may change, and those of `after` are blocks of
`before` or were vacant. -/
structure Confined (before after : Set Address) (m m' : Memory) : Prop where
  spares : ∀ a, a ∉ before → m.block? a ≠ none → m'.block? a = m.block? a
  fresh : ∀ a ∈ after, a ∉ before → m.block? a = none

namespace Confined

variable {before between after : Set Address}

theorem refl (before : Set Address) (m : Memory) : Confined before before m m :=
  ⟨fun _ _ _ => rfl, fun _ inside outside => absurd inside outside⟩

/-- A block that was there and may not be written is none that the step comes to own. -/
theorem not_mem (step : Confined before after m m') (outside : a ∉ before) (live : m.block? a ≠ none) :
    a ∉ after :=
  fun inside => live (step.fresh a inside outside)

theorem trans (first : Confined before between m m') (next : Confined between after m' m'') :
    Confined before after m m'' := by
  have kept : ∀ a, a ∉ before → m.block? a ≠ none → a ∉ between ∧ m'.block? a = m.block? a :=
    fun a outside live => ⟨first.not_mem outside live, first.spares a outside live⟩
  refine ⟨fun a outside live => ?_, fun a inside outside => ?_⟩
  · obtain ⟨apart, same⟩ := kept a outside live
    rw [next.spares a apart (same ▸ live), same]
  · refine Decidable.byContradiction fun live => ?_
    obtain ⟨apart, same⟩ := kept a outside live
    exact live (same ▸ next.fresh a inside apart)

/-- What a step does not know of can be put beside it. -/
theorem frame (step : Confined before after m m') (beside : Set Address) :
    Confined (before ∪ beside) (after ∪ beside) m m' := by
  refine ⟨fun a outside live => ?_, fun a inside outside => ?_⟩
  · exact step.spares a (fun inside => outside (.inl inside)) live
  · obtain new | old := inside
    · exact step.fresh a new fun inside => outside (.inl inside)
    · exact absurd (.inr old) outside

theorem mono {fewer : Set Address} (step : Confined before after m m') (part : fewer ⊆ after) :
    Confined before fewer m m' :=
  ⟨step.spares, fun a inside => step.fresh a (part inside)⟩

/-- Texts stay that are in none of the blocks that may be written. -/
theorem text? (step : Confined before after m m') {s : CString} (outside : a ∉ before)
    (there : m.text? a = some s) : m'.text? a = some s :=
  text?_of_block? (step.spares a outside) there

end Confined

theorem confined_grown (m : Memory) (block : Block) : Confined ∅ {m.vacant} m (m.grown block) := by
  refine ⟨fun a _ live => block?_grown_of_live block live, fun a new _ => ?_⟩
  rw [Set.mem_singleton_iff.mp new, m.block?_vacant]

theorem confined_changed (m : Memory) (a : Address) (block : Option Block) : Confined {a} {a} m (m.changed a block) :=
  ⟨fun _ outside _ => block?_changed_of_ne block outside, fun _ inside outside => absurd inside outside⟩

/-! ## The rest of the program -/

/-- What the rest of a program can do while some blocks belong to somebody else. -/
inductive Elsewhere (owned : List Address) (m : Memory) : Memory → Prop
  | allocate (block : Block) : Elsewhere owned m (m.grown block)
  | change (a : Address) (block : Option Block) (other : a ∉ owned) : Elsewhere owned m (m.changed a block)

theorem Elsewhere.block? {owned : List Address} (step : Elsewhere owned m m') (ours : a ∈ owned)
    (live : m.block? a ≠ none) : m'.block? a = m.block? a := by
  cases step with
  | allocate block => exact block?_grown_of_live block live
  | change b block other => exact block?_changed_of_ne block fun same => other (same ▸ ours)

/-- Blocks that belong to somebody else stay, whatever is done. -/
theorem block?_of_elsewhere {owned : List Address} (steps : Relation.ReflTransGen (Elsewhere owned) m m')
    (ours : a ∈ owned) (live : m.block? a ≠ none) : m'.block? a = m.block? a := by
  induction steps with
  | refl => rfl
  | tail _ step ih => rw [step.block? ours (ih ▸ live), ih]

end Memory

namespace Row

variable {m m' : Memory} {r : Row} {pointers : List Address} {a : Address}

/-- The block of a row, if it has one. -/
def blocks (r : Row) : Set Address :=
  {a | r.block = some a}

/-- The pointers that a row holds are those in its block. -/
structure Holds (r : Row) (pointers : List Address) (m : Memory) : Prop where
  length : r.length = pointers.length
  stored : ∀ b, r.block = some b → m.row? b = some pointers
  bare : r.block = none → pointers = []

theorem holds_empty (m : Memory) : Holds {} [] m :=
  ⟨rfl, fun _ same => (nomatch same), fun _ => rfl⟩

theorem Holds.contents (holds : r.Holds pointers m) : r.contents m = pointers := by
  rw [Row.contents]
  cases place : r.block with
  | none => rw [Option.bind_none, holds.bare place, Option.getD_none]
  | some b => rw [Option.bind_some, holds.stored b place, Option.getD_some]

/-- No text is in the block of a row. -/
theorem Holds.not_text (holds : r.Holds pointers m) {s : CString} (there : m.text? a = some s) : a ∉ r.blocks := by
  intro inside
  have row := Memory.row?_eq_some.mp (holds.stored a inside)
  rw [Memory.text?_eq_some.mp there] at row
  exact Block.noConfusion (Option.some.inj row)

theorem Holds.live (holds : r.Holds pointers m) (inside : a ∈ r.blocks) : m.block? a ≠ none := by
  simp [Memory.row?_eq_some.mp (holds.stored a inside)]

/-- A row stays as it is if its block does. -/
theorem Holds.of_block? (holds : r.Holds pointers m) (same : ∀ a ∈ r.blocks, m'.block? a = m.block? a) :
    r.Holds pointers m' := by
  refine ⟨holds.length, fun b place => ?_, holds.bare⟩
  rw [Memory.row?_eq_some, same b place, ← Memory.row?_eq_some, holds.stored b place]

/-- A row stays as it is in a step that may not write its block. -/
theorem Holds.of_confined {before after : Set Address} (holds : r.Holds pointers m)
    (step : Memory.Confined before after m m') (apart : Disjoint before r.blocks) : r.Holds pointers m' :=
  holds.of_block? fun _ inside => step.spares _ (fun written => Set.disjoint_left.mp apart written inside) (holds.live inside)

/-- What a step comes to own is apart from a row that it may not write. -/
theorem Holds.disjoint {before after : Set Address} (holds : r.Holds pointers m)
    (step : Memory.Confined before after m m') (apart : Disjoint before r.blocks) : Disjoint after r.blocks :=
  Set.disjoint_right.mpr fun _ inside => step.not_mem (Set.disjoint_right.mp apart inside) (holds.live inside)

theorem withRoom_spec (room : Nat) (m : Memory) :
    ((withRoom room).run m).1.Holds [] ((withRoom room).run m).2 ∧
      Memory.Confined ∅ ((withRoom room).run m).1.blocks m ((withRoom room).run m).2 := by
  cases room with
  | zero => exact ⟨holds_empty m, fun _ _ _ => rfl, fun _ inside => (nomatch inside)⟩
  | succ room =>
    have run : (withRoom (room + 1)).run m = ({ block := some m.vacant, room := room + 1 }, m.grown (.pointers [])) := rfl
    rw [run]
    refine ⟨⟨rfl, fun b place => ?_, fun none => (nomatch none)⟩, (m.confined_grown _).mono fun b place => ?_⟩
    · rw [← Option.some.inj place, Memory.row?_eq_some, m.block?_grown_vacant]
    · exact (Option.some.inj place).symm

theorem push_run (r : Row) (a : Address) (m : Memory) :
    (r.push a).run m =
      match r.block with
      | none => (⟨some m.vacant, max leastRoom (2 * r.room), r.length + 1⟩, m.grown (.pointers (r.contents m ++ [a])))
      | some b =>
        if r.length < r.room then
          ({ r with length := r.length + 1 }, m.changed b (some (.pointers (r.contents m ++ [a]))))
        else
          (⟨some m.vacant, max leastRoom (2 * r.room), r.length + 1⟩,
            (m.grown (.pointers (r.contents m ++ [a]))).changed b none) := by
  obtain ⟨block, room, length⟩ := r
  cases block with
  | none => rfl
  | some b =>
    by_cases fits : length < room
    · simp only [push, StateT.run_bind, StateT.run_get, if_pos fits]
      rfl
    · simp only [push, StateT.run_bind, StateT.run_get, if_neg fits]
      rfl

/-- A row that is pushed to holds one pointer more, where it was or at a vacant address. -/
theorem push_spec (holds : r.Holds pointers m) (a : Address) :
    ((r.push a).run m).1.Holds (pointers ++ [a]) ((r.push a).run m).2 ∧
      Memory.Confined r.blocks ((r.push a).run m).1.blocks m ((r.push a).run m).2 := by
  have count : r.length + 1 = (pointers ++ [a]).length := by simp [holds.length]
  -- Where the row moves, it is at the vacant address, whatever becomes of its old block.
  have moved : ∀ (m' : Memory) (room : Nat), m'.block? m.vacant = some (.pointers (pointers ++ [a])) →
      Holds ⟨some m.vacant, room, r.length + 1⟩ (pointers ++ [a]) m' := by
    intro m' room there
    refine ⟨count, fun b place => ?_, fun bare => (nomatch bare)⟩
    rw [← Option.some.inj place, Memory.row?_eq_some, there]
  have vacant : blocks ⟨some m.vacant, max leastRoom (2 * r.room), r.length + 1⟩ ⊆ {m.vacant} :=
    fun b place => (Option.some.inj place).symm
  rw [push_run, holds.contents]
  cases place : r.block with
  | none =>
    refine ⟨moved _ _ (m.block?_grown_vacant _), ?_⟩
    have none : r.blocks = ∅ := Set.eq_empty_of_forall_notMem fun b inside => nomatch place.symm.trans inside
    rw [none]
    exact (m.confined_grown _).mono vacant
  | some b =>
    have own : r.blocks = {b} := Set.ext fun c => ⟨fun inside => (Option.some.inj (place.symm.trans inside)).symm,
      fun same => place.trans (congrArg some same.symm)⟩
    have live : m.block? b ≠ none := holds.live place
    rw [own]
    dsimp only
    split
    · refine ⟨⟨count, fun c same => ?_, fun bare => (nomatch bare)⟩, ?_⟩
      · rw [← Option.some.inj same, Memory.row?_eq_some, Memory.block?_changed _ live]
      · exact (m.confined_changed b _).mono fun c same => (Option.some.inj same).symm
    · have other : m.vacant ≠ b := fun same => live (same ▸ m.block?_vacant)
      refine ⟨moved _ _ ?_, ?_⟩
      · rw [Memory.block?_changed_of_ne _ other, m.block?_grown_vacant]
      · -- The row is at a new place before the old block is freed.
        have grown : Memory.Confined {b} ({m.vacant} ∪ {b}) m (m.grown (.pointers (pointers ++ [a]))) := by
          simpa using (m.confined_grown (.pointers (pointers ++ [a]))).frame {b}
        have freed := (((m.grown (.pointers (pointers ++ [a]))).confined_changed b none).frame {m.vacant})
        rw [Set.union_comm] at freed
        exact (grown.trans freed).mono (vacant.trans (Set.subset_union_left))

end Row
end ScriptHost

/-
The entries of a table as a map. What a table should hold is said over all that was written to it, one value
after the other: the latest value under a key (`Entries.latest`), and what remains, in the order of the
writing (`Entries.remaining`). Entries that hold what remains are read as the map (`Entries.Holds.get`), keep
to it when they are written (`Entries.Holds.set`), and are as long as it says (`Entries.Holds.length`).
-/
import ScriptHost.Engine.State
import Mathlib.Data.List.Find
import Mathlib.Data.List.Induction
import Mathlib.Data.List.Nodup
import Mathlib.Data.List.Perm.Subperm

namespace ScriptHost.Entries

/-! ## What was written -/

/-- A value that was written under a key. -/
abbrev Writing := Key × Datum

/-- The value that was written last under a key, nil if none was. -/
def latest (writings : List Writing) (key : Key) : Datum :=
  ((writings.reverse.find? (·.1 = key)).map (·.2)).getD .nil

/-- The writings of a value other than nil under a key that was not written again. -/
def remaining : List Writing → List Writing
  | [] => []
  | first :: later =>
    if first.2 = .nil ∨ first.1 ∈ later.map (·.1) then remaining later else first :: remaining later

@[simp] theorem latest_nil (key : Key) : latest [] key = .nil := rfl

@[simp] theorem latest_concat (writings : List Writing) (key : Key) (value : Datum) (other : Key) :
    latest (writings ++ [(key, value)]) other = if key = other then value else latest writings other := by
  rw [latest, List.reverse_append, List.reverse_singleton, List.singleton_append, List.find?_cons]
  by_cases same : key = other
  · simp [same]
  · simp [same, latest]

theorem remaining_sublist (writings : List Writing) : (remaining writings).Sublist writings := by
  induction writings with
  | nil => exact .slnil
  | cons first later ih =>
    rw [remaining]
    split
    · exact .cons _ ih
    · exact .cons_cons _ ih

/-- A writing replaces what remained under its key, and comes last. -/
theorem remaining_concat (writings : List Writing) (key : Key) (value : Datum) :
    remaining (writings ++ [(key, value)]) =
      (remaining writings).filter (·.1 ≠ key) ++ if value = .nil then [] else [(key, value)] := by
  induction writings with
  | nil => by_cases none : value = .nil <;> simp [remaining, none]
  | cons first later ih =>
    rw [List.cons_append, remaining, ih, remaining]
    by_cases gone : first.2 = .nil ∨ first.1 ∈ later.map (·.1)
    · have gone' : first.2 = .nil ∨ first.1 ∈ (later ++ [(key, value)]).map (·.1) := by
        rw [List.map_append]
        exact gone.imp_right (List.mem_append_left _)
      rw [if_pos gone, if_pos gone']
    · by_cases same : first.1 = key
      · rw [if_neg gone, if_pos (.inr (by simp [same])), List.filter_cons_of_neg (by simp [same])]
      · have stays : ¬ (first.2 = .nil ∨ first.1 ∈ (later ++ [(key, value)]).map (·.1)) := by
          rw [List.map_append, List.mem_append]
          rintro (none | again | last)
          · exact gone (.inl none)
          · exact gone (.inr again)
          · exact same (by simpa using last)
        rw [if_neg gone, if_neg stays, List.filter_cons_of_pos (by simp [same]), List.cons_append]

/-- Under a key remains what was written last, unless that is nil. -/
theorem find?_remaining (writings : List Writing) (key : Key) :
    (((remaining writings).find? (·.1 = key)).map (·.2)).getD .nil = latest writings key := by
  induction writings using List.reverseRecOn with
  | nil => rfl
  | append_singleton writings last ih =>
    obtain ⟨written, value⟩ := last
    rw [remaining_concat, latest_concat, List.find?_append, List.find?_filter]
    simp only [decide_eq_true_eq]
    by_cases same : written = key
    · have none : (remaining writings).find? (fun w => w.1 ≠ written ∧ w.1 = key) = none := by
        simp [List.find?_eq_none, same]
      rw [none, if_pos same, Option.none_or]
      split
      · next isNil => rw [isNil]; rfl
      · simp [same]
    · have others : (remaining writings).find? (fun w => w.1 ≠ written ∧ w.1 = key) =
          (remaining writings).find? (·.1 = key) := by
        refine List.find?_congr fun w _ => ?_
        by_cases here : w.1 = key <;> simp [here, Ne.symm same]
      have last : (if value = .nil then [] else [(written, value)]).find? (·.1 = key) = none := by
        split <;> simp [same]
      rw [others, last, Option.or_none, if_neg same]
      exact ih

/-- No key remains twice. -/
theorem nodup_remaining (writings : List Writing) : ((remaining writings).map (·.1)).Nodup := by
  induction writings with
  | nil => exact .nil
  | cons first later ih =>
    rw [remaining]
    split
    · exact ih
    · next stays =>
      rw [List.map_cons, List.nodup_cons]
      exact ⟨fun again => stays (.inr ((remaining_sublist later).map _ |>.subset again)), ih⟩

theorem mem_remaining_iff {writings : List Writing} {key : Key} {value : Datum} :
    (key, value) ∈ remaining writings ↔ value ≠ .nil ∧ latest writings key = value := by
  induction writings using List.reverseRecOn with
  | nil => simp [remaining, eq_comm]
  | append_singleton writings last ih =>
    obtain ⟨written, value'⟩ := last
    rw [remaining_concat, latest_concat, List.mem_append, List.mem_filter, ih]
    by_cases same : written = key
    · by_cases none : value' = .nil <;> simp +contextual [same, none, eq_comm]
    · by_cases none : value' = .nil <;> simp [same, none, Ne.symm same]

theorem remaining_eq_nil_iff {writings : List Writing} :
    remaining writings = [] ↔ ∀ key, latest writings key = .nil := by
  rw [List.eq_nil_iff_forall_not_mem]
  constructor
  · intro none key
    by_contra some
    exact none (key, latest writings key) (mem_remaining_iff.mpr ⟨some, rfl⟩)
  · rintro none ⟨key, value⟩ mem
    obtain ⟨some, rfl⟩ := mem_remaining_iff.mp mem
    exact some (none key)

/-! ## What entries hold -/

/-- Keys that only match themselves. -/
def Exact (key : Key) : Prop :=
  ∀ bits, key ≠ .number bits

theorem same_eq_of_exact {k k' : Key} (exact' : Exact k) (exact'' : Exact k') : k.same k' = decide (k = k') := by
  cases k with
  | number bits => exact absurd rfl (exact' bits)
  | _ =>
    cases k' with
    | number bits => exact absurd rfl (exact'' bits)
    | _ => rfl

/-- Entries that are what remains of what was written under exact keys. -/
structure Holds (keyOf : Datum → Option Key) (entries : Entries) (writings : List Writing) : Prop where
  keyed : entries.map (fun entry => (keyOf entry.1, entry.2)) =
    (remaining writings).map fun writing => (some writing.1, writing.2)
  areExact : ∀ writing ∈ writings, Exact writing.1

namespace Holds

variable {keyOf : Datum → Option Key} {entries : Entries} {writings : List Writing}

theorem nil : Holds keyOf [] [] :=
  ⟨rfl, nofun⟩

theorem mem_keys (holds : Holds keyOf entries writings) {entry : Datum × Datum} (mem : entry ∈ entries) :
    ∃ k, keyOf entry.1 = some k ∧ Exact k := by
  have there := List.mem_map_of_mem (f := fun entry => (keyOf entry.1, entry.2)) mem
  rw [holds.keyed] at there
  obtain ⟨writing, remains, same⟩ := List.mem_map.mp there
  exact ⟨writing.1, (Prod.mk.inj same).1.symm, holds.areExact _ ((remaining_sublist writings).subset remains)⟩

/-- An entry is under an exact key if it has this key. -/
theorem isUnder_eq (holds : Holds keyOf entries writings) {key : Key} (isExact : Exact key)
    {entry : Datum × Datum} (mem : entry ∈ entries) :
    isUnder keyOf (some key) entry = decide (keyOf entry.1 = some key) := by
  obtain ⟨k, keyed, isExact'⟩ := holds.mem_keys mem
  simp only [isUnder, keyed, same_eq_of_exact isExact' isExact, Option.some.injEq]

/-- A value is read as the map has it. -/
theorem get (holds : Holds keyOf entries writings) {key : Key} (isExact : Exact key) :
    Entries.get keyOf entries (some key) = latest writings key := by
  let view : Datum × Datum → Option Key × Datum := fun entry => (keyOf entry.1, entry.2)
  have found : (entries.find? (isUnder keyOf (some key))).map (·.2) =
      ((entries.map view).find? (·.1 = some key)).map (·.2) := by
    rw [List.find?_congr fun entry mem => holds.isUnder_eq isExact mem, List.find?_map, Option.map_map]
    rfl
  have remains : ((entries.map view).find? (·.1 = some key)).map (·.2) =
      ((remaining writings).find? (·.1 = key)).map (·.2) := by
    rw [holds.keyed, List.find?_map, Option.map_map]
    simp only [Function.comp_def, Option.some.injEq]
  rw [Entries.get, found, remains, find?_remaining]

/-- A value is written as the map has it. -/
theorem set (holds : Holds keyOf entries writings) {key value : Datum} {k : Key} (keyed : keyOf key = some k)
    (isExact : Exact k) : Holds keyOf (Entries.set keyOf entries key value) (writings ++ [(k, value)]) := by
  have others : (entries.filter fun entry => !isUnder keyOf (keyOf key) entry) =
      entries.filter fun entry => keyOf entry.1 ≠ some k :=
    List.filter_congr fun entry mem => by rw [keyed, holds.isUnder_eq isExact mem, decide_not]
  have remain : (entries.filter fun entry => keyOf entry.1 ≠ some k).map
        (fun entry => (keyOf entry.1, entry.2)) =
      ((remaining writings).filter (·.1 ≠ k)).map fun writing => (some writing.1, writing.2) := by
    have split := congrArg (List.filter fun view : Option Key × Datum => view.1 ≠ some k) holds.keyed
    rw [List.filter_map, List.filter_map] at split
    simpa [Function.comp_def] using split
  refine ⟨?_, ?_⟩
  · rw [Entries.set, others, remaining_concat]
    by_cases none : value = .nil
    · rw [if_pos none, if_pos none, List.append_nil, remain]
    · rw [if_neg none, if_neg none, List.map_append, remain, List.map_append, List.map_singleton, keyed]
      rfl
  · intro writing mem
    rcases List.mem_append.mp mem with before | last
    · exact holds.areExact writing before
    · rw [List.mem_singleton.mp last]
      exact isExact

/-! ### Length -/

theorem length_eq (holds : Holds keyOf entries writings) : List.length entries = (remaining writings).length := by
  simpa using congrArg List.length holds.keyed

end Holds

theorem run_le (keyOf : Datum → Option Key) (entries : Entries) (first bound : Nat) :
    run keyOf entries first bound ≤ bound := by
  induction bound generalizing first with
  | zero => exact Nat.le_refl 0
  | succ bound ih =>
    rw [run]
    split
    · exact Nat.zero_le _
    · exact Nat.succ_le_succ (ih (first + 1))

/-- A run reaches as far as the integer keys from its first on have values. -/
theorem le_run_iff {keyOf : Datum → Option Key} {entries : Entries} {bound : Nat} (first : Nat) {n : Nat}
    (le : n ≤ bound) : n ≤ run keyOf entries first bound ↔
      ∀ i < n, Entries.get keyOf entries (some (.integer (.ofNat (first + i)))) ≠ .nil := by
  induction bound generalizing first n with
  | zero => simp [Nat.le_zero.mp le]
  | succ bound ih =>
    cases n with
    | zero => simp
    | succ n =>
      rw [run]
      split
      · next none => exact iff_of_false (Nat.not_succ_le_zero n) fun all => all 0 (Nat.succ_pos n) none
      · next some =>
        rw [Nat.succ_le_succ_iff, ih (first + 1) (Nat.le_of_succ_le_succ le)]
        constructor
        · intro all i small
          cases i with
          | zero => exact some
          | succ i =>
            rw [← Nat.add_assoc, Nat.add_right_comm]
            exact all i (Nat.lt_of_succ_lt_succ small)
        · intro all i small
          rw [Nat.add_right_comm, Nat.add_assoc]
          exact all (i + 1) (Nat.succ_lt_succ small)

theorem ofNat_inj {m n : Nat} (small : m < UInt64.size) (small' : n < UInt64.size)
    (same : Int64.ofNat m = Int64.ofNat n) : m = n := by
  have bits : m % UInt64.size = n % UInt64.size := congrArg (·.toUInt64.toNat) same
  rwa [Nat.mod_eq_of_lt small, Nat.mod_eq_of_lt small'] at bits

namespace Holds

variable {keyOf : Datum → Option Key} {entries : Entries} {writings : List Writing}

/-- Different integer keys that all have values are no more than the entries. -/
theorem le_length_of_present (holds : Holds keyOf entries writings) {n : Nat} (small : n < UInt64.size)
    (present : ∀ i, 1 ≤ i → i ≤ n → latest writings (.integer (.ofNat i)) ≠ .nil) :
    n ≤ List.length entries := by
  let keys := (List.range' 1 n).map fun i => Key.integer (.ofNat i)
  have nodup : keys.Nodup := by
    refine List.Nodup.map_on (fun i mem j mem' same => ?_) List.nodup_range'
    have below := (List.mem_range'_1.mp mem).2
    have below' := (List.mem_range'_1.mp mem').2
    exact ofNat_inj (by omega) (by omega) (Key.integer.inj same)
  have subset : keys ⊆ (remaining writings).map (·.1) := by
    intro key mem
    obtain ⟨i, counted, rfl⟩ := List.mem_map.mp mem
    have bounds := List.mem_range'_1.mp counted
    exact List.mem_map.mpr ⟨_, mem_remaining_iff.mpr ⟨present i (by omega) (by omega), rfl⟩, rfl⟩
  have le := (List.subperm_of_subset nodup subset).length_le
  rwa [List.length_map, List.length_range', List.length_map, ← holds.length_eq] at le

/-- The length is the largest number up to which all integer keys from 1 on have a value. -/
theorem length (holds : Holds keyOf entries writings) {n : Nat} (small : n < UInt64.size) :
    n ≤ Entries.length keyOf entries ↔
      ∀ i, 1 ≤ i → i ≤ n → latest writings (.integer (.ofNat i)) ≠ .nil := by
  have exact' : ∀ i, Exact (.integer (.ofNat i)) := fun _ => nofun
  have shifted : (∀ i < n, Entries.get keyOf entries (some (.integer (.ofNat (1 + i)))) ≠ .nil) ↔
      ∀ i, 1 ≤ i → i ≤ n → latest writings (.integer (.ofNat i)) ≠ .nil := by
    constructor
    · intro all i one le
      have here := all (i - 1) (by omega)
      rwa [holds.get (exact' _), Nat.add_sub_cancel' one] at here
    · intro all i less
      rw [holds.get (exact' _)]
      exact all (1 + i) (Nat.le_add_right 1 i) (by omega)
  by_cases le : n ≤ List.length entries
  · rw [Entries.length, le_run_iff 1 le, shifted]
  · refine iff_of_false (fun reaches => le (reaches.trans (run_le _ _ _ _))) fun present => ?_
    exact le (holds.le_length_of_present small present)

end Holds

end ScriptHost.Entries

/-
What an accessor answers for an argument, and the position that its errors name (`Arguments.takeAt_exact_iff`).
The position is a word that counts from one, so it is the true one for every index but the last word. There
the sum panics, and no accessor has an answer.
-/
import ScriptHost.Value.Arguments

namespace ScriptHost

namespace Accessor

/-- The kinds of values that an accessor takes. -/
def accepts : Accessor → ValueKind → Bool
  | value, _ => true
  | boolean, .boolean => true
  | integer, .integer => true
  | integer, .number => true
  | number, .number => true
  | number, .integer => true
  | string, .string => true
  | table, .table => true
  | function, .function => true
  | userdata, .userdata => true
  | _, _ => false

/-- A value as an accessor hands it on. Only between integers and numbers it is another one. -/
def convert : Accessor → Value → Value
  | integer, .number bits => .integer (Number.toInt bits)
  | number, .integer n => .number (Number.ofInt n)
  | _, v => v

/-- An accessor goes by the kind of a value alone. -/
theorem take?_eq (accessor : Accessor) (v : Value) :
    accessor.take? v = if accessor.accepts v.kind then some (accessor.convert v) else none := by
  cases v with
  | object kind handle => cases accessor <;> cases kind <;> rfl
  | nil => cases accessor <;> rfl
  | boolean b => cases accessor <;> rfl
  | lightUserdata a => cases accessor <;> rfl
  | integer n => cases accessor <;> rfl
  | number bits => cases accessor <;> rfl
  | vector x y z => cases accessor <;> rfl
  | error e => cases accessor <;> rfl
  | other => cases accessor <;> rfl

end Accessor

namespace Arguments

variable {args : Arguments} {accessor : Accessor} {index : UInt64} {v : Value}

/-! ## Positions -/

theorem position_of_lt (below : index.toNat + 1 < UInt64.size) : position index = .ok (index.toNat + 1) :=
  if_pos below

theorem position_of_last (last : ¬ index.toNat + 1 < UInt64.size) :
    position index = .error (.ofPanic .overflow) :=
  if_neg last

/-! ## Answers -/

theorem takeAt_of_none (below : index.toNat + 1 < UInt64.size) (missing : args.length ≤ index.toNat) :
    args.takeAt accessor index = .error (.missingValue (index.toNat + 1) args.length) := by
  rw [takeAt, readAt, valueAt, List.getElem?_eq_none missing, position_of_lt below]
  rfl

theorem takeAt_of_some (below : index.toNat + 1 < UInt64.size) (there : args[index.toNat]? = some v) :
    args.takeAt accessor index =
      if accessor.accepts v.kind then .ok (accessor.convert v)
      else .error (.typeMismatch (index.toNat + 1) accessor.expected v.kind.name) := by
  have found : args.valueAt index = .ok v := by
    rw [valueAt, position_of_lt below, there]
    rfl
  simp only [takeAt, readAt, found, position_of_lt below, bind, Except.bind, accessor.take?_eq]
  cases accessor.accepts v.kind <;> rfl

/-- The position is worked out even where nobody needs it. -/
theorem takeAt_of_last (last : ¬ index.toNat + 1 < UInt64.size) :
    args.takeAt accessor index = .error (.ofPanic .overflow) := by
  rw [takeAt, readAt, valueAt, position_of_last last]
  rfl

/-- The scripts' own accessors are among them. -/
theorem takeAt_integer (args : Arguments) (index : UInt64) :
    args.takeAt .integer index = (args.integerAt index).map .integer := by
  rw [takeAt, integerAt, readAt, readAt]
  cases args.valueAt index with
  | error e => rfl
  | ok v => cases v <;> first | rfl | (cases position index <;> rfl)

theorem takeAt_function (args : Arguments) (index : UInt64) :
    args.takeAt .function index = (args.functionAt index).map (.object .function) := by
  rw [takeAt, functionAt, readAt, readAt]
  cases args.valueAt index with
  | error e => rfl
  | ok v =>
    cases v with
    | object kind handle => cases kind <;> first | rfl | (cases position index <;> rfl)
    | _ => cases position index <;> rfl

/-- What an accessor is to answer: an argument that is missing or of another kind is an error that names its true
position, and every other argument is handed on. -/
structure Exact (args : Arguments) (accessor : Accessor) (index : UInt64) : Prop where
  missing : args.length ≤ index.toNat →
    args.takeAt accessor index = .error (.missingValue (index.toNat + 1) args.length) ∧ args.length < index.toNat + 1
  accepted : ∀ v, args[index.toNat]? = some v → accessor.accepts v.kind = true →
    args.takeAt accessor index = .ok (accessor.convert v)
  refused : ∀ v, args[index.toNat]? = some v → accessor.accepts v.kind = false →
    args.takeAt accessor index = .error (.typeMismatch (index.toNat + 1) accessor.expected v.kind.name)

theorem exact_of_lt (below : index.toNat + 1 < UInt64.size) : Exact args accessor index where
  missing missing := ⟨takeAt_of_none below missing, by omega⟩
  accepted v there accepted := by rw [takeAt_of_some below there, if_pos accepted]
  refused v there refused := by rw [takeAt_of_some below there, refused, if_neg Bool.false_ne_true]

/-- A panic is none of the answers. -/
theorem Exact.takeAt_ne_panic (answers : Exact args accessor index) :
    args.takeAt accessor index ≠ .error (.ofPanic .overflow) := by
  cases there : args[index.toNat]? with
  | none =>
    rw [(answers.missing (List.getElem?_eq_none_iff.mp there)).1]
    nofun
  | some v =>
    cases accepted : accessor.accepts v.kind with
    | true =>
      rw [answers.accepted v there accepted]
      nofun
    | false =>
      rw [answers.refused v there accepted]
      nofun

/-- **Accessors answer for every index but the last word.** There every one of them panics, whatever the
arguments are, since the position that an error would name is no word. -/
theorem takeAt_exact_iff (args : Arguments) (accessor : Accessor) (index : UInt64) :
    (Exact args accessor index ↔ index.toNat + 1 < UInt64.size) ∧
    (args.takeAt accessor index = .error (.ofPanic .overflow) ↔ index.toNat + 1 = UInt64.size) := by
  have word : index.toNat < UInt64.size := index.toNat_lt_size
  refine ⟨⟨fun answers => Decidable.of_not_not fun last => ?_, exact_of_lt⟩, fun panics => ?_,
    fun last => takeAt_of_last (by omega)⟩
  · exact answers.takeAt_ne_panic (takeAt_of_last last)
  · have last : ¬ index.toNat + 1 < UInt64.size := fun below =>
      (exact_of_lt below).takeAt_ne_panic panics
    omega

/-- Without arguments, the last index is no missing argument but a panic. -/
theorem takeAt_of_last_index :
    takeAt [] .value 0xFFFFFFFFFFFFFFFF = .error (.ofPanic .overflow) ∧
      (0xFFFFFFFFFFFFFFFF : UInt64).toNat + 1 = 18446744073709551616 ∧
      ¬ Exact [] .value 0xFFFFFFFFFFFFFFFF :=
  ⟨rfl, by decide, fun answers => answers.takeAt_ne_panic rfl⟩

end Arguments
end ScriptHost

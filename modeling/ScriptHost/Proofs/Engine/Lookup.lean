/-
Looking a key up in a table and, where it is missing there, along `__index`. What a lookup comes to is said
without fuel, by the recursion alone (`Engine.Finds`), and so is what it asks for on its way (`Engine.Asks`).
A lookup comes to something unless its questions go round in a circle, and the fuel of the engine is enough for
every lookup that does (`Engine.exists_finds_iff`, `Engine.finds_iff_lookup`). One level of `__index` settles a lookup
unless it goes deeper (`Engine.finds_oneLevel_iff`).
-/
import ScriptHost.Engine.Functions
import Mathlib.Data.List.Perm.Subperm
import Mathlib.Data.List.ProdSigma
import Mathlib.Logic.Relation

namespace ScriptHost.Engine

/-- The table that is named by what `__index` was found to be. -/
def Found.table? : Found → Option ObjectId
  | .value (.object .table id) => some id
  | _ => none

variable {e : Engine} {id mt index : ObjectId} {key : Option Key} {found found' named : Found} {fuel : Nat}

/-! ## One table -/

/-- What a table answers by itself, or the metatable that it leaves the key to. -/
def respond (e : Engine) (id : ObjectId) (key : Option Key) : Found ⊕ ObjectId :=
  match e.object? id with
  | some (.table entries metatable) =>
    let value := Entries.get e.keyOf entries key
    if value = .nil then metatable.elim (.inl (.value .nil)) .inr else .inl (.value value)
  | _ => .inl .notTable

theorem lt_of_respond (left : e.respond id key = .inr mt) : id < e.objects.length := by
  unfold respond at left
  split at left
  · next there => exact (List.getElem?_eq_some_iff.mp (Option.join_eq_some_iff.mp there)).1
  · cases left

/-- A lookup is one table's answer, or what the table that `__index` names comes to, nil if it names none. -/
theorem lookup_succ (e : Engine) (fuel : Nat) (id : ObjectId) (key : Option Key) :
    e.lookup (fuel + 1) id key = (e.respond id key).elim some fun mt =>
      (e.lookup fuel mt (some indexKey)).bind fun named =>
        named.table?.elim (some (.value .nil)) (e.lookup fuel · key) := by
  rw [lookup, respond]
  cases e.object? id with
  | none => rfl
  | some o =>
    cases o with
    | table entries metatable =>
      dsimp only
      by_cases missing : Entries.get e.keyOf entries key = .nil
      · rw [if_pos missing, if_pos missing]
        cases metatable with
        | none => rfl
        | some mt =>
          dsimp only [Option.elim_some, Sum.elim_inr]
          rcases e.lookup fuel mt (some indexKey) with _ | v | _
          · rfl
          · cases v with
            | object kind index => cases kind <;> rfl
            | _ => rfl
          · rfl
      · rw [if_neg missing, if_neg missing]
        rfl
    | _ => rfl

theorem lookup_succ_eq_some : e.lookup (fuel + 1) id key = some found ↔
    e.respond id key = .inl found ∨
      ∃ mt named, e.respond id key = .inr mt ∧ e.lookup fuel mt (some indexKey) = some named ∧
        ((∃ index, named.table? = some index ∧ e.lookup fuel index key = some found) ∨
          named.table? = none ∧ found = .value .nil) := by
  rw [lookup_succ]
  cases e.respond id key with
  | inl answer => simp
  | inr mt =>
    simp only [Sum.elim_inr, Option.bind_eq_some_iff, reduceCtorEq, false_or, Sum.inr.injEq]
    constructor
    · rintro ⟨named, names, ends⟩
      refine ⟨mt, named, rfl, names, ?_⟩
      cases leads : named.table? with
      | none =>
        rw [leads] at ends
        exact .inr ⟨rfl, (Option.some.inj ends).symm⟩
      | some index =>
        rw [leads] at ends
        exact .inl ⟨index, rfl, ends⟩
    · rintro ⟨mt', named, rfl, names, ⟨index, leads, ends⟩ | ⟨ends, rfl⟩⟩
      · exact ⟨named, names, by rw [leads]; exact ends⟩
      · exact ⟨named, names, by rw [ends]; rfl⟩

/-! ## Lookups without fuel -/

/-- What a lookup comes to. -/
inductive Finds (e : Engine) : ObjectId → Option Key → Found → Prop where
  | here {id : ObjectId} {key : Option Key} {found : Found} (answers : e.respond id key = .inl found) :
    Finds e id key found
  /-- The metatable names a table, in which the key is looked up. -/
  | further {id mt index : ObjectId} {key : Option Key} {named found : Found} (left : e.respond id key = .inr mt)
    (names : Finds e mt (some indexKey) named) (leads : named.table? = some index) (finds : Finds e index key found) :
    Finds e id key found
  /-- The metatable names no table. -/
  | nowhere {id mt : ObjectId} {key : Option Key} {named : Found} (left : e.respond id key = .inr mt)
    (names : Finds e mt (some indexKey) named) (ends : named.table? = none) : Finds e id key (.value .nil)

/-- A lookup comes to one thing only. -/
theorem Finds.unique (finds : e.Finds id key found) (finds' : e.Finds id key found') : found = found' := by
  induction finds generalizing found' with
  | here answers =>
    cases finds' with
    | here answers' => exact Sum.inl.inj (answers.symm.trans answers')
    | further left | nowhere left => cases answers.symm.trans left
  | further left names leads finds ihNames ih =>
    cases finds' with
    | here answers => cases left.symm.trans answers
    | further left' names' leads' finds' =>
      obtain rfl := Sum.inr.inj (left.symm.trans left')
      obtain rfl := ihNames names'
      obtain rfl := Option.some.inj (leads.symm.trans leads')
      exact ih finds'
    | nowhere left' names' ends =>
      obtain rfl := Sum.inr.inj (left.symm.trans left')
      obtain rfl := ihNames names'
      cases leads.symm.trans ends
  | nowhere left names ends ihNames =>
    cases finds' with
    | here answers => cases left.symm.trans answers
    | further left' names' leads finds' =>
      obtain rfl := Sum.inr.inj (left.symm.trans left')
      obtain rfl := ihNames names'
      cases ends.symm.trans leads
    | nowhere left' names' ends' => rfl

theorem finds_of_lookup (ends : e.lookup fuel id key = some found) : e.Finds id key found := by
  induction fuel generalizing id key found with
  | zero => cases ends
  | succ fuel ih =>
    obtain answers | ⟨mt, named, left, names, ⟨index, leads, finds⟩ | ⟨none, rfl⟩⟩ := lookup_succ_eq_some.mp ends
    · exact .here answers
    · exact .further left (ih names) leads (ih finds)
    · exact .nowhere left (ih names) none

/-! ## Circles -/

/-- A table, and a key to look up in it. -/
abbrev Question := ObjectId × Option Key

/-- What a lookup asks for on its way: `__index` in the metatable, and the key in the table that this names. -/
inductive Asks (e : Engine) : Question → Question → Prop where
  | metatable {id mt : ObjectId} {key : Option Key} (left : e.respond id key = .inr mt) :
    Asks e (id, key) (mt, some indexKey)
  | index {id mt index : ObjectId} {key : Option Key} {named : Found} (left : e.respond id key = .inr mt)
    (names : e.Finds mt (some indexKey) named) (leads : named.table? = some index) : Asks e (id, key) (index, key)

/-- What is asked for, and what is asked for on the way to it, comes back to a question that was asked already. -/
def GoesRound (e : Engine) (q : Question) : Prop :=
  ∃ q', Relation.ReflTransGen e.Asks q q' ∧ Relation.TransGen e.Asks q' q'

theorem GoesRound.exists_asks {q : Question} (round : e.GoesRound q) : ∃ q', e.Asks q q' ∧ e.GoesRound q' := by
  obtain ⟨q', reached, circle⟩ := round
  rcases reached.cases_head with rfl | ⟨q'', asks, reached⟩
  · obtain ⟨q'', asks, back⟩ := Relation.TransGen.head'_iff.mp circle
    exact ⟨q'', asks, q, back, circle⟩
  · exact ⟨q'', asks, q', reached, circle⟩

/-- A lookup that goes round does not end. -/
theorem Finds.not_goesRound (finds : e.Finds id key found) : ¬ e.GoesRound (id, key) := by
  induction finds with
  | here answers =>
    intro round
    obtain ⟨q, asks, -⟩ := round.exists_asks
    cases asks with
    | metatable left | index left => cases answers.symm.trans left
  | further left names leads finds ihNames ih =>
    intro round
    obtain ⟨q, asks, round⟩ := round.exists_asks
    cases asks with
    | metatable left' =>
      obtain rfl := Sum.inr.inj (left.symm.trans left')
      exact ihNames round
    | index left' names' leads' =>
      obtain rfl := Sum.inr.inj (left.symm.trans left')
      obtain rfl := names.unique names'
      obtain rfl := Option.some.inj (leads.symm.trans leads')
      exact ih round
  | nowhere left names ends ihNames =>
    intro round
    obtain ⟨q, asks, round⟩ := round.exists_asks
    cases asks with
    | metatable left' =>
      obtain rfl := Sum.inr.inj (left.symm.trans left')
      exact ihNames round
    | index left' names' leads =>
      obtain rfl := Sum.inr.inj (left.symm.trans left')
      obtain rfl := names.unique names'
      cases ends.symm.trans leads

/-! ## Fuel -/

/-- Where the fuel does not reach, a question remains for which there is too little as well. -/
theorem exists_asks_of_lookup_eq_none (short : e.lookup (fuel + 1) id key = none) :
    ∃ id' key', e.Asks (id, key) (id', key') ∧ e.lookup fuel id' key' = none ∧
      (key' = key ∨ key' = some indexKey) := by
  rw [lookup_succ] at short
  cases left : e.respond id key with
  | inl answer =>
    rw [left] at short
    cases short
  | inr mt =>
    rw [left, Sum.elim_inr] at short
    cases names : e.lookup fuel mt (some indexKey) with
    | none => exact ⟨mt, _, .metatable left, names, .inr rfl⟩
    | some named =>
      rw [names, Option.bind_some] at short
      cases leads : named.table? with
      | none =>
        rw [leads] at short
        cases short
      | some index =>
        rw [leads] at short
        exact ⟨index, key, .index left (finds_of_lookup names) leads, short, .inl rfl⟩

theorem lt_of_asks {q q' : Question} (asks : e.Asks q q') : q.1 < e.objects.length := by
  cases asks with
  | metatable left | index left => exact lt_of_respond left

/-- As many questions as there is fuel are asked one after the other before it runs out. -/
theorem exists_questions_of_lookup_eq_none (short : e.lookup fuel id key = none) :
    ∃ asked : List Question, asked.length = fuel ∧ asked.Pairwise (Relation.TransGen e.Asks) ∧
      ∀ q ∈ asked, Relation.ReflTransGen e.Asks (id, key) q ∧ q.1 < e.objects.length ∧
        (q.2 = key ∨ q.2 = some indexKey) := by
  induction fuel generalizing id key with
  | zero => exact ⟨[], rfl, .nil, nofun⟩
  | succ fuel ih =>
    obtain ⟨id', key', asks, short, isKey'⟩ := exists_asks_of_lookup_eq_none short
    obtain ⟨asked, length, ordered, all⟩ := ih short
    refine ⟨(id, key) :: asked, congrArg (· + 1) length, .cons (fun q mem => ?_) ordered, fun q mem => ?_⟩
    · exact .head' asks (all q mem).1
    · rcases List.mem_cons.mp mem with rfl | later
      · exact ⟨.refl, lt_of_asks asks, .inl rfl⟩
      · obtain ⟨reached, bound, isKey⟩ := all q later
        refine ⟨.head asks reached, bound, isKey.elim (fun same => ?_) .inr⟩
        exact isKey'.imp same.trans same.trans

/-- Only two keys are ever asked for, so that a lookup which needs more fuel asks one table the same twice. -/
theorem lookup_ne_none_of_not_goesRound (straight : ¬ e.GoesRound (id, key)) (enough : 2 * e.objects.length < fuel) :
    e.lookup fuel id key ≠ none := by
  intro short
  obtain ⟨asked, length, ordered, all⟩ := exists_questions_of_lookup_eq_none short
  have nodup : asked.Nodup := by
    refine ordered.imp_of_mem fun {q q'} mem _ circle same => ?_
    exact straight ⟨q, (all q mem).1, same ▸ circle⟩
  let possible := (List.range e.objects.length).product [key, some indexKey]
  have subset : asked ⊆ possible := by
    intro q mem
    obtain ⟨-, bound, isKey⟩ := all q mem
    exact List.mem_product.mpr ⟨List.mem_range.mpr bound, by simpa using isKey⟩
  have most : asked.length ≤ possible.length := (List.subperm_of_subset nodup subset).length_le
  have counted : possible.length = e.objects.length * 2 := by
    exact (List.length_product _ _).trans (congrArg (· * 2) List.length_range)
  omega

/-- **A lookup ends unless it goes round in a circle.** -/
theorem exists_finds_iff : (∃ found, e.Finds id key found) ↔ ¬ e.GoesRound (id, key) := by
  constructor
  · rintro ⟨found, finds⟩
    exact finds.not_goesRound
  · intro straight
    have ends := lookup_ne_none_of_not_goesRound straight (Nat.lt_succ_self _)
    obtain ⟨found, ends⟩ := Option.ne_none_iff_exists'.mp ends
    exact ⟨found, finds_of_lookup ends⟩

/-- The fuel of the engine is enough for every lookup that ends. -/
theorem finds_iff_lookup : e.Finds id key found ↔ e.lookup e.lookupFuel id key = some found := by
  refine ⟨fun finds => ?_, finds_of_lookup⟩
  have enough : 2 * e.objects.length < e.lookupFuel := Nat.lt_add_of_pos_right Nat.two_pos
  obtain ⟨found', ends⟩ := Option.ne_none_iff_exists'.mp
    (lookup_ne_none_of_not_goesRound finds.not_goesRound enough)
  rw [ends, (finds_of_lookup ends).unique finds]

/-- No fuel is enough for one that goes round. -/
theorem GoesRound.lookup_eq_none (round : e.GoesRound (id, key)) (fuel : Nat) : e.lookup fuel id key = none :=
  Option.eq_none_iff_forall_ne_some.mpr fun _ ends => (finds_of_lookup ends).not_goesRound round

theorem goesRound_iff_lookup : e.GoesRound (id, key) ↔ e.lookup e.lookupFuel id key = none := by
  rw [← not_iff_not, ← exists_finds_iff, ← ne_eq, Option.ne_none_iff_exists']
  exact exists_congr fun found => finds_iff_lookup

instance {q : Question} : Decidable (e.GoesRound q) :=
  decidable_of_iff (e.lookup e.lookupFuel q.1 q.2 = none) goesRound_iff_lookup.symm

/-! ## One level -/

/-- What a table has itself under a key. -/
def own (e : Engine) (id : ObjectId) (key : Option Key) : Found :=
  match e.respond id key with
  | .inl found => found
  | .inr _ => .value .nil

/-- What one level of `__index` gives: the value that the table itself has, or the one that the table has which
the metatable itself names. -/
def oneLevel (e : Engine) (id : ObjectId) (key : Option Key) : Found :=
  match e.respond id key with
  | .inl found => found
  | .inr mt => (e.own mt (some indexKey)).table?.elim (.value .nil) (e.own · key)

/-- The metatable leaves `__index` to a metatable of its own, or the table that it names leaves the key to one. -/
def GoesDeeper (e : Engine) (id : ObjectId) (key : Option Key) : Prop :=
  ∃ mt ∈ (e.respond id key).getRight?, (e.respond mt (some indexKey)).isRight ∨
    ∃ index ∈ (e.own mt (some indexKey)).table?, (e.respond index key).isRight

instance : Decidable (e.GoesDeeper id key) :=
  inferInstanceAs (Decidable (∃ mt ∈ (e.respond id key).getRight?, _))

theorem goesDeeper_iff : e.GoesDeeper id key ↔ ∃ mt, e.respond id key = .inr mt ∧
    ((∃ mt', e.respond mt (some indexKey) = .inr mt') ∨
      ∃ index mt', (e.own mt (some indexKey)).table? = some index ∧ e.respond index key = .inr mt') := by
  simp only [GoesDeeper, Option.mem_def, Sum.getRight?_eq_some_iff, Sum.isRight_iff, exists_and_left]

theorem own_of_inl (answers : e.respond id key = .inl found) : e.own id key = found := by
  rw [own, answers]

theorem own_of_inr (left : e.respond id key = .inr mt) : e.own id key = .value .nil := by
  rw [own, left]

/-- What goes deeper has no value on the first level. -/
theorem GoesDeeper.oneLevel_eq (deeper : e.GoesDeeper id key) : e.oneLevel id key = .value .nil := by
  obtain ⟨mt, left, ⟨mt', left'⟩ | ⟨index, mt', leads, left'⟩⟩ := goesDeeper_iff.mp deeper
  · simp only [oneLevel, left, own_of_inr left']
    rfl
  · simp only [oneLevel, left, leads]
    exact own_of_inr left'

theorem finds_oneLevel_of_not_goesDeeper (shallow : ¬ e.GoesDeeper id key) :
    e.Finds id key (e.oneLevel id key) := by
  unfold oneLevel
  cases left : e.respond id key with
  | inl found => exact .here left
  | inr mt =>
    cases names : e.respond mt (some indexKey) with
    | inr mt' => exact absurd (goesDeeper_iff.mpr ⟨mt, left, .inl ⟨mt', names⟩⟩) shallow
    | inl named =>
      dsimp only
      have itself := own_of_inl names
      rw [itself]
      cases leads : named.table? with
      | none => exact .nowhere left (.here names) leads
      | some index =>
        refine .further left (.here names) leads ?_
        cases last : e.respond index key with
        | inr mt' =>
          have deeper := goesDeeper_iff.mpr ⟨mt, left, .inr ⟨index, mt', by rw [itself, leads], last⟩⟩
          exact absurd deeper shallow
        | inl found =>
          rw [Option.elim_some, own_of_inl last]
          exact .here last

/-- **One level settles a lookup** unless it goes deeper, and then it may only have missed that there is nothing. -/
theorem finds_oneLevel_iff :
    e.Finds id key (e.oneLevel id key) ↔ ¬ e.GoesDeeper id key ∨ e.Finds id key (.value .nil) := by
  constructor
  · intro finds
    by_cases deeper : e.GoesDeeper id key
    · exact .inr (deeper.oneLevel_eq ▸ finds)
    · exact .inl deeper
  · rintro (shallow | nothing)
    · exact finds_oneLevel_of_not_goesDeeper shallow
    · by_cases deeper : e.GoesDeeper id key
      · exact deeper.oneLevel_eq ▸ nothing
      · exact finds_oneLevel_of_not_goesDeeper deeper

end ScriptHost.Engine

/-
Asking a table for a field, whatever metatables there are. Under an open value an open table is asked for what
the lookup comes to, and all else is refused before anything is looked up (`Host.Table.get_refused_or_usable`).
So the question has an answer unless the lookup goes round in a circle, and what one level of `__index` gives is
the answer unless the lookup goes deeper (`Host.Table.get_returns_iff`).
-/
import ScriptHost.Proofs.Host.Checking
import ScriptHost.Proofs.Host.TableHistory

namespace ScriptHost

open Host

namespace Host.Table

variable {s t : HostState} {vm : VmId} {table : HandleId} {id : ObjectId} {key : Value} {d : Datum}

/-! ## What is refused -/

/-- Under a value that is refused nothing is looked up. -/
theorem get_of_refused (behind : s.Behind vm table id) (refused : ¬ Accepted s vm key) :
    ∃ e, Table.get table key s = .error e s ∧ ∀ how, e ≠ .abort how := by
  obtain ⟨machine, ref, -, -, guarded⟩ := behind.exists_guarded
  let s₁ := (s.readVm vm).readObject table
  have left : (s₁.unreadObject table).unreadVm vm = s := HostState.unread_read ..
  have guards : s₁.Alike s := left ▸ (HostState.Alike.unreadObject s₁ table).trans (.unreadVm _ vm)
  have opened : s₁.machine? vm ≠ none := guards.machine? vm ▸ behind.isOpen
  have failed := send_of_refused opened fun accepted => refused (accepted.alike guards rfl)
  refine ⟨sendError s₁ vm key, ?_, sendError_ne_abort s₁ vm key⟩
  rw [Table.get, guarded, bind_run, failed]
  exact congrArg _ left

/-- A question for a field is refused, or it is one for a lookup in the engine. -/
theorem get_refused_or_usable {u : Usage} (reached : u.Reachable) (table : HandleId) (key : Value) :
    (∃ e, Table.get table key u.host = .error e u.host ∧ ∀ how, e ≠ .abort how) ∨
      ∃ vm id d, u.host.Behind vm table id ∧ Usable vm u.host key d := by
  obtain ⟨e, closed, refused⟩ | ⟨vm, machine, ref, isFor, opened, armed⟩ :=
    withObject_refused_or_open "get table field" table u.host
  · refine .inl ⟨e, refused _, fun how => ?_⟩
    rcases closed with rfl | rfl <;> nofun
  · obtain ⟨id, -, target, -⟩ := reached.orderly.exists_object armed
    have behind : u.host.Behind vm table id :=
      ⟨isFor, opened ▸ nofun, Option.bind_eq_some_iff.mpr ⟨ref, armed, target⟩⟩
    by_cases accepted : Accepted u.host vm key
    · obtain ⟨d, usable⟩ := Usable.exists_of_open reached accepted.1 (owned_of_not_foreign accepted.2)
      exact .inr ⟨vm, id, d, behind, usable⟩
    · exact .inl (get_of_refused behind accepted)

/-! ## What is answered -/

theorem Ends.of_ok {found : Option Engine.Found} {v : Value} (ends : Ends vm id s (.ok v t) found) :
    ∃ d, found = some (.value d) ∧ t.datum? v = some d := by
  rcases found with _ | d | _
  · obtain ⟨t', same, -⟩ := ends
    cases same
  · obtain ⟨v', t', same, -, -, usable⟩ := ends
    obtain ⟨rfl, rfl⟩ := EStateM.Result.ok.inj same
    exact ⟨d, rfl, usable.stands⟩
  · obtain ⟨t', same, -⟩ := ends
    cases same

theorem Ends.of_error {found : Option Engine.Found} {e : Error} (ends : Ends vm id s (.error e t) found) :
    found = none ∧ e = .abort .endless ∨
      found = some .notTable ∧ e = .native "attempt to index a non-table value" := by
  rcases found with _ | d | _
  · obtain ⟨t', same, -⟩ := ends
    exact .inl ⟨rfl, (EStateM.Result.error.inj same).1⟩
  · obtain ⟨v', t', same, -⟩ := ends
    cases same
  · obtain ⟨t', same, -⟩ := ends
    exact .inr ⟨rfl, (EStateM.Result.error.inj same).1⟩

/-- A question ends in one way only. -/
theorem Ends.unique {result : EStateM.Result Error HostState Value} {found found' : Option Engine.Found}
    (ends : Ends vm id s result found) (ends' : Ends vm id s result found') : found = found' := by
  cases result with
  | ok v t =>
    obtain ⟨d, rfl, stands⟩ := ends.of_ok
    obtain ⟨d', rfl, stands'⟩ := ends'.of_ok
    rw [Option.some.inj (stands.symm.trans stands')]
  | error e t =>
    obtain ⟨rfl, endless⟩ | ⟨rfl, noTable⟩ := ends.of_error <;>
      obtain ⟨rfl, endless'⟩ | ⟨rfl, noTable'⟩ := ends'.of_error
    · rfl
    · cases endless.symm.trans noTable'
    · cases noTable.symm.trans endless'
    · rfl

theorem ends_iff_lookup (ready : Ready vm table id s) (usable : Usable vm s key d) {found : Option Engine.Found} :
    Ends vm id s (Table.get table key s) found ↔
      s.engine.lookup s.engine.lookupFuel id (s.engine.keyOf d) = found := by
  have ends := get_ends ready usable
  exact ⟨ends.unique, fun same => same ▸ ends⟩

/-- A question is aborted only if the lookup goes round. -/
theorem goesRound_of_aborts {how : Abort} (behind : s.Behind vm table id) (usable : Usable vm s key d)
    (aborts : Table.get table key s = .error (.abort how) t) : s.engine.GoesRound (id, s.engine.keyOf d) := by
  obtain ⟨faults, fails | ends⟩ := get_ends_or_fails behind usable
  · cases aborts.symm.trans fails
  · rw [aborts] at ends
    obtain ⟨none, -⟩ | ⟨-, other⟩ := ends.of_error
    · exact Engine.goesRound_iff_lookup.mpr none
    · cases other

theorem endless_iff_goesRound (ready : Ready vm table id s) (usable : Usable vm s key d) :
    (∃ t, Table.get table key s = .error (.abort .endless) t) ↔
      s.engine.GoesRound (id, s.engine.keyOf d) := by
  refine ⟨fun ⟨t, endless⟩ => goesRound_of_aborts ready.toBehind usable endless, fun round => ?_⟩
  have none := Engine.goesRound_iff_lookup.mp round
  obtain ⟨t, endless, -⟩ := (ends_iff_lookup ready usable).mpr none
  exact ⟨t, endless⟩

/-- **A question for a field has an answer unless its lookup goes round in a circle.** Whatever failures are to come,
it ends with a value or an error otherwise. Without failures to come it goes on for ever just then, and the answer
of an open table under an open value is what the recursion along `__index` comes to, however far this leads. What
the first level gives is the answer just if the lookup does not go deeper, or if all of it finds nothing. -/
theorem get_returns_iff (u : Usage) (reached : u.Reachable) (table : HandleId) (key : Value) :
    let e := u.host.engine
    ((∀ vm id d, u.host.Behind vm table id → Usable vm u.host key d → ¬ e.GoesRound (id, e.keyOf d)) →
      ∀ how t, Table.get table key u.host ≠ .error (.abort how) t) ∧
    ∀ vm id d, Ready vm table id u.host → Usable vm u.host key d →
      ((∃ t, Table.get table key u.host = .error (.abort .endless) t) ↔ e.GoesRound (id, e.keyOf d)) ∧
      ((∃ found, e.Finds id (e.keyOf d) found) ↔ ¬ e.GoesRound (id, e.keyOf d)) ∧
      (∀ found, Ends vm id u.host (Table.get table key u.host) (some found) ↔ e.Finds id (e.keyOf d) found) ∧
      (Ends vm id u.host (Table.get table key u.host) (some (e.oneLevel id (e.keyOf d))) ↔
        ¬ e.GoesDeeper id (e.keyOf d) ∨ e.Finds id (e.keyOf d) (.value .nil)) := by
  intro e
  refine ⟨fun straight how t aborts => ?_, fun vm id d ready usable => ?_⟩
  · rcases get_refused_or_usable reached table key with ⟨error, refused, other⟩ | ⟨vm, id, d, behind, usable⟩
    · exact other _ (EStateM.Result.error.inj (refused.symm.trans aborts)).1
    · exact straight vm id d behind usable (goesRound_of_aborts behind usable aborts)
  · have answers : ∀ found, Ends vm id u.host (Table.get table key u.host) (some found) ↔
        e.Finds id (e.keyOf d) found := by
      intro found
      rw [ends_iff_lookup ready usable, Engine.finds_iff_lookup]
    exact ⟨endless_iff_goesRound ready usable, Engine.exists_finds_iff, answers,
      (answers _).trans Engine.finds_oneLevel_iff⟩

/-- A table, its metatable, and the one that this names, which has a value. -/
def fallback : Usage := .asking [
  .newVm, .createTable 0, .createTable 0, .createTable 0, .createString 0 (Utf8.ofString "__index"),
  .set 2 (.integer 1) (.integer 10), .set 1 (.object .string 3) (.object .table 2), .setMetatable 0 (some 1)]

/-- What the table has not is found one level further. -/
theorem get_returns_iff_of_fallback :
    let s := fallback.host
    fallback.Reachable ∧ Ready 0 0 1 s ∧ Usable 0 s (.integer 1) (.integer 1) ∧
      ¬ s.engine.GoesRound (1, some (.integer 1)) ∧ ¬ s.engine.GoesDeeper 1 (some (.integer 1)) ∧
      (∀ how t, Table.get 0 (.integer 1) s ≠ .error (.abort how) t) ∧
      ∃ v t, Table.get 0 (.integer 1) s = .ok v t ∧ t.datum? v = some (.integer 10) := by
  intro s
  have reached : fallback.Reachable := Usage.asking_reachable (by simp [Request.Plain])
  have ready : Ready 0 0 1 s := by decide +kernel
  have usable : Usable 0 s (.integer 1) (.integer 1) := by decide +kernel
  have straight : ¬ s.engine.GoesRound (1, some (.integer 1)) := by decide +kernel
  have shallow : ¬ s.engine.GoesDeeper 1 (some (.integer 1)) := by decide +kernel
  have level : s.engine.oneLevel 1 (some (.integer 1)) = .value (.integer 10) := by decide +kernel
  obtain ⟨returns, all⟩ := get_returns_iff fallback reached 0 (.integer 1)
  have answered : ∀ how t, Table.get 0 (.integer 1) s ≠ .error (.abort how) t := by
    refine returns fun vm id d behind usable' => ?_
    obtain rfl := Option.some.inj (ready.leads.symm.trans behind.leads)
    obtain rfl := Option.some.inj (usable.stands.symm.trans usable'.stands)
    exact straight
  obtain ⟨-, -, -, one⟩ := all 0 1 (.integer 1) ready usable
  obtain ⟨v, t, done, -, -, usable'⟩ := level ▸ one.mpr (.inl shallow)
  exact ⟨reached, ready, usable, straight, shallow, answered, v, t, done, usable'.stands⟩

/-- A table whose metatable names one that has a metatable as well, which names a third one. -/
def fallbackOfFallback : Usage := .asking [
  .newVm, .createTable 0, .createTable 0, .createTable 0, .createTable 0, .createTable 0,
  .createString 0 (Utf8.ofString "__index"), .set 4 (.integer 1) (.integer 10),
  .set 1 (.object .string 5) (.object .table 2), .set 3 (.object .string 5) (.object .table 4),
  .setMetatable 2 (some 3), .setMetatable 0 (some 1)]

/-- A table that is its own metatable. -/
def ownMetatable : Usage := .asking [.newVm, .createTable 0, .setMetatable 0 (some 0)]

/-- What one level does not have is found on the second, and in a table that is its own metatable a lookup does not
end. -/
theorem get_beyond_one_level :
    let s := fallbackOfFallback.host
    let t := ownMetatable.host
    (fallbackOfFallback.Reachable ∧ Ready 0 0 1 s ∧ Usable 0 s (.integer 1) (.integer 1) ∧
      s.engine.oneLevel 1 (some (.integer 1)) = .value .nil ∧
      ∃ v s', Table.get 0 (.integer 1) s = .ok v s' ∧ s'.datum? v = some (.integer 10)) ∧
    ownMetatable.Reachable ∧ Ready 0 0 1 t ∧ Usable 0 t (.integer 1) (.integer 1) ∧
      t.engine.GoesRound (1, some (.integer 1)) ∧ (∀ fuel, t.engine.lookup fuel 1 (some (.integer 1)) = none) ∧
      ∃ t', Table.get 0 (.integer 1) t = .error (.abort .endless) t' := by
  intro s t
  refine ⟨?_, ?_⟩
  · have reached : fallbackOfFallback.Reachable := Usage.asking_reachable (by simp [Request.Plain])
    have ready : Ready 0 0 1 s := by decide +kernel
    have usable : Usable 0 s (.integer 1) (.integer 1) := by decide +kernel
    have found : s.engine.lookup s.engine.lookupFuel 1 (some (.integer 1)) = some (.value (.integer 10)) := by
      decide +kernel
    obtain ⟨v, s', done, -, -, usable'⟩ := (ends_iff_lookup ready usable).mpr found
    exact ⟨reached, ready, usable, by decide +kernel, v, s', done, usable'.stands⟩
  · have reached : ownMetatable.Reachable := Usage.asking_reachable (by simp [Request.Plain])
    have ready : Ready 0 0 1 t := by decide +kernel
    have usable : Usable 0 t (.integer 1) (.integer 1) := by decide +kernel
    have round : t.engine.GoesRound (1, some (.integer 1)) := by decide +kernel
    exact ⟨reached, ready, usable, round, round.lookup_eq_none,
      (endless_iff_goesRound ready usable).mpr round⟩

end Host.Table

end ScriptHost

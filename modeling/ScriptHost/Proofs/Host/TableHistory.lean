/-
Tables are maps (`Host.Table.table_is_map`). A table that was empty and has no metatable is told by what was
set in it since (`Host.Table.History`): the latest value under every key is what is read, all pairs that
remain are listed in the order of their setting, and the length counts the keys from 1 on. Between one setting
and the next the host may do whatever leaves the table alone (`Host.Table.Elsewhere.of_leads`).
-/
import ScriptHost.Proofs.Host.Tables

namespace ScriptHost

open Host

namespace Engine

variable {e : Engine} {id : ObjectId} {entries entries' : Entries} {metatable metatable' : Option ObjectId}

/-- The entries of a table are nothing to the comparison of keys. -/
theorem keyOf_setObject (there : e.object? id = some (.table entries metatable)) :
    (e.setObject id (.table entries' metatable')).keyOf = e.keyOf := by
  funext d
  cases d with
  | object kind other =>
    by_cases same : other = id
    · rw [same, keyOf, keyOf, object?_setObject there, there]
    · have apart : (e.setObject id (.table entries' metatable')).object? other = e.object? other :=
        congrArg Option.join (List.getElem?_set_ne (Ne.symm same))
      rw [keyOf, keyOf, apart]
  | _ => rfl

end Engine

theorem Object.eq_of_outline_eq_string {o : Object} {bytes : Bytes} (same : o.outline = .string bytes) :
    o = .string bytes := by
  cases o with
  | string bytes' => exact same
  | _ => cases same

namespace Host.Table

variable {s t u : HostState} {vm : VmId} {table : HandleId} {id : ObjectId} {writings : List Entries.Writing}

/-! ## What leaves a table alone -/

/-- A table has the entries it had, and their keys are compared as they were. -/
structure Elsewhere (id : ObjectId) (s t : HostState) : Prop where
  object : t.engine.object? id = s.engine.object? id
  keys : ∀ entries metatable, s.engine.object? id = some (.table entries metatable) →
    ∀ entry ∈ entries, t.engine.keyOf entry.1 = s.engine.keyOf entry.1

theorem Elsewhere.of_objects (objects : t.engine.objects = s.engine.objects) : Elsewhere id s t where
  object := by rw [Engine.object?, objects, Engine.object?]
  keys _ _ _ _ _ := by rw [Engine.keyOf_congr objects]

/-- Strings keep their contents, and what a table holds is not freed. -/
theorem Elsewhere.of_lasts (lasts : s.Lasts t) (sound : s.engine.Sound) (sound' : t.engine.Sound)
    (same : t.engine.object? id = s.engine.object? id) : Elsewhere id s t where
  object := same
  keys entries metatable there entry mem := by
    have known := (sound.knows_entry there mem).1
    have known' := (sound'.knows_entry (same.trans there) mem).1
    cases key : entry.1 with
    | object kind other =>
      rw [key] at known known'
      obtain ⟨o, was⟩ := Option.ne_none_iff_exists'.mp (known other rfl)
      obtain ⟨o', is, outline⟩ := lasts.objects.of_live was (known' other rfl)
      have is' : t.engine.object? other = some o' := is
      rw [Engine.keyOf, Engine.keyOf, was, is']
      cases o with
      | string bytes => rw [Object.eq_of_outline_eq_string outline]
      | _ =>
        cases o' with
        | string bytes => cases outline
        | _ => rfl
    | _ => rfl

/-- Whatever a host does, as long as the table has the entries that it had. -/
theorem Elsewhere.of_leads {u v : Usage} {kept : List Use} (reached : u.Reachable) (leads : Usage.Leads kept u v)
    (same : v.host.engine.object? id = u.host.engine.object? id) : Elsewhere id u.host v.host := by
  have orderly := reached.orderly
  exact .of_lasts (leads.lasts orderly) orderly.valid.sound (leads.orderly orderly).valid.sound same

/-! ## What was set -/

/-- What was set in a table since it was empty, one after the other. -/
inductive History (id : ObjectId) : List Entries.Writing → HostState → Prop where
  | created {s : HostState} (empty : s.engine.object? id = some .emptyTable) : History id [] s
  | set {s t : HostState} {writings : List Entries.Writing} {vm : VmId} {table : HandleId} {key value : Value}
    {d d' : Datum} {k : Key} (before : History id writings s) (ready : Ready vm table id s)
    (usable : Usable vm s key d) (keyed : s.engine.keyOf d = some k) (isExact : Entries.Exact k)
    (usable' : Usable vm s value d') (done : Table.set table key value s = .ok () t) :
    History id (writings ++ [(k, d')]) t
  | elsewhere {s t : HostState} {writings : List Entries.Writing} (before : History id writings s)
    (elsewhere : Elsewhere id s t) : History id writings t

/-- A key that is compared by something is not nil. -/
theorem ne_nil_of_keyOf {e : Engine} {d : Datum} {k : Key} (keyed : e.keyOf d = some k) : d ≠ .nil := by
  rintro rfl
  cases keyed

/-- The entries of the table are what remains of the history. -/
theorem History.exists_entries (history : History id writings s) :
    ∃ entries, s.engine.object? id = some (.table entries none) ∧
      Entries.Holds s.engine.keyOf entries writings := by
  induction history with
  | created empty => exact ⟨[], empty, .nil⟩
  | @set s t writings vm table key value d d' k before ready usable keyed isExact usable' done ih =>
    obtain ⟨entries, there, holds⟩ := ih
    obtain ⟨engine, beside, done'⟩ := set_run ready there usable usable' (ne_nil_of_keyOf keyed)
    obtain ⟨-, rfl⟩ := EStateM.Result.ok.inj (done.symm.trans done')
    have there' := (beside.object? id).trans there
    refine ⟨_, Engine.object?_setObject there' _, ?_⟩
    rw [Engine.keyOf_setObject there', Engine.keyOf_congr beside.objects]
    exact holds.set keyed isExact
  | @elsewhere s t writings before elsewhere ih =>
    obtain ⟨entries, there, holds⟩ := ih
    refine ⟨entries, elsewhere.object.trans there, ?_, holds.areExact⟩
    rw [← holds.keyed]
    exact List.map_congr_left fun entry mem => by rw [elsewhere.keys entries none there entry mem]

/-- Steps to which objects are nothing. -/
theorem History.of_objects (history : History id writings s) (objects : t.engine.objects = s.engine.objects) :
    History id writings t :=
  history.elsewhere (.of_objects objects)

/-- A new table is empty. -/
theorem createTable_run (isOpen : s.machine? vm ≠ none) (faultless : s.engine.faults = []) :
    ∃ t, createTable vm s = .ok (.object .table s.wrappers.length) t ∧
      Ready vm s.wrappers.length s.engine.objects.length t ∧ History s.engine.objects.length [] t := by
  obtain ⟨t, made, behind, there, faultless'⟩ := create_run isOpen faultless "create table" "table" .createTable
    .table .emptyTable
  exact ⟨t, made, ⟨behind, faultless'⟩, .created there⟩

/-- Every open value of a VM, and every one without a VM, may be set in a table. -/
theorem Usable.exists_of_open {u : Usage} (reached : u.Reachable) {v : Value}
    (isOpen : isClosed u.host v = false) (owned : ∀ o ∈ owner? u.host v, o = vm) :
    ∃ d, Usable vm u.host v d :=
  (exists_datum reached.orderly isOpen).imp fun _ stands => ⟨owned, stands⟩

/-! ## Tables are maps -/

/-- A pair for a writing: a key that is compared by the same, and the value. -/
structure IsPair (vm : VmId) (s : HostState) (pair : Value × Value) (writing : Entries.Writing) : Prop where
  key : ∃ d, Usable vm s pair.1 d ∧ s.engine.keyOf d = some writing.1
  value : Usable vm s pair.2 writing.2

theorem pairs_of_history (history : History id writings s) (ready : Ready vm table id s) :
    ∃ found t, Table.pairs table s = .ok found t ∧
      List.Forall₂ (IsPair vm t) found (Entries.remaining writings) ∧
      t.engine.objects = s.engine.objects ∧ s.StaysBut id t := by
  obtain ⟨entries, there, holds⟩ := history.exists_entries
  obtain ⟨vs, engine, refs, ws, es, found, beside, -, new, stand⟩ := pairs_run ready there
  let t := ({ s with engine } : HostState).wrapNew ws es
  have usable := usable_of_new new stand
  have objects : t.engine.objects = s.engine.objects := beside.objects
  have keyed : List.Forall₂ (fun entry writing => t.engine.keyOf entry.1 = some writing.1 ∧ entry.2 = writing.2)
      entries (Entries.remaining writings) := by
    have same : List.Forall₂ (fun entry writing => (s.engine.keyOf entry.1, entry.2) = (some writing.1, writing.2))
        entries (Entries.remaining writings) :=
      List.forall₂_map_left_iff.mp (List.forall₂_map_right_iff.mp (List.forall₂_eq_eq_eq ▸ holds.keyed))
    rw [Engine.keyOf_congr objects]
    exact same.imp fun entry writing same => Prod.mk.inj same
  refine ⟨_, t, found, ?_, objects, (HostState.StaysBut.beside beside id).trans (.wrapNew _ ws es)⟩
  refine (forall₂_of_both (forall₂_pairUp usable) keyed.flip).imp ?_
  rintro pair writing ⟨entry, ⟨key, value⟩, keyed, same⟩
  exact ⟨⟨entry.1, key, keyed⟩, same ▸ value⟩

/-- **A table is a map.** On a table without metatable that was empty, the latest value that was set under a key
is read under every key that is compared by the same: a string by its contents, an object by its identity, a
boolean, an integer or an address by itself. No other key is affected. All pairs are listed with every key that
has a value once, in the order of the latest settings, the table is empty if there are none, and its length
is the largest number up to which the integer keys from 1 on have values. Whatever is asked can be answered,
whatever is set can be set, and neither does anything to what is open or to other objects. -/
theorem table_is_map (history : History id writings s) (ready : Ready vm table id s) :
    (∀ {key value : Value} {d d' : Datum} {k : Key}, Usable vm s key d → s.engine.keyOf d = some k →
      Entries.Exact k → Usable vm s value d' → ∃ t, Table.set table key value s = .ok () t ∧
        History id (writings ++ [(k, d')]) t ∧ s.StaysBut id t ∧
        ∀ other, Entries.latest (writings ++ [(k, d')]) other = if k = other then d'
          else Entries.latest writings other) ∧
    (∀ {key : Value} {d : Datum} {k : Key}, Usable vm s key d → s.engine.keyOf d = some k → Entries.Exact k →
      ∃ v t, Table.get table key s = .ok v t ∧ Usable vm t v (Entries.latest writings k) ∧
        History id writings t ∧ s.StaysBut id t) ∧
    (∃ found t, Table.pairs table s = .ok found t ∧
      List.Forall₂ (IsPair vm t) found (Entries.remaining writings) ∧
      ((Entries.remaining writings).map (·.1)).Nodup ∧
      (∀ k d, (k, d) ∈ Entries.remaining writings ↔ d ≠ .nil ∧ Entries.latest writings k = d) ∧
      History id writings t ∧ s.StaysBut id t) ∧
    (∃ answer t, Table.isEmpty table s = .ok answer t ∧
      (answer = true ↔ ∀ k, Entries.latest writings k = .nil) ∧ History id writings t ∧ s.StaysBut id t) ∧
    ∃ n, Table.length table s = .ok n s ∧ n ≤ writings.length ∧ ∀ m < UInt64.size, m ≤ n ↔
      ∀ i, 1 ≤ i → i ≤ m → Entries.latest writings (.integer (.ofNat i)) ≠ .nil := by
  obtain ⟨entries, there, holds⟩ := history.exists_entries
  refine ⟨fun usable keyed isExact usable' => ?_, fun usable keyed isExact => ?_, ?_, ?_, ?_⟩
  · obtain ⟨engine, beside, done⟩ := set_run ready there usable usable' (ne_nil_of_keyOf keyed)
    exact ⟨_, done, history.set ready usable keyed isExact usable' done,
      (HostState.StaysBut.beside beside id).trans (.setObject _ _), Entries.latest_concat writings _ _⟩
  · obtain ⟨v, t, done, stays, objects, stands⟩ := get_run ready there usable
    rw [keyed, holds.get isExact] at stands
    exact ⟨v, t, done, stands, history.of_objects objects, stays⟩
  · obtain ⟨found, t, done, stand, objects, stays⟩ := pairs_of_history history ready
    exact ⟨found, t, done, stand, Entries.nodup_remaining writings, fun _ _ => Entries.mem_remaining_iff,
      history.of_objects objects, stays⟩
  · obtain ⟨t, done, stays, objects⟩ := isEmpty_run ready there
    refine ⟨_, t, done, ?_, history.of_objects objects, stays⟩
    rw [← Entries.remaining_eq_nil_iff, List.isEmpty_iff_length_eq_zero, holds.length_eq,
      List.length_eq_zero_iff]
  · refine ⟨_, length_run ready there, ?_, fun m small => holds.length small⟩
    have all := (Entries.remaining_sublist writings).length_le
    exact (Entries.run_le _ _ _ _).trans (holds.length_eq.trans_le all)

/-- A table and two strings with the same contents. -/
def tableAndStrings : HostState :=
  after (do
    let _ ← newVm
    let _ ← createTable 0
    let _ ← createString 0 [97]
    createString 0 [97]) {}

/-- What is set under one string is read under the other. -/
theorem table_is_map_of_equal_strings :
    let s := tableAndStrings
    Ready 0 0 1 s ∧ ∃ t, Table.set 0 (.object .string 1) (.integer 5) s = .ok () t ∧
      (∃ v u, Table.get 0 (.object .string 2) t = .ok v u ∧ u.datum? v = some (.integer 5)) ∧
      ∃ found u, Table.pairs 0 t = .ok found u ∧
        List.Forall₂ (IsPair 0 u) found [(.string [97], .integer 5)] := by
  intro s
  have ready : Ready 0 0 1 s := ⟨⟨rfl, nofun, rfl⟩, rfl⟩
  have first : Usable 0 s (.object .string 1) (.object .string 2) := ⟨by decide +kernel, rfl⟩
  have second : Usable 0 s (.object .string 2) (.object .string 3) := ⟨by decide +kernel, rfl⟩
  obtain ⟨set, -⟩ := table_is_map (.created rfl) ready
  have five : Usable 0 s (.integer 5) (.integer 5) := ⟨by decide +kernel, rfl⟩
  obtain ⟨t, done, history, stays, -⟩ := set first rfl nofun five
  obtain ⟨-, get, ⟨found, u, asked, stand, -⟩, -⟩ := table_is_map history (ready.staysBut stays)
  have keyed : t.engine.keyOf (.object .string 3) = some (.string [97]) := by
    rw [Engine.keyOf, stays.objects 3 (by decide)]
    rfl
  obtain ⟨v, u', read, usable, -⟩ := get (second.staysBut stays) keyed nofun
  exact ⟨ready, t, done, ⟨v, u', read, usable.stands⟩, found, u, asked, stand⟩

end Host.Table

end ScriptHost

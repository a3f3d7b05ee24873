/-
What values are passed on as. An object goes to the engine as a reference of its own, made for it then, to
what its wrapper owns a reference to (`Host.Passed`).
-/
import ScriptHost.Proofs.Host.Moves
import ScriptHost.Proofs.Host.Balance
import Mathlib.Data.List.Forall2

namespace ScriptHost.Host

open HostState (Still OnlyReturns OnlyAdds)

/-- What a value of the state `s` was passed on as, in the state `t`. -/
inductive Passed (s t : HostState) : Value → Crossing → Prop where
  | object {kind : ObjectKind} {h : HandleId} {owned ref : ReferenceId} {id : ObjectId} :
    s.pointers[h]? = some (some owned) → s.engine.target? owned = some id →
    s.engine.references.length ≤ ref → t.engine.target? ref = some id →
    Passed s t (.object kind h) (.object kind (some ref))
  | plain {v : Value} {c : Crossing} : v.object? = none → c.carried = [] → Passed s t v c

variable {s t : HostState}

/-! ## One value -/

theorem secondReference_eq_ok {kind : ObjectKind} {object : HandleId} {ref : ReferenceId}
    (done : secondReference kind object s = .ok ref t) :
    ∃ owned id, s.pointers[object]? = some (some owned) ∧ s.engine.target? owned = some id ∧
      s.engine.references.length ≤ ref ∧ t.engine.target? ref = some id := by
  obtain ⟨cloned, u, done, handed⟩ := bind_eq_ok.mp done
  obtain ⟨vm, machine, owned, s', t', there, engine, done, last⟩ := withObject_eq_ok done
  rw [inEngine_run, engine] at done
  rcases cloneRef_cases s.engine owned with same | ⟨id, target, made⟩
  · rw [same] at done
    cases done
    cases handed
  · rw [made] at done
    cases done
    cases handed
    refine ⟨owned, id, there, target, Nat.le_refl _, ?_⟩
    rw [last]
    simp [Engine.target?, Engine.refer, Engine.failing]

theorem send_eq_ok {vm : VmId} {v : Value} {c : Crossing} (done : send vm v s = .ok c t) :
    Passed s t v c := by
  obtain ⟨_, s₁, checked, done⟩ := bind_eq_ok.mp done
  have same : Still s s₁ := (checkOwner_moves vm v).of_ok checked
  cases v with
  | object kind h =>
    obtain ⟨ref, t₁, made, handed⟩ := bind_eq_ok.mp done
    cases handed
    obtain ⟨owned, id, there, target, new, leads⟩ := secondReference_eq_ok made
    rw [same.1] at target new
    rw [same.2] at there
    exact .object there target new leads
  | error e =>
    obtain ⟨s₂, s₃, seen, done⟩ := bind_eq_ok.mp done
    cases seen
    cases found : errorMessage? s₁ e with
    | none =>
      rw [found] at done
      cases done
    | some message =>
      rw [found] at done
      cases done
      exact .plain rfl rfl
  | _ =>
    cases done
    exact .plain rfl rfl

/-! ## All values -/

/-- No wrapper owns a reference that was never made. -/
def Bounded (s : HostState) : Prop :=
  ∀ ref ∈ s.armed, ref < s.engine.references.length

theorem Bounded.adds (bounded : Bounded s) (adds : OnlyAdds s t) : Bounded t := by
  intro ref owned
  rw [HostState.armed_eq, adds.pointers, ← HostState.armed_eq] at owned
  exact Nat.lt_of_lt_of_le (bounded ref owned) adds.length_le

/-- What was passed on stays as long as references are only added. -/
theorem Passed.later {v : Value} {c : Crossing} {u : HostState} (passed : Passed s t v c)
    (adds : OnlyAdds t u) : Passed s u v c := by
  cases passed with
  | object there target new leads =>
    refine .object there target new ?_
    rw [adds.target? _ (Engine.lt_of_target? leads), leads]
  | plain quiet bare => exact .plain quiet bare

/-- What was passed on was there to be passed on before references were added. -/
theorem Passed.earlier {v : Value} {c : Crossing} {r : HostState} (passed : Passed s t v c)
    (bounded : Bounded r) (adds : OnlyAdds r s) : Passed r t v c := by
  cases passed with
  | object there target new leads =>
    rw [adds.pointers] at there
    rw [adds.target? _ (bounded _ (HostState.mem_armed.mpr ⟨_, there⟩))] at target
    exact .object there target (Nat.le_trans adds.length_le new) leads
  | plain quiet bare => exact .plain quiet bare

theorem sendAll_eq_ok {vm : VmId} {vs : List Value} {list : RawList (Option ReferenceId)}
    (bounded : Bounded s) (done : sendAll vm vs s = .ok list t) :
    OnlyAdds s t ∧ List.Forall₂ (Passed s t) vs list := by
  induction vs generalizing s list with
  | nil =>
    cases done
    exact ⟨HostState.Along.still rfl rfl, .nil⟩
  | cons v vs ih =>
    obtain ⟨c, u, sent, done⟩ := bind_eq_ok.mp done
    obtain ⟨rest, u', others, done⟩ := bind_eq_ok.mp done
    cases done
    have adds : OnlyAdds s u := (send_onlyAdds vm v).of_ok sent
    rcases tryCatch_eq_ok others with others | ⟨e, _, -, handled⟩
    · -- What the first was passed on as is still there at the end, and what the others were passed on from
      -- was there at the start.
      obtain ⟨adds', passed⟩ := ih (bounded.adds adds) others
      refine ⟨HostState.Along.trans adds adds', .cons ((send_eq_ok sent).later adds') ?_⟩
      exact passed.imp fun _ _ passed => passed.earlier bounded adds
    · obtain ⟨_, _, -, thrown⟩ := bind_eq_ok.mp handled
      cases thrown

/-- What was passed on and is still there leads to where it led, whatever was given back meanwhile. -/
theorem Passed.returning {v : Value} {c : Crossing} {u : HostState} (passed : Passed s t v c)
    (returns : OnlyReturns t u) (there : ∀ ref ∈ c.carried, u.engine.target? ref ≠ none) :
    Passed s u v c := by
  cases passed with
  | @object _ _ _ ref _ there' target new leads =>
    refine .object there' target new ?_
    obtain ⟨id', leads'⟩ := Option.ne_none_iff_exists'.mp (there ref List.mem_cons_self)
    rw [leads', ← leads, returns ref id' leads']
  | plain quiet bare => exact .plain quiet bare

end ScriptHost.Host

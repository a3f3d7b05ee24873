/-
Work of the host as a run in which what is in use goes on (`Host.Proceeds`). Work says what it takes of the
loose references and what it leaves loose, and what is put together of such work is such work.
-/
import ScriptHost.Proofs.Host.Usage

namespace ScriptHost

/-! ## Runs around a run -/

namespace Usage

variable {kept : List Use} {u v : Usage}

/-- What is loose besides may stay so. -/
theorem Step.frame (step : Step u v) (others : List ReferenceId) :
    Step ⟨u.host, u.loose ++ others, u.uses⟩ ⟨v.host, v.loose ++ others, v.uses⟩ := by
  cases step with
  | operate c plain takes =>
    rw [List.append_assoc]
    refine .operate c plain ?_
    rw [← List.append_assoc]
    exact takes.append_right others
  | useVm entered => exact .useVm entered
  | useObject entered => exact .useObject entered
  | borrow type exclusive userdata => exact .borrow type exclusive userdata
  | change under alone typed => exact .change under alone typed
  | leave under => exact .leave under
  | reclaim cover => exact .reclaim cover

theorem Leads.frame (leads : Leads kept u v) (others : List ReferenceId) :
    Leads kept ⟨u.host, u.loose ++ others, u.uses⟩ ⟨v.host, v.loose ++ others, v.uses⟩ := by
  induction leads with
  | refl => exact .refl
  | tail _ step ih => exact ih.tail ⟨step.1.frame others, step.2⟩

/-- In which order references are loose is nothing to a run. -/
theorem Leads.perm {s : HostState} {loose loose' : List ReferenceId} {uses : List Use}
    (same : loose.Perm loose') (goesOn : kept <:+ uses) :
    Leads kept ⟨s, loose, uses⟩ ⟨s, loose', uses⟩ :=
  .of_step (.operate (.abandon []) trivial same) goesOn

end Usage

namespace Host

open Usage (Leads)

variable {α β : Type} {taken left : List ReferenceId} {given : α → List ReferenceId}

/-- Work that is a run of the host in which what is in use goes on. The loose references of `taken` go in.
Those of `given` come out, or those of `left` in case of a failure. The work may leave more loose, and more
in use. -/
def Proceeds (taken : List ReferenceId) (work : Host α) (given : α → List ReferenceId)
    (left : List ReferenceId) : Prop :=
  ∀ s loose uses, ∃ loose' more, Leads uses ⟨s, taken ++ loose, uses⟩
    ⟨after work s, (answer? work s).elim left given ++ loose', more ++ uses⟩

namespace Proceeds

/-- What is done at one go. -/
theorem of_command {c : Command} (plain : c.Plain) : Proceeds c.taken c.perform id [] := by
  intro s loose uses
  refine ⟨loose, [], .of_step ?_ List.suffix_rfl⟩
  have step := @Usage.Step.operate s (c.taken ++ loose) loose uses c plain (.refl _)
  cases answered : answer? c.perform s <;> rwa [answered] at step

/-- Work that only looks. -/
theorem of_same {work : Host α} (same : ∀ s, after work s = s) : Proceeds taken work (fun _ => taken) taken := by
  intro s loose uses
  refine ⟨loose, [], ?_⟩
  rw [same]
  cases answer? work s <;> exact .refl

theorem pure {a : α} (same : taken = given a) : Proceeds taken (Pure.pure a) given left := by
  subst same
  exact fun _ loose _ => ⟨loose, [], .refl⟩

theorem throw {e : Error} : Proceeds left (MonadExcept.throw e : Host α) given left :=
  fun _ loose _ => ⟨loose, [], .refl⟩

theorem bind {work : Host α} {next : α → Host β} {given' : β → List ReferenceId}
    (first : Proceeds taken work given left) (second : ∀ a, Proceeds (given a) (next a) given' left) :
    Proceeds taken (work >>= next) given' left := by
  intro s loose uses
  obtain ⟨loose', more, leads⟩ := first s loose uses
  cases done : work s with
  | error e t =>
    refine ⟨loose', more, ?_⟩
    simp only [after, answer?, bind_run, done] at leads ⊢
    exact leads
  | ok a t =>
    simp only [after, answer?, done, Option.elim_some] at leads
    obtain ⟨loose'', more', leads'⟩ := second a t loose' (more ++ uses)
    refine ⟨loose'', more' ++ more, leads.trans ?_⟩
    rw [List.append_assoc]
    have both : after (work >>= next) s = after (next a) t ∧ answer? (work >>= next) s = answer? (next a) t := by
      simp only [after, answer?, bind_run, done, and_self]
    rw [both.1, both.2]
    exact leads'.weaken (List.suffix_append _ _)

/-- What was loose besides stays loose. -/
theorem frame {work : Host α} (proceeds : Proceeds taken work given left) (others : List ReferenceId) :
    Proceeds (taken ++ others) work (given · ++ others) (left ++ others) := by
  intro s loose uses
  obtain ⟨loose', more, leads⟩ := proceeds s loose uses
  refine ⟨loose', more, ?_⟩
  have before : (taken ++ others ++ loose).Perm (taken ++ loose ++ others) := by
    rw [List.append_assoc, List.append_assoc]
    exact List.perm_append_comm.append_left taken
  refine (Leads.perm before List.suffix_rfl).trans ((leads.frame others).trans ?_)
  refine Leads.perm ?_ (List.suffix_append _ _)
  have behind : ∀ refs : List ReferenceId, (refs ++ loose' ++ others).Perm (refs ++ others ++ loose') :=
    fun refs => by
      rw [List.append_assoc, List.append_assoc]
      exact List.perm_append_comm.append_left refs
  cases answer? work s <;> exact behind _

/-- Where success and failure leave the same loose, only the state they lead to matters. -/
theorem congr_after {work : Host α} {work' : Host β} (proceeds : Proceeds taken work (fun _ => left) left)
    (same : ∀ s, after work' s = after work s) : Proceeds taken work' (fun _ => left) left := by
  intro s loose uses
  obtain ⟨loose', more, leads⟩ := proceeds s loose uses
  have either : ∀ {γ : Type} (answer : Option γ), answer.elim left (fun _ => left) = left := by
    intro γ answer
    cases answer <;> rfl
  refine ⟨loose', more, ?_⟩
  rw [either] at leads ⊢
  rw [same]
  exact leads

/-- Work that never fails leaves whatever one likes when it fails. -/
theorem of_succeeds {work : Host α} {left' : List ReferenceId} (proceeds : Proceeds taken work given left)
    (succeeds : ∀ s, ∃ a s', work s = .ok a s') : Proceeds taken work given left' := by
  intro s loose uses
  obtain ⟨a, t, done⟩ := succeeds s
  obtain ⟨loose', more, leads⟩ := proceeds s loose uses
  refine ⟨loose', more, ?_⟩
  simpa only [after, answer?, done, Option.elim_some] using leads

/-- What is answered is nothing to a run. -/
theorem of_map {work : Host α} {f : α → β} {given : β → List ReferenceId}
    (proceeds : Proceeds taken (do return f (← work)) given left) :
    Proceeds taken work (fun a => given (f a)) left := by
  intro s loose uses
  obtain ⟨loose', more, leads⟩ := proceeds s loose uses
  refine ⟨loose', more, ?_⟩
  rw [after_bind_pure] at leads
  have answered : answer? (do return f (← work)) s = (answer? work s).map f := by
    simp only [answer?, bind_run]
    cases work s <;> rfl
  rw [answered] at leads
  cases found : answer? work s <;> rwa [found] at leads

theorem tryCatch {work : Host α} {handler : Error → Host α} {left' : List ReferenceId}
    (proceeds : Proceeds taken work given left)
    (handled : ∀ e, Proceeds left (handler e) given left') :
    Proceeds taken (tryCatch work handler) given left' := by
  intro s loose uses
  obtain ⟨loose', more, leads⟩ := proceeds s loose uses
  cases done : work s with
  | ok a t =>
    refine ⟨loose', more, ?_⟩
    simp only [after, answer?, tryCatch_run, done] at leads ⊢
    exact leads
  | error e t =>
    simp only [after, answer?, done, Option.elim_none] at leads
    obtain ⟨loose'', more', leads'⟩ := handled e t loose' (more ++ uses)
    refine ⟨loose'', more' ++ more, leads.trans ?_⟩
    rw [List.append_assoc]
    have both : after (MonadExcept.tryCatch work handler) s = after (handler e) t ∧
        answer? (MonadExcept.tryCatch work handler) s = answer? (handler e) t := by
      simp only [after, answer?, tryCatch_run, done, and_self]
    rw [both.1, both.2]
    exact leads'.weaken (List.suffix_append _ _)

theorem get {next : HostState → Host α} (proceeds : ∀ s, Proceeds taken (next s) given left) :
    Proceeds taken (MonadState.get >>= next) given left :=
  fun s => proceeds s s

theorem ofResult {result : Except Error α} :
    Proceeds (orLeft left given result) (ofResult result) given left := by
  cases result with
  | ok a => exact pure rfl
  | error e => exact throw

theorem attempt {work : Host α} {left' : List ReferenceId} (proceeds : Proceeds taken work given left) :
    Proceeds taken (attempt work) (orLeft left given) left' := by
  intro s loose uses
  obtain ⟨loose', more, leads⟩ := proceeds s loose uses
  refine ⟨loose', more, ?_⟩
  rw [after_attempt]
  unfold answer? at leads ⊢
  rw [attempt_run]
  cases done : work s <;> rw [done] at leads <;> exact leads

/-- A command without an answer. -/
theorem of_quiet {c : Command} (plain : c.Plain) {work : Host α}
    (same : c.perform = do
      let _ ← work
      return []) : Proceeds c.taken work (fun _ => []) [] := by
  have proceeds : Proceeds c.taken c.perform id [] := of_command plain
  rw [same] at proceeds
  exact proceeds.of_map

/-- An object is in use while there is work on it. -/
theorem withObject {action : String} {object : HandleId} {work : VmId → MachineId → ReferenceId → Host α}
    (proceeds : ∀ vm machine ref, Proceeds taken (work vm machine ref) given taken) :
    Proceeds taken (withObject action object work) given taken := by
  intro s loose uses
  obtain ⟨e, -, refused⟩ | ⟨vm, machine, ref, isFor, isOpen, armed⟩ := withObject_refused_or_open action object s
  · refine ⟨loose, [], ?_⟩
    simp only [after, answer?, refused]
    exact .refl
  · have entered : enter action object s = .ok (vm, machine, ref) ((s.readVm vm).readObject object) :=
      enter_eq_ok_iff.mpr ⟨isFor, isOpen, armed, rfl⟩
    obtain ⟨loose', more, leads⟩ := proceeds vm machine ref ((s.readVm vm).readObject object) loose
      (.object vm object :: uses)
    have started := Leads.of_step
      (@Usage.Step.useObject s _ (taken ++ loose) uses _ _ _ _ _ entered) (List.suffix_cons _ uses)
    -- The use that started last may have been left already by one like it; one of them is left now.
    have among : Use.object vm object ∈ more ++ [Use.object vm object] :=
      List.mem_append_right _ List.mem_cons_self
    have left' : (more ++ Use.object vm object :: uses).erase (Use.object vm object) =
        (more ++ [Use.object vm object]).erase (Use.object vm object) ++ uses := by
      rw [← List.erase_append_left _ among, List.append_assoc, List.singleton_append]
    refine ⟨loose', (more ++ [Use.object vm object]).erase (Use.object vm object), ?_⟩
    refine started.trans ((leads.weaken (List.suffix_cons _ uses)).trans ?_)
    have ended : after (Host.withObject action object work) s =
          after (Use.leave (.object vm object))
            (after (work vm machine ref) ((s.readVm vm).readObject object)) ∧
        answer? (Host.withObject action object work) s =
          answer? (work vm machine ref) ((s.readVm vm).readObject object) := by
      simp only [after, answer?, withObject_of_open isFor isOpen armed]
      cases work vm machine ref ((s.readVm vm).readObject object) <;> exact ⟨rfl, rfl⟩
    rw [ended.1, ended.2, ← left']
    refine Leads.of_step (.leave (List.mem_append_right _ List.mem_cons_self)) ?_
    rw [left']
    exact List.suffix_append _ _

end Proceeds

end Host
end ScriptHost

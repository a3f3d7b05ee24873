/-
Work of the host, run on a state: what each way of putting work together comes to.
-/
import ScriptHost.Host.State

namespace ScriptHost.Host

variable {α β : Type}

theorem bind_run (m : Host α) (f : α → Host β) (s : HostState) :
    (m >>= f) s = match m s with
      | .ok a s => f a s
      | .error e s => .error e s := by
  show EStateM.bind m f s = _
  unfold EStateM.bind
  cases m s <;> rfl

/-- Work that succeeds after other work: both do. -/
theorem bind_eq_ok {m : Host α} {f : α → Host β} {b : β} {s u : HostState} :
    (m >>= f) s = .ok b u ↔ ∃ a t, m s = .ok a t ∧ f a t = .ok b u := by
  rw [bind_run]
  cases m s with
  | ok a t => exact ⟨fun done => ⟨a, t, rfl, done⟩, fun ⟨_, _, rfl, done⟩ => done⟩
  | error e t => exact ⟨nofun, fun ⟨_, _, failed, _⟩ => nomatch failed⟩

/-- Work that fails after other work: one of the two does. -/
theorem bind_eq_error {m : Host α} {f : α → Host β} {e : Error} {s u : HostState} :
    (m >>= f) s = .error e u ↔ m s = .error e u ∨ ∃ a t, m s = .ok a t ∧ f a t = .error e u := by
  rw [bind_run]
  cases m s with
  | ok a t =>
    constructor
    · exact fun failed => .inr ⟨a, t, rfl, failed⟩
    · rintro (failed | ⟨_, _, done, failed⟩)
      · cases failed
      · cases done
        exact failed
  | error e' t => simp

@[simp] theorem pure_run (a : α) (s : HostState) : (pure a : Host α) s = .ok a s := rfl

@[simp] theorem get_run (s : HostState) : (get : Host HostState) s = .ok s s := rfl

@[simp] theorem set_run (s' s : HostState) : (set s' : Host PUnit) s = .ok () s' := rfl

@[simp] theorem modify_run (f : HostState → HostState) (s : HostState) :
    (modify f : Host PUnit) s = .ok () (f s) := rfl

@[simp] theorem throw_run (e : Error) (s : HostState) : (throw e : Host α) s = .error e s := rfl

/-- A failure undoes nothing, so what handles it goes on from the state it left. -/
theorem tryCatch_run (m : Host α) (handler : Error → Host α) (s : HostState) :
    (tryCatch m handler) s = match m s with
      | .ok a s => .ok a s
      | .error e s => handler e s := by
  show EStateM.tryCatch m handler s = _
  unfold EStateM.tryCatch
  cases m s <;> rfl

theorem tryCatch_eq_ok {m : Host α} {handler : Error → Host α} {a : α} {s u : HostState}
    (done : tryCatch m handler s = .ok a u) :
    m s = .ok a u ∨ ∃ e t, m s = .error e t ∧ handler e t = .ok a u := by
  rw [tryCatch_run] at done
  cases run : m s with
  | ok b t =>
    rw [run] at done
    exact .inl done
  | error e t =>
    rw [run] at done
    exact .inr ⟨e, t, rfl, done⟩

theorem tryFinally_run (m : Host α) (closing : HostState → HostState) (s : HostState) :
    (tryFinally m (modify closing : Host PUnit)) s = match m s with
      | .ok a s => .ok a (closing s)
      | .error e s => .error e (closing s) := by
  have step : tryFinally m (modify closing : Host PUnit) =
      (fun s => match m s with
        | .ok a s => .ok a (closing s)
        | .error e s => .error e (closing s)) := by
    funext s
    cases h : m s <;>
      simp [tryFinally, tryFinally', h, Functor.map, EStateM.map, modify_run]
  rw [step]

theorem tryFinally_eq_ok {m : Host α} {closing : HostState → HostState} {a : α} {s u : HostState} :
    tryFinally m (modify closing : Host PUnit) s = .ok a u ↔ ∃ t, m s = .ok a t ∧ closing t = u := by
  rw [tryFinally_run]
  cases m s with
  | ok b t =>
    constructor
    · intro done
      cases done
      exact ⟨t, rfl, rfl⟩
    · rintro ⟨_, done, rfl⟩
      cases done
      rfl
  | error e t => exact ⟨nofun, fun ⟨_, failed, _⟩ => nomatch failed⟩

@[simp] theorem inEngine_run (work : Engine → α × Engine) (s : HostState) :
    inEngine work s = .ok (work s.engine).1 { s with engine := (work s.engine).2 } := rfl

theorem tryInEngine_run {ε : Type} (failure : ε → Error) (work : Engine → Except ε α × Engine) (s : HostState) :
    tryInEngine failure work s = match (work s.engine).1 with
      | .ok a => .ok a { s with engine := (work s.engine).2 }
      | .error e => .error (failure e) { s with engine := (work s.engine).2 } := by
  rw [tryInEngine, bind_run, inEngine_run]
  dsimp only
  cases (work s.engine).1 <;> rfl

@[simp] theorem ofResult_ok (a : α) : (ofResult (.ok a) : Host α) = pure a := rfl

@[simp] theorem ofResult_error (e : Error) : (ofResult (.error e) : Host α) = throw e := rfl

theorem attempt_run (m : Host α) (s : HostState) :
    attempt m s = match m s with
      | .ok a s => .ok (.ok a) s
      | .error e s => .ok (.error e) s := rfl

theorem attempt_succeeds (m : Host α) (s : HostState) : ∃ ended s', attempt m s = .ok ended s' := by
  rw [attempt_run]
  cases m s with
  | ok a s => exact ⟨_, _, rfl⟩
  | error e s => exact ⟨_, _, rfl⟩

theorem attempt_eq_ok {m : Host α} {a : α} {s t : HostState} :
    attempt m s = .ok (.ok a) t ↔ m s = .ok a t := by
  rw [attempt_run]
  cases m s <;> simp

theorem attempt_eq_error {m : Host α} {e : Error} {s t : HostState} :
    attempt m s = .ok (.error e) t ↔ m s = .error e t := by
  rw [attempt_run]
  cases m s <;> simp

end ScriptHost.Host

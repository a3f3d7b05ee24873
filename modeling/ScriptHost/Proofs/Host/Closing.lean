/-
Closing many values at once (`Host.closeAll_closes`). Whatever is named by a value and not read is closed, and
its destructor is run once, however often it is named: that of an object gives a reference back to the engine,
that of an error value frees its message. What is read stays as it is, and every position that names it is a
failure, which is told alone or together with the others. When nothing is read any more, all can be closed.
-/
import ScriptHost.Proofs.Host.Crossing
import ScriptHost.Proofs.Host.Orderly
import Mathlib.Data.List.Nodup

namespace ScriptHost

/-! ## Handles -/

namespace Handle

variable {α β : Type}

/-- A handle with its pointer seen as something else. -/
def map (f : α → β) (h : Handle α) : Handle β :=
  ⟨h.kind, h.pointer.map f, h.readers⟩

/-- Whether closing a handle runs its destructor. -/
def isDue (h : Handle α) : Bool :=
  match h.close .returns with
  | .ok ⟨_, destroyed, _⟩ => destroyed.isSome
  | .error _ => false

/-- What closing leaves of a handle. -/
def shut (h : Handle α) : Handle α :=
  if h.readers = 0 then h.disarmed else h

@[simp] theorem readers_shut (h : Handle α) : h.shut.readers = h.readers := by
  rw [shut]
  split <;> rfl

@[simp] theorem shut_shut (h : Handle α) : h.shut.shut = h.shut := by
  unfold shut
  split <;> simp_all [disarmed]

theorem isDue_of_unread {h : Handle α} (free : h.readers = 0) : h.isDue = h.toDestroy.isSome := by
  simp [isDue, close, free]

theorem isDue_iff {h : Handle α} : h.isDue = true ↔ h.pointer ≠ none ∧ h.readers = 0 ∧ h.kind.owned = true := by
  by_cases free : h.readers = 0
  · by_cases owned : h.kind.owned = true <;>
      simp [isDue_of_unread, toDestroy, free, owned, Option.isSome_iff_ne_none]
  · simp [isDue, close, free]

theorem toDestroy_of_unread {h : Handle α} (free : h.readers = 0) :
    h.toDestroy = if h.isDue then h.pointer else none := by
  rw [isDue_of_unread free, toDestroy]
  by_cases owned : h.kind.owned = true
  · cases h.pointer <;> simp [owned]
  · simp [owned]

@[simp] theorem isDue_shut (h : Handle α) : h.shut.isDue = false := by
  rw [Bool.eq_false_iff, Ne, isDue_iff]
  rintro ⟨isOpen, free, -⟩
  rw [readers_shut] at free
  rw [shut, if_pos free] at isOpen
  exact isOpen rfl

theorem isDue_map (f : α → β) (h : Handle α) : (h.map f).isDue = h.isDue := by
  rw [Bool.eq_iff_iff, isDue_iff, isDue_iff]
  simp [map]

end Handle

/-- What has a handle. -/
inductive Named where
  | object (h : HandleId)
  | error (e : ErrorId)
  deriving DecidableEq, Repr

def Named.error? : Named → Option ErrorId
  | .error e => some e
  | .object _ => none

@[simp] theorem Named.error?_eq_some {n : Named} {e : ErrorId} : n.error? = some e ↔ n = .error e := by
  cases n <;> simp [error?]

/-- The handle that a value names. Plain values name none. -/
def Value.named? : Value → Option Named
  | .object _ h => some (.object h)
  | .error e => some (.error e)
  | _ => none

namespace HostState

variable {s t u : HostState} {n : Named}

/-- A handle with its pointer, which is a reference or a message. -/
def handle? (s : HostState) : Named → Option (Handle (ReferenceId ⊕ Bytes))
  | .object h => (s.wrappers[h]?).map (·.lock.map .inl)
  | .error e => (s.errors[e]?).map (·.map .inr)

def isLocked (s : HostState) (n : Named) : Bool :=
  (s.handle? n).any (·.readers ≠ 0)

/-- Whether closing runs a destructor. -/
def isDue (s : HostState) (n : Named) : Bool :=
  (s.handle? n).any (·.isDue)

/-- The reference that is behind a handle. -/
def owned? (s : HostState) (n : Named) : Option ReferenceId :=
  ((s.handle? n).bind (·.pointer)).bind Sum.getLeft?

/-- An open handle with a destructor, which nobody reads. -/
def Releasable (s : HostState) (n : Named) : Prop :=
  ∃ l, s.handle? n = some l ∧ l.pointer ≠ none ∧ l.readers = 0 ∧ l.kind.owned = true

theorem owned?_object (s : HostState) (h : HandleId) : s.owned? (.object h) = s.reference? h := by
  rw [owned?, handle?, reference?]
  cases s.wrappers[h]? with
  | none => rfl
  | some w => cases pointer : w.lock.pointer <;> simp [Handle.map, pointer]

@[simp] theorem owned?_error (s : HostState) (e : ErrorId) : s.owned? (.error e) = none := by
  rw [owned?, handle?]
  cases s.errors[e]? with
  | none => rfl
  | some l => cases pointer : l.pointer <;> simp [Handle.map, pointer]

theorem errorMessage?_eq (s : HostState) (e : ErrorId) :
    Host.errorMessage? s e = ((s.handle? (.error e)).bind (·.pointer)).bind Sum.getRight? := by
  rw [Host.errorMessage?, handle?]
  cases s.errors[e]? with
  | none => rfl
  | some l => cases pointer : l.pointer <;> simp [Handle.map, pointer]

theorem isClosed_of_named {v : Value} (named : v.named? = some n) :
    Host.isClosed s v = (s.handle? n).elim true (·.isClosed) := by
  cases v with
  | object kind h =>
    cases named
    cases found : s.wrappers[h]? <;> simp [Host.isClosed, handle?, found, Handle.isClosed, Handle.map]
  | error e =>
    cases named
    cases found : s.errors[e]? <;> simp [Host.isClosed, handle?, found, Handle.isClosed, Handle.map]
  | _ => cases named

/-- No two handles have one reference. -/
theorem eq_of_owned? (distinct : s.armed.Nodup) {m : Named} {ref : ReferenceId} (owns : s.owned? n = some ref)
    (owns' : s.owned? m = some ref) : n = m := by
  cases n with
  | error e => simp at owns
  | object h =>
    cases m with
    | error e => simp at owns'
    | object h' =>
      rw [owned?_object] at owns owns'
      rw [reference?_inj distinct owns owns']

theorem isDue_iff : s.isDue n = true ↔ ∃ l, s.handle? n = some l ∧ l.isDue = true := by
  rw [isDue, Option.any_eq_true]

theorem isDue_iff_releasable : s.isDue n = true ↔ s.Releasable n := by
  rw [isDue_iff]
  simp only [Handle.isDue_iff, Releasable]

end HostState

namespace Host

open HostState

variable {s t u : HostState} {names names' ends ends' : List Named} {n : Named}

/-! ## What closing does -/

/-- Some handles were closed as far as nobody reads them, and the destructors of some were run. -/
structure Closing (names ends : List Named) (s t : HostState) : Prop where
  handles : ∀ n, t.handle? n = (s.handle? n).map fun l => if n ∈ names then l.shut else l
  isFor : ∀ h, t.vmOf? h = s.vmOf? h
  engine : t.engine = (ends.filterMap s.owned?).foldl Engine.giveBack s.engine
  freed : t.freed = s.freed ++ ends.filterMap Named.error?
  vms : t.vms = s.vms
  callbacks : t.callbacks = s.callbacks
  payloads : t.payloads = s.payloads

namespace Closing

theorem refl (s : HostState) : Closing [] [] s s :=
  ⟨fun n => by simp, fun _ => rfl, rfl, (List.append_nil _).symm, rfl, rfl, rfl⟩

/-- Readers are nobody's business. -/
theorem isLocked (closing : Closing names ends s t) (n : Named) : t.isLocked n = s.isLocked n := by
  rw [HostState.isLocked, closing.handles, HostState.isLocked, Option.any_map]
  congr 1
  funext l
  by_cases named : n ∈ names <;> simp [named]

theorem isDue_iff (closing : Closing names ends s t) : t.isDue n = true ↔ s.isDue n = true ∧ n ∉ names := by
  rw [HostState.isDue_iff, HostState.isDue_iff, closing.handles]
  constructor
  · rintro ⟨l, found, due⟩
    obtain ⟨l', there, rfl⟩ := Option.map_eq_some_iff.mp found
    by_cases named : n ∈ names
    · rw [if_pos named, Handle.isDue_shut] at due
      cases due
    · rw [if_neg named] at due
      exact ⟨⟨l', there, due⟩, named⟩
  · rintro ⟨⟨l, there, due⟩, other⟩
    exact ⟨l, by simp [there, other], due⟩

/-- What is named and not read is closed. -/
theorem isClosed (closing : Closing names ends s t) {v : Value} (named : v.named? = some n) (among : n ∈ names)
    (free : s.isLocked n = false) : t.handle? n = (s.handle? n).map Handle.disarmed ∧ isClosed t v = true := by
  have shut : t.handle? n = (s.handle? n).map Handle.disarmed := by
    rw [closing.handles]
    cases there : s.handle? n with
    | none => rfl
    | some l =>
      have unread : l.readers = 0 := by simpa [HostState.isLocked, there] using free
      simp [among, Handle.shut, unread]
  refine ⟨shut, ?_⟩
  rw [isClosed_of_named named, shut]
  cases s.handle? n <;> rfl

/-- What is read, or not named, is left alone. -/
theorem handle?_of_kept (closing : Closing names ends s t) (kept : n ∉ names ∨ s.isLocked n = true) :
    t.handle? n = s.handle? n := by
  rw [closing.handles]
  rcases kept with other | locked
  · simp [other]
  · obtain ⟨l, there, read⟩ := (Option.any_eq_true _ _).mp locked
    have unread : l.shut = l := if_neg (by simpa using read)
    simp [there, unread]

/-- What can still be closed was left alone. -/
theorem handle?_of_due (closing : Closing names ends s t) (due : t.isDue n = true) :
    t.handle? n = s.handle? n := by
  rw [closing.handles]
  simp [(closing.isDue_iff.mp due).2]

theorem trans (first : Closing names ends s t) (second : Closing names' ends' t u)
    (due : ∀ n ∈ ends', t.isDue n = true) : Closing (names ++ names') (ends ++ ends') s u where
  handles n := by
    rw [second.handles, first.handles, Option.map_map]
    congr 1
    funext l
    by_cases named : n ∈ names <;> by_cases named' : n ∈ names' <;> simp [named, named']
  isFor h := (second.isFor h).trans (first.isFor h)
  engine := by
    have same : ends'.filterMap t.owned? = ends'.filterMap s.owned? :=
      List.filterMap_congr fun n mem => by rw [owned?, first.handle?_of_due (due n mem), owned?]
    rw [second.engine, first.engine, same, List.filterMap_append, List.foldl_append]
  freed := by
    rw [second.freed, first.freed, List.filterMap_append, List.append_assoc]
  vms := second.vms.trans first.vms
  callbacks := second.callbacks.trans first.callbacks
  payloads := second.payloads.trans first.payloads

end Closing

/-! ## One value -/

theorem handle?_setWrapper {h : HandleId} {w w' : Wrapper} {engine : Engine} (found : s.wrappers[h]? = some w)
    (n : Named) :
    ({ s with wrappers := s.wrappers.set h w', engine } : HostState).handle? n =
      if n = .object h then some (w'.lock.map .inl) else s.handle? n := by
  obtain ⟨bound, -⟩ := List.getElem?_eq_some_iff.mp found
  cases n with
  | object h' =>
    by_cases same : h' = h
    · subst same
      simp [handle?, bound]
    · simp [handle?, same, List.getElem?_set_ne (Ne.symm same)]
  | error e => simp [handle?]

theorem handle?_setError {e : ErrorId} {l l' : Handle Bytes} {freed : List ErrorId}
    (found : s.errors[e]? = some l) (n : Named) :
    ({ s with errors := s.errors.set e l', freed } : HostState).handle? n =
      if n = .error e then some (l'.map .inr) else s.handle? n := by
  obtain ⟨bound, -⟩ := List.getElem?_eq_some_iff.mp found
  cases n with
  | object h => simp [handle?]
  | error e' =>
    by_cases same : e' = e
    · subst same
      simp [handle?, bound]
    · simp [handle?, same, List.getElem?_set_ne (Ne.symm same)]

/-- Nothing changes where a handle is missing or read. -/
theorem Closing.of_stays {n : Named} (stays : ∀ l, s.handle? n = some l → l.readers ≠ 0) :
    Closing [n] ((some n).filter s.isDue).toList s s := by
  have undue : s.isDue n = false := by
    rw [Bool.eq_false_iff, Ne, HostState.isDue_iff]
    rintro ⟨l, found, due⟩
    exact stays l found (Handle.isDue_iff.mp due).2.1
  refine ⟨fun m => ?_, fun _ => rfl, by simp [Option.filter, undue], by simp [Option.filter, undue], rfl, rfl, rfl⟩
  by_cases same : m = n
  · subst same
    cases found : s.handle? m with
    | none => rfl
    | some l => simp [Handle.shut, stays l found]
  · simp [same]

/-- A handle that is there and is not read is closed. -/
theorem Closing.of_shut {l : Handle (ReferenceId ⊕ Bytes)} (there : s.handle? n = some l) (free : l.readers = 0)
    (handles : ∀ m, t.handle? m = if m = n then some l.disarmed else s.handle? m)
    (isFor : ∀ h, t.vmOf? h = s.vmOf? h)
    (engine : t.engine = (if l.isDue then (s.owned? n).toList else []).foldl Engine.giveBack s.engine)
    (freed : t.freed = s.freed ++ if l.isDue then n.error?.toList else [])
    (vms : t.vms = s.vms) (callbacks : t.callbacks = s.callbacks) (payloads : t.payloads = s.payloads) :
    Closing [n] ((some n).filter s.isDue).toList s t := by
  have due : s.isDue n = l.isDue := by simp [HostState.isDue, there]
  have ends : ∀ {β : Type} (f : Named → Option β), ((some n).filter s.isDue).toList.filterMap f =
      if l.isDue then (f n).toList else [] := by
    intro β f
    cases run : l.isDue with
    | false => simp [Option.filter, due, run]
    | true =>
      simp only [Option.filter, due, run, if_true, Option.toList_some, filterMap_cons_toList, List.filterMap_nil,
        List.append_nil]
  refine ⟨fun m => ?_, isFor, by rw [engine, ends], by rw [freed, ends], vms, callbacks, payloads⟩
  rw [handles]
  by_cases same : m = n
  · simp [same, there, Handle.shut, free]
  · simp [same]

theorem closeObject_closing (h : HandleId) (s : HostState) :
    Closing [.object h] ((some (.object h)).filter s.isDue).toList s (after (closeObject h) s) := by
  unfold after
  rw [closeObject_run]
  cases found : s.wrappers[h]? with
  | none => exact .of_stays fun l there => by simp [handle?, found] at there
  | some w =>
    have there : s.handle? (.object h) = some (w.lock.map .inl) := by simp [handle?, found]
    dsimp only
    by_cases free : w.lock.readers = 0
    · rw [if_pos free]
      refine .of_shut there free (fun m => handle?_setWrapper found m) (fun h' => ?_) ?_ ?_ rfl rfl rfl
      · by_cases same : h' = h
        · rw [same, vmOf?, vmOf?, List.getElem?_set_self (List.getElem?_eq_some_iff.mp found).1, found]
          rfl
        · rw [vmOf?, vmOf?, List.getElem?_set_ne (Ne.symm same)]
      · have given : w.lock.toDestroy.toList = if (w.lock.map Sum.inl : Handle (ReferenceId ⊕ Bytes)).isDue then
            (s.owned? (.object h)).toList else [] := by
          rw [Handle.isDue_map, owned?_object, reference?, found, Option.bind_some, Handle.toDestroy_of_unread free]
          split <;> rfl
        rw [given]
      · simp [Named.error?]
    · rw [if_neg free]
      refine .of_stays fun l there' => ?_
      obtain rfl := Option.some.inj (there.symm.trans there')
      exact free

theorem closeError_closing (e : ErrorId) (s : HostState) :
    Closing [.error e] ((some (.error e)).filter s.isDue).toList s (after (closeError e) s) := by
  unfold after
  rw [closeError_run]
  cases found : s.errors[e]? with
  | none => exact .of_stays fun l there => by simp [handle?, found] at there
  | some l =>
    have there : s.handle? (.error e) = some (l.map .inr) := by simp [handle?, found]
    dsimp only
    by_cases free : l.readers = 0
    · rw [if_pos free]
      refine .of_shut there free (fun m => handle?_setError found m) (fun _ => rfl) (by simp) ?_ rfl rfl rfl
      rw [Handle.isDue_map, Handle.toDestroy_of_unread free]
      cases due : l.isDue with
      | false => rfl
      | true =>
        obtain ⟨message, armed⟩ := Option.ne_none_iff_exists'.mp (Handle.isDue_iff.mp due).1
        rw [armed]
        rfl
    · rw [if_neg free]
      refine .of_stays fun l' there' => ?_
      obtain rfl := Option.some.inj (there.symm.trans there')
      exact free

theorem close_closing (v : Value) (s : HostState) :
    Closing v.named?.toList (v.named?.filter s.isDue).toList s (after (close v) s) := by
  cases v with
  | object kind h => exact closeObject_closing h s
  | error e => exact closeError_closing e s
  | _ => exact .refl s

/-- Only what is read cannot be closed. -/
theorem close_run (v : Value) (s : HostState) :
    close v s = if v.named?.any s.isLocked then .error (.recursiveLock "close") (after (close v) s)
      else .ok () (after (close v) s) := by
  cases v with
  | object kind h =>
    have run := closeObject_run h s
    cases found : s.wrappers[h]? with
    | none =>
      rw [found] at run
      simp [close, after, run, Value.named?, isLocked, handle?, found]
    | some w =>
      rw [found] at run
      by_cases free : w.lock.readers = 0 <;>
        simp [close, after, run, free, Value.named?, isLocked, handle?, found, Handle.map]
  | error e =>
    have run := closeError_run e s
    cases found : s.errors[e]? with
    | none =>
      rw [found] at run
      simp [close, after, run, Value.named?, isLocked, handle?, found]
    | some l =>
      rw [found] at run
      by_cases free : l.readers = 0 <;>
        simp [close, after, run, free, Value.named?, isLocked, handle?, found, Handle.map]
  | _ => rfl

/-! ## Many values -/

/-- The runs of destructors when values are closed one after the other. -/
def destructions : List Value → HostState → List Named
  | [], _ => []
  | v :: vs, s => (v.named?.filter s.isDue).toList ++ destructions vs (after (close v) s)

theorem mem_destructions {vs : List Value} :
    n ∈ destructions vs s ↔ n ∈ vs.filterMap Value.named? ∧ s.isDue n = true := by
  induction vs generalizing s with
  | nil => simp [destructions]
  | cons v vs ih =>
    rw [destructions, List.mem_append, ih, (close_closing v s).isDue_iff, filterMap_cons_toList, List.mem_append]
    simp only [Option.mem_toList, Option.filter_eq_some_iff]
    tauto

/-- No destructor is run twice. -/
theorem nodup_destructions (vs : List Value) (s : HostState) : (destructions vs s).Nodup := by
  induction vs generalizing s with
  | nil => exact .nil
  | cons v vs ih =>
    refine List.nodup_append'.mpr ⟨?_, ih _, ?_⟩
    · cases v.named?.filter s.isDue <;> simp
    · intro n first later
      have named := (Option.filter_eq_some_iff.mp (Option.mem_toList.mp first)).1
      have due := (mem_destructions.mp later).2
      exact ((close_closing v s).isDue_iff.mp due).2 (Option.mem_toList.mpr named)

/-- What closing values one after the other comes to. -/
def closedAll (vs : List Value) (s : HostState) : HostState :=
  vs.foldl (fun s v => after (close v) s) s

theorem closedAll_closing (vs : List Value) (s : HostState) :
    Closing (vs.filterMap Value.named?) (destructions vs s) s (closedAll vs s) := by
  induction vs generalizing s with
  | nil => exact .refl s
  | cons v vs ih =>
    rw [filterMap_cons_toList]
    exact (close_closing v s).trans (ih _) fun n mem => (mem_destructions.mp mem).2

/-- The failures of closing values that are read. -/
def refusals (s : HostState) (vs : List Value) : List Error :=
  (vs.filter fun v => v.named?.any s.isLocked).map fun _ => .recursiveLock "close"

theorem attempts_run (vs : List Value) (s : HostState) :
    vs.mapM (fun v => attempt (close v)) s =
      .ok (vs.map fun v => if v.named?.any s.isLocked then .error (.recursiveLock "close") else .ok ())
        (closedAll vs s) := by
  induction vs generalizing s with
  | nil => rfl
  | cons v vs ih =>
    have still : (after (close v) s).isLocked = s.isLocked := funext (close_closing v s).isLocked
    have first : attempt (close v) s =
        .ok (if v.named?.any s.isLocked then .error (.recursiveLock "close") else .ok ()) (after (close v) s) := by
      rw [attempt_run, close_run]
      by_cases locked : v.named?.any s.isLocked = true
      · rw [if_pos locked, if_pos locked]
      · rw [if_neg locked, if_neg locked]
    rw [List.mapM_cons, bind_run, first]
    dsimp only
    rw [bind_run, ih, still]
    rfl

/-- All failures are told together. -/
theorem closeAll_run (vs : List Value) (s : HostState) :
    closeAll vs s = ofResult (Error.together (refusals s vs)) (closedAll vs s) := by
  rw [closeAll, bind_run, attempts_run]
  refine congrArg (fun causes => ofResult (Error.together causes) (closedAll vs s)) ?_
  unfold refusals
  induction vs with
  | nil => rfl
  | cons v vs ih => by_cases locked : v.named?.any s.isLocked = true <;> simp [locked, ih]

theorem after_closeAll (vs : List Value) (s : HostState) : after (closeAll vs) s = closedAll vs s := by
  unfold after
  rw [closeAll_run]
  cases Error.together (refusals s vs) <;> rfl

/-- As much is closed as can be. -/
structure ClosesAll (vs : List Value) (s t : HostState) : Prop where
  /-- What is named and not read is closed. -/
  closed : ∀ v ∈ vs, ∀ n ∈ v.named?, s.isLocked n = false →
    t.handle? n = (s.handle? n).map Handle.disarmed ∧ isClosed t v = true
  /-- What is read, or not named, has the handle that it had. -/
  kept : ∀ n, n ∉ vs.filterMap Value.named? ∨ s.isLocked n = true → t.handle? n = s.handle? n
  /-- It can be used as it could. -/
  usable : ∀ v d, s.datum? v = some d → (∀ n ∈ v.named?, n ∈ vs.filterMap Value.named? → s.isLocked n = true) →
    t.datum? v = some d
  /-- The destructors of the objects among what is named that are open, not read, and have one give the references
  back that are behind them, each once and no other. -/
  returned : ∃ refs : List ReferenceId, refs.Nodup ∧ t.engine = refs.foldl Engine.giveBack s.engine ∧
    ∀ ref, ref ∈ refs ↔ ∃ n ∈ vs.filterMap Value.named?, s.Releasable n ∧ s.owned? n = some ref
  /-- Those of the error values free their messages, each once and no other. -/
  freed : ∃ errors : List ErrorId, errors.Nodup ∧ t.freed = s.freed ++ errors ∧
    ∀ e, e ∈ errors ↔ .error e ∈ vs.filterMap Value.named? ∧ s.Releasable (.error e)
  /-- Nothing else is touched. -/
  others : (∀ h, t.vmOf? h = s.vmOf? h) ∧ t.vms = s.vms ∧ t.callbacks = s.callbacks ∧ t.payloads = s.payloads

theorem closedAll_closesAll (vs : List Value) (distinct : s.armed.Nodup) : ClosesAll vs s (closedAll vs s) := by
  have closing := closedAll_closing vs s
  have runs : ∀ {n}, n ∈ destructions vs s ↔ n ∈ vs.filterMap Value.named? ∧ s.Releasable n := by
    intro n
    rw [mem_destructions, isDue_iff_releasable]
  have spared : ∀ {n ref}, s.owned? n = some ref → (n ∈ vs.filterMap Value.named? → s.isLocked n = true) →
      ref ∉ (destructions vs s).filterMap s.owned? := by
    intro n ref owns others given
    obtain ⟨m, ends, owns'⟩ := List.mem_filterMap.mp given
    obtain rfl := eq_of_owned? distinct owns owns'
    obtain ⟨named, l, there, -, free, -⟩ := runs.mp ends
    have locked := others named
    simp [isLocked, there, free] at locked
  refine ⟨fun v mem n named free => ?_, fun n => closing.handle?_of_kept, fun v d stands others => ?_,
    ⟨_, ?_, closing.engine, fun ref => ?_⟩, ⟨_, ?_, closing.freed, fun e => ?_⟩,
    closing.isFor, closing.vms, closing.callbacks, closing.payloads⟩
  · exact closing.isClosed named (List.mem_filterMap.mpr ⟨v, mem, named⟩) free
  · have same : ∀ n ∈ v.named?, (closedAll vs s).handle? n = s.handle? n := fun n named =>
      closing.handle?_of_kept (Decidable.or_iff_not_imp_left.mpr fun among =>
        others n named (Decidable.not_not.mp among))
    cases v with
    | object kind h =>
      obtain ⟨id, leads, rfl⟩ := Option.map_eq_some_iff.mp stands
      obtain ⟨ref, armed, target⟩ := Option.bind_eq_some_iff.mp leads
      have owns : s.owned? (.object h) = some ref := (owned?_object s h).trans armed
      have armed' : (closedAll vs s).reference? h = some ref := by
        rw [← owned?_object, owned?, same _ rfl]
        exact owns
      have target' : (closedAll vs s).engine.target? ref = some id := by
        rw [closing.engine, Engine.target?_foldl_giveBack (spared owns (others _ rfl))]
        exact target
      simp only [HostState.datum?, armed', Option.bind_some, target', Option.map_some]
    | error e =>
      have still : errorMessage? (closedAll vs s) e = errorMessage? s e := by
        rw [errorMessage?_eq, same _ rfl, errorMessage?_eq]
      exact (congrArg (Option.map RawValue.error) still).trans stands
    | _ => exact stands
  · exact (nodup_destructions vs s).filterMap fun n m ref owns owns' => eq_of_owned? distinct owns owns'
  · rw [List.mem_filterMap]
    simp only [runs, and_assoc]
  · refine (nodup_destructions vs s).filterMap fun n m e => ?_
    rintro named named'
    rw [Option.mem_def, Named.error?_eq_some] at named named'
    rw [named, named']
  · rw [← runs, List.mem_filterMap]
    simp only [Named.error?_eq_some, exists_eq_right]

/-- **Closing many values closes all it can, and reports all it cannot.** Every handle that a value names is
closed unless it is read, and the destructor of each that was open is run once, however often it is named: the
engine is given back the references of the objects, and the messages of the error values are freed, each once.
What was closed before is left alone. What is read can be used as before, since no other wrapper has its reference
(which `HostState.Balanced.nodup_armed` says of every orderly host). The work succeeds if no position names what
is read, fails with the one refusal if one does, and otherwise with all of them, one for every such position.
Where nothing that is named is read any more, it succeeds, and all is closed. -/
theorem closeAll_closes (vs : List Value) (s : HostState) (distinct : s.armed.Nodup) :
    let t := after (closeAll vs) s
    let locked := vs.filter fun v => v.named?.any s.isLocked
    (locked.length = 0 → closeAll vs s = .ok () t) ∧
    (locked.length = 1 → closeAll vs s = .error (.recursiveLock "close") t) ∧
    (2 ≤ locked.length →
      closeAll vs s = .error (.closeMany (locked.map fun _ => .recursiveLock "close")) t) ∧
    ClosesAll vs s t ∧
    ∀ u : HostState, (∀ v ∈ vs, ∀ n ∈ v.named?, u.isLocked n = false) →
      closeAll vs u = .ok () (after (closeAll vs) u) ∧
        ∀ v ∈ vs, v.named? ≠ none → isClosed (after (closeAll vs) u) v = true := by
  intro t locked
  have ended : t = closedAll vs s := after_closeAll vs s
  have told : refusals s vs = locked.map fun _ => .recursiveLock "close" := rfl
  refine ⟨fun none => ?_, fun one => ?_, fun many => ?_, ?_, fun u free => ?_⟩
  · rw [closeAll_run, told, List.length_eq_zero_iff.mp none, ended]
    rfl
  · obtain ⟨v, only⟩ := List.length_eq_one_iff.mp one
    rw [closeAll_run, told, only, ended]
    rfl
  · rw [closeAll_run, told, ended]
    match locked, many with
    | v :: v' :: rest, _ => rfl
  · rw [ended]
    exact closedAll_closesAll vs distinct
  · have unread : refusals u vs = [] := by
      refine List.map_eq_nil_iff.mpr (List.filter_eq_nil_iff.mpr fun v mem => ?_)
      cases named : v.named? with
      | none => simp
      | some n => simp [free v mem n named]
    rw [after_closeAll]
    refine ⟨by rw [closeAll_run, unread]; rfl, fun v mem names => ?_⟩
    obtain ⟨n, named⟩ := Option.ne_none_iff_exists'.mp names
    exact ((closedAll_closing vs u).isClosed named (List.mem_filterMap.mpr ⟨v, mem, named⟩) (free v mem n named)).2

/-- A VM with two tables and an error, where the first table is in use. -/
def tableInUse : HostState :=
  after (do
    let _ ← newVm
    let _ ← createTable 0
    let _ ← createTable 0
    let _ ← newError [98]
    enterObject 0) {}

/-- The first table is named twice and in use, the second is named twice and free. -/
theorem closeAll_closes_of_use :
    let s := tableInUse
    let vs := [Value.object .table 0, .object .table 1, .integer 3, .object .table 1, .error 0, .object .table 0]
    let t := after (closeAll vs) s
    s.armed.Nodup ∧
      closeAll vs s = .error (.closeMany [.recursiveLock "close", .recursiveLock "close"]) t ∧
      t.datum? (.object .table 0) = some (.object .table 1) ∧ isClosed t (.object .table 1) = true ∧
      t.engine.returned = [1] ∧ t.freed = [0] ∧ closeAll vs (after (leaveObject 0) t) =
        .ok () (after (closeAll vs) (after (leaveObject 0) t)) := by
  intro s vs t
  have distinct : s.armed.Nodup := by decide +kernel
  obtain ⟨-, -, many, closes, again⟩ := closeAll_closes vs s distinct
  refine ⟨distinct, many (by decide +kernel), closes.usable _ _ rfl ?_, (closes.closed _ ?_ _ rfl rfl).2, ?_, ?_,
    (again _ ?_).1⟩
  · decide +kernel
  · simp [vs]
  · decide +kernel
  · decide +kernel
  · decide +kernel

end Host
end ScriptHost

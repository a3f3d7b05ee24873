/-
Checking and converting accept the same lists (`Host.checkAll_agrees`). Both take the values one by one, and both
refuse what is closed and what belongs to another VM. The check asks first whether a value is closed. The
conversion asks first whose it is, and that it is closed it finds out only when it reads it. Before a failed
conversion ends it gives back what it made, the last one first, so that of the new references only empty places
are left (`HostState.withdrawn`).
-/
import ScriptHost.Proofs.Host.Inert
import ScriptHost.Proofs.Host.RoundTrip

namespace ScriptHost

namespace HostState

/-- References that were made and given back. -/
def withdrawn (s : HostState) (refs : List ReferenceId) : HostState :=
  { s with engine := { s.engine with
    references := s.engine.references ++ List.replicate refs.length none
    returned := refs ++ s.engine.returned } }

theorem withdrawn_nil (s : HostState) : s.withdrawn [] = s := by
  simp [withdrawn]

/-- They keep nothing alive. -/
theorem heldObjects_withdrawn (s : HostState) (refs : List ReferenceId) :
    (s.withdrawn refs).engine.heldObjects = s.engine.heldObjects := by
  simp [withdrawn, Engine.heldObjects]

/-- A reference is given back after those that were made later. -/
theorem giveBack_withdrawn (s : HostState) (id : ObjectId) (refs : List ReferenceId) :
    { (s.refer [id]).withdrawn refs with
      engine := ((s.refer [id]).withdrawn refs).engine.giveBack s.engine.references.length } =
      s.withdrawn (s.engine.references.length :: refs) := by
  simp [withdrawn, refer, Engine.giveBack, List.replicate_succ]

end HostState

namespace Host

variable {s t : HostState} {vm : VmId} {v : Value}

/-! ## What is refused -/

theorem isClosed_error (s : HostState) (e : ErrorId) : isClosed s (.error e) = (errorMessage? s e).isNone := by
  rw [isClosed, errorMessage?]
  cases s.errors[e]? <;> rfl

/-- A value that belongs to another VM. -/
def Foreign (s : HostState) (vm : VmId) (v : Value) : Prop :=
  ∃ o ∈ owner? s v, o ≠ vm

instance : Decidable (Foreign s vm v) :=
  inferInstanceAs (Decidable (∃ o ∈ owner? s v, o ≠ vm))

def Accepted (s : HostState) (vm : VmId) (v : Value) : Prop :=
  isClosed s v = false ∧ ¬ Foreign s vm v

instance : Decidable (Accepted s vm v) :=
  inferInstanceAs (Decidable (_ ∧ _))

theorem isClosed_of_alike (alike : s.Alike t) (errors : t.errors = s.errors) (v : Value) :
    isClosed t v = isClosed s v := by
  cases v with
  | object kind h => rw [t.isClosed_object, s.isClosed_object, alike.reference?]
  | error e => rw [isClosed_error, isClosed_error, errorMessage?, errorMessage?, errors]
  | _ => rfl

theorem Accepted.alike {v : Value} (accepted : Accepted s vm v) (alike : s.Alike t) (errors : t.errors = s.errors) :
    Accepted t vm v := by
  have owner : owner? t v = owner? s v := congrArg v.object?.bind (funext alike.vmOf?)
  refine ⟨(isClosed_of_alike alike errors v).trans accepted.1, ?_⟩
  rw [Foreign, owner]
  exact accepted.2

/-- What checking says of a value that is refused. -/
def checkError (s : HostState) (v : Value) : Error :=
  if isClosed s v then .closedObject else .foreignVm v.kind.name

/-- What converting says of it. -/
def sendError (s : HostState) (vm : VmId) (v : Value) : Error :=
  if Foreign s vm v then .foreignVm v.kind.name else .closedObject

theorem sendError_ne_abort (s : HostState) (vm : VmId) (v : Value) (how : Abort) :
    sendError s vm v ≠ .abort how := by
  rw [sendError]
  split <;> nofun

/-- The two say the same of a value that is refused for one reason only. -/
theorem checkError_eq_or (refused : ¬ Accepted s vm v) :
    checkError s v = sendError s vm v ∨
      isClosed s v = true ∧ Foreign s vm v ∧ checkError s v = .closedObject ∧
        sendError s vm v = .foreignVm v.kind.name := by
  rw [checkError, sendError]
  cases closed : isClosed s v with
  | false =>
    have foreign : Foreign s vm v := Decidable.byContradiction fun own => refused ⟨closed, own⟩
    rw [if_pos foreign]
    exact .inl rfl
  | true =>
    by_cases foreign : Foreign s vm v
    · rw [if_pos foreign]
      exact .inr ⟨rfl, foreign, rfl, rfl⟩
    · rw [if_neg foreign]
      exact .inl rfl

theorem owned_of_not_foreign (own : ¬ Foreign s vm v) : ∀ o ∈ owner? s v, o = vm :=
  fun o isOwner => Decidable.byContradiction fun other => own ⟨o, isOwner, other⟩

theorem checkOwner_of_foreign (foreign : Foreign s vm v) : checkOwner vm v s = .error (.foreignVm v.kind.name) s := by
  obtain ⟨o, isOwner, other⟩ := foreign
  have found : owner? s v = some o := isOwner
  simp only [checkOwner, bind_run, get_run, found, if_neg other, throw_run]

/-! ## Checking -/

theorem checkAll_cons (v : Value) (vs : List Value) :
    checkAll vm (v :: vs) s =
      if isClosed s v then .error .closedObject s
      else match checkOwner vm v s with
        | .ok _ t => checkAll vm vs t
        | .error e t => .error e t := by
  simp only [checkAll, bind_run, get_run]
  split
  · rfl
  · rw [bind_run]
    cases checkOwner vm v s <;> rfl

/-- Values that are accepted are passed over. -/
theorem checkAll_append {before : List Value} (accepted : ∀ w ∈ before, Accepted s vm w) (after : List Value) :
    checkAll vm (before ++ after) s = checkAll vm after s := by
  induction before with
  | nil => rfl
  | cons w before ih =>
    obtain ⟨isOpen, own⟩ := accepted w List.mem_cons_self
    rw [List.cons_append, checkAll_cons, isOpen, checkOwner_of_owned (owned_of_not_foreign own)]
    exact ih fun w mem => accepted w (List.mem_cons_of_mem _ mem)

theorem checkAll_of_accepted {vs : List Value} (accepted : ∀ w ∈ vs, Accepted s vm w) :
    checkAll vm vs s = .ok () s := by
  rw [← List.append_nil vs, checkAll_append accepted]
  rfl

theorem checkAll_of_refused (refused : ¬ Accepted s vm v) (after : List Value) :
    checkAll vm (v :: after) s = .error (checkError s v) s := by
  rw [checkAll_cons, checkError]
  cases closed : isClosed s v with
  | true => rfl
  | false =>
    have foreign : Foreign s vm v := Decidable.byContradiction fun own => refused ⟨closed, own⟩
    rw [checkOwner_of_foreign foreign]
    rfl

/-! ## Converting -/

theorem secondReference_of_closedObject {kind : ObjectKind} {object : HandleId} (isOpen : s.machine? vm ≠ none)
    (own : ∀ o ∈ s.vmOf? object, o = vm) (closed : s.reference? object = none) :
    secondReference kind object s = .error .closedObject s := by
  refine bind_eq_error.mpr (.inl ?_)
  cases isFor : s.vmOf? object with
  | none => exact withObject_of_missing isFor _
  | some o =>
    obtain rfl := own o isFor
    obtain ⟨machine, opened⟩ := Option.ne_none_iff_exists'.mp isOpen
    exact withObject_of_closedObject isFor opened closed _

/-- A value that is refused changes nothing. -/
theorem send_of_refused (isOpen : s.machine? vm ≠ none) (refused : ¬ Accepted s vm v) :
    send vm v s = .error (sendError s vm v) s := by
  unfold send
  rw [bind_run, sendError]
  by_cases foreign : Foreign s vm v
  · rw [checkOwner_of_foreign foreign, if_pos foreign]
  · have closed : isClosed s v = true := by
      refine Bool.of_not_eq_false fun isOpen => refused ⟨isOpen, foreign⟩
    have own := owned_of_not_foreign foreign
    rw [checkOwner_of_owned own, if_neg foreign]
    cases v with
    | object kind h =>
      have none : s.reference? h = none := Option.isNone_iff_eq_none.mp (s.isClosed_object kind h ▸ closed)
      exact bind_eq_error.mpr (.inl (secondReference_of_closedObject isOpen own none))
    | error e =>
      have none : errorMessage? s e = none := Option.isNone_iff_eq_none.mp (isClosed_error s e ▸ closed)
      simp only [bind_run, get_run, none]
      rfl
    | _ => nomatch closed

/-- What was just made ready is taken back, after what was made later. -/
theorem release_of_new {c : Crossing} {d : Datum} (crosses : (s.refer d.objectId?.toList).engine.datum? c = some d)
    (new : ∀ ref ∈ c.carried, s.engine.references.length ≤ ref) (refs : List ReferenceId) :
    ∃ refs', release c ((s.refer d.objectId?.toList).withdrawn refs) = .ok () (s.withdrawn refs') := by
  cases c with
  | object kind pointer =>
    obtain ⟨id, leads, rfl⟩ := Option.map_eq_some_iff.mp crosses
    obtain ⟨ref, rfl, target⟩ := Option.bind_eq_some_iff.mp leads
    -- The reference is the one that was made for the value.
    have last : ref = s.engine.references.length := by
      have bound : ref < s.engine.references.length + 1 := by
        simpa [HostState.refer, RawValue.objectId?] using Engine.lt_of_target? target
      exact Nat.le_antisymm (Nat.le_of_lt_succ bound) (new ref List.mem_cons_self)
    exact ⟨ref :: refs, last ▸ congrArg _ (s.giveBack_withdrawn id refs)⟩
  | _ =>
    obtain rfl := Option.some.inj crosses
    have same : s.refer [] = s := s.refer_nil
    exact ⟨refs, congrArg (fun t => EStateM.Result.ok () (HostState.withdrawn t refs)) same⟩

/-- What is converted before a value that is refused is taken back. -/
theorem sendAll_of_refused {before : List Value} {ds : List Datum} (isOpen : s.machine? vm ≠ none)
    (faultless : s.engine.faults = []) (own : ∀ w ∈ before, ¬ Foreign s vm w)
    (stand : List.Forall₂ (fun w d => s.datum? w = some d) before ds) (refused : ¬ Accepted s vm v)
    (after : List Value) :
    ∃ refs, sendAll vm (before ++ v :: after) s = .error (sendError s vm v) (s.withdrawn refs) := by
  induction before generalizing s ds with
  | nil =>
    refine ⟨[], ?_⟩
    rw [s.withdrawn_nil, List.nil_append, sendAll, bind_run, send_of_refused isOpen refused]
  | cons w before ih =>
    cases stand with
    | @cons _ d _ ds stands stand =>
      obtain ⟨c, sent, crosses, new⟩ :=
        send_of_datum isOpen faultless (owned_of_not_foreign (own w List.mem_cons_self)) stands
      have later : List.Forall₂ (fun w d' => (s.refer d.objectId?.toList).datum? w = some d') before ds :=
        stand.imp fun w d' stands => HostState.datum?_refer stands _
      obtain ⟨refs, failed⟩ := @ih (s.refer d.objectId?.toList) ds isOpen faultless
        (fun w mem => own w (List.mem_cons_of_mem _ mem)) later refused
      obtain ⟨refs', released⟩ := release_of_new crosses new refs
      refine ⟨refs', ?_⟩
      simp only [List.cons_append, sendAll, bind_run, sent, tryCatch_run, failed, released, throw_run]
      rfl

/-! ## Kinds -/

theorem kind_of_engineDatum {e : Engine} {c : Crossing} {d : Datum} (stands : e.datum? c = some d) :
    c.kind = d.kind := by
  cases c with
  | object kind pointer =>
    obtain ⟨id, -, rfl⟩ := Option.map_eq_some_iff.mp stands
    rfl
  | _ =>
    obtain rfl := Option.some.inj stands
    rfl

theorem kind_of_datum {d : Datum} (stands : s.datum? v = some d) : v.kind = d.kind := by
  cases v with
  | object kind h =>
    obtain ⟨id, -, rfl⟩ := Option.map_eq_some_iff.mp stands
    rfl
  | error e =>
    obtain ⟨message, -, rfl⟩ := Option.map_eq_some_iff.mp stands
    rfl
  | _ =>
    obtain rfl := Option.some.inj stands
    rfl

theorem kinds_of_data {t : HostState} {vs : List Value} {list : RawList (Option ReferenceId)} {ds : List Datum}
    (stand : List.Forall₂ (fun v d => s.datum? v = some d) vs ds)
    (cross : List.Forall₂ (fun c d => t.engine.datum? c = some d) list ds) :
    list.map RawValue.kind = vs.map Value.kind := by
  induction stand generalizing list with
  | nil =>
    cases cross
    rfl
  | cons stands _ ih =>
    cases cross with
    | cons crosses cross =>
      rw [List.map_cons, List.map_cons, ih cross, kind_of_engineDatum crosses, kind_of_datum stands]

/-! ## The agreement -/

/-- Some work on lists passes over some values and fails with the one after them. -/
structure FailsAfter {α : Type} (work : List Value → Host α) (s : HostState) (before : List Value) (v : Value)
    (e : Error) : Prop where
  passes : ∃ a t, work before s = .ok a t
  fails : ∃ t, work (before ++ [v]) s = .error e t

theorem machine?_of_open (isOpen : isVmClosed s vm = false) : s.machine? vm ≠ none := by
  intro closed
  rw [isVmClosed_of_closed closed] at isOpen
  cases isOpen

section Agreement

variable {u : Usage} {before : List Value}

theorem sendAll_of_accepted (orderly : u.Orderly) (isOpen : u.host.machine? vm ≠ none)
    (faultless : u.host.engine.faults = []) {vs : List Value} (accepted : ∀ w ∈ vs, Accepted u.host vm w) :
    ∃ list t, sendAll vm vs u.host = .ok list t ∧ list.map RawValue.kind = vs.map Value.kind := by
  obtain ⟨ds, stand⟩ := exists_data orderly fun w mem => (accepted w mem).1
  obtain ⟨list, ids, sent, cross, -⟩ :=
    sendAll_of_data isOpen faultless (fun w mem => owned_of_not_foreign (accepted w mem).2) stand
  exact ⟨list, _, sent, kinds_of_data stand cross⟩

theorem sendAll_withdraws (orderly : u.Orderly) (isOpen : u.host.machine? vm ≠ none)
    (faultless : u.host.engine.faults = []) (accepted : ∀ w ∈ before, Accepted u.host vm w)
    (refused : ¬ Accepted u.host vm v) (after : List Value) :
    ∃ refs, sendAll vm (before ++ v :: after) u.host = .error (sendError u.host vm v) (u.host.withdrawn refs) := by
  obtain ⟨ds, stand⟩ := exists_data orderly fun w mem => (accepted w mem).1
  exact sendAll_of_refused isOpen faultless (fun w mem => (accepted w mem).2) stand refused after

/-- Values are all accepted, or there is a first that is not. -/
theorem accepted_or_first (s : HostState) (vm : VmId) (vs : List Value) :
    (∀ w ∈ vs, Accepted s vm w) ∨
      ∃ before v after, vs = before ++ v :: after ∧ (∀ w ∈ before, Accepted s vm w) ∧ ¬ Accepted s vm v := by
  cases found : vs.find? fun w => !decide (Accepted s vm w) with
  | none =>
    refine .inl fun w mem => ?_
    simpa using List.find?_eq_none.mp found w mem
  | some v =>
    obtain ⟨refused, before, after, rfl, accepted⟩ := List.find?_eq_some_iff_append.mp found
    exact .inr ⟨before, v, after, rfl, fun w mem => by simpa using accepted w mem, by simpa using refused⟩

/-- **Checking and converting accept the same lists.** On an open VM whose engine has no failures to come, one
succeeds just if the other does. If both fail, they do so with the same value, and with the same error unless this
value is both closed and of another VM. What is converted has the length, the order and the tags of the
values, and a conversion that fails leaves everything alive as often as it was. -/
theorem checkAll_agrees (u : Usage) (reached : u.Reachable) {vm : VmId} (isOpen : isVmClosed u.host vm = false)
    (faultless : u.host.engine.faults = []) (vs : List Value) :
    (checkAll vm vs u.host = .ok () u.host ↔ ∃ list t, sendAll vm vs u.host = .ok list t) ∧
      (∀ e e' t t', checkAll vm vs u.host = .error e t → sendAll vm vs u.host = .error e' t' →
        ∃ before v after, vs = before ++ v :: after ∧ FailsAfter (checkAll vm) u.host before v e ∧
          FailsAfter (sendAll vm) u.host before v e' ∧
          (e = e' ∨ isClosed u.host v = true ∧ (∃ o ∈ owner? u.host v, o ≠ vm) ∧ e = .closedObject ∧
            e' = .foreignVm v.kind.name)) ∧
      (∀ list t, sendAll vm vs u.host = .ok list t → list.map RawValue.kind = vs.map Value.kind) ∧
      ∀ e t, sendAll vm vs u.host = .error e t →
        t.engine.heldObjects = u.host.engine.heldObjects ∧
          ∀ id, t.engine.references.count (some id) = u.host.engine.references.count (some id) := by
  have orderly := reached.orderly
  have opened := machine?_of_open isOpen
  rcases accepted_or_first u.host vm vs with accepted | ⟨before, v, after, rfl, accepted, refused⟩
  · have checked := checkAll_of_accepted accepted
    obtain ⟨list, t, sent, kinds⟩ := sendAll_of_accepted orderly opened faultless accepted
    rw [checked, sent]
    refine ⟨⟨fun _ => ⟨list, t, rfl⟩, fun _ => rfl⟩, nofun, fun list' t' same => ?_, nofun⟩
    obtain ⟨rfl, rfl⟩ := EStateM.Result.ok.inj same
    exact kinds
  · have checked : ∀ after, checkAll vm (before ++ v :: after) u.host = .error (checkError u.host v) u.host := by
      intro after
      rw [checkAll_append accepted, checkAll_of_refused refused]
    have withdrawn := sendAll_withdraws orderly opened faultless accepted refused
    obtain ⟨refs, sent⟩ := withdrawn after
    rw [checked, sent]
    refine ⟨⟨nofun, nofun⟩, fun e e' t t' same same' => ?_, nofun, fun e t same => ?_⟩
    · obtain ⟨rfl, -⟩ := EStateM.Result.error.inj same
      obtain ⟨rfl, -⟩ := EStateM.Result.error.inj same'
      obtain ⟨list, t, passed, -⟩ := sendAll_of_accepted orderly opened faultless accepted
      obtain ⟨refs', failed⟩ := withdrawn []
      exact ⟨before, v, after, rfl, ⟨⟨(), _, checkAll_of_accepted accepted⟩, _, checked []⟩,
        ⟨⟨list, t, passed⟩, _, failed⟩, checkError_eq_or refused⟩
    · obtain ⟨-, rfl⟩ := EStateM.Result.error.inj same
      refine ⟨u.host.heldObjects_withdrawn refs, fun id => ?_⟩
      simp [HostState.withdrawn, List.count_append, List.count_replicate]

end Agreement

/-- A string of each of two VMs, the second one closed. -/
def stringsOfTwo : Usage where
  host := after (do
    let _ ← newVm
    let _ ← newVm
    let _ ← createString 0 [97]
    let _ ← createString 1 [98]
    close (.object .string 1)) {}
  loose := []
  uses := []

theorem stringsOfTwo_reachable : stringsOfTwo.Reachable := by
  have first := (Usage.Reachable.start []).ask .newVm trivial
  have second := first.ask .newVm trivial
  have string := second.ask (.createString 0 [97]) trivial
  have other := string.ask (.createString 1 [98]) trivial
  exact other.ask (.close (.object .string 1)) trivial

/-- The second of two strings is refused, by the check since it is closed and by the conversion since it is of
another VM. -/
theorem checkAll_agrees_of_two :
    let s := stringsOfTwo.host
    let vs := [Value.object .string 0, .object .string 1]
    stringsOfTwo.Reachable ∧ isVmClosed s 0 = false ∧ s.engine.faults = [] ∧
      ∃ before v after, vs = before ++ v :: after ∧ FailsAfter (checkAll 0) s before v .closedObject ∧
        FailsAfter (sendAll 0) s before v (.foreignVm "string") ∧
        ∃ t, sendAll 0 vs s = .error (.foreignVm "string") t ∧ t.engine.heldObjects = s.engine.heldObjects := by
  intro s vs
  have reached : stringsOfTwo.Reachable := stringsOfTwo_reachable
  have isOpen : isVmClosed s 0 = false := by decide +kernel
  have faultless : s.engine.faults = [] := by decide +kernel
  have accepted : ∀ w ∈ [Value.object .string 0], Accepted s 0 w := by decide +kernel
  have closed : isClosed s (.object .string 1) = true := by decide +kernel
  have foreign : Foreign s 0 (.object .string 1) := by decide +kernel
  have refused : ¬ Accepted s 0 (.object .string 1) := fun accepted => accepted.2 foreign
  have checked : checkAll 0 vs s = .error .closedObject s := by
    have error : checkError s (.object .string 1) = .closedObject := if_pos closed
    rw [← error]
    exact (checkAll_append accepted _).trans (checkAll_of_refused refused [])
  obtain ⟨t, sent⟩ : ∃ t, sendAll 0 vs s = .error (.foreignVm "string") t := by
    have error : sendError s 0 (.object .string 1) = .foreignVm "string" := if_pos foreign
    obtain ⟨refs, sent⟩ := sendAll_withdraws reached.orderly (machine?_of_open isOpen) faultless accepted refused []
    exact ⟨_, error ▸ sent⟩
  obtain ⟨-, agree, -, settled⟩ := checkAll_agrees stringsOfTwo reached isOpen faultless vs
  obtain ⟨before, v, after, whole, fails, fails', -⟩ := agree _ _ _ _ checked sent
  exact ⟨reached, isOpen, faultless, before, v, after, whole, fails, fails', t, sent, (settled _ _ sent).1⟩

end Host
end ScriptHost

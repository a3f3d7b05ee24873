/-
The way through the engine and back (`Host.call_returns_arguments`): the call of a function of the host that
returns its arguments answers with values that stand for what the arguments stand for. They are new wrappers
of the VM, and the caller's own stay as they are.
-/
import ScriptHost.Proofs.Host.Inside
import ScriptHost.Proofs.Host.Lasting
import ScriptHost.Proofs.Host.Lawful
import ScriptHost.Proofs.Host.Meaning

namespace ScriptHost

/-- Two lists that are each related to a third. -/
theorem forall₂_of_both {α β γ : Type} {R : α → γ → Prop} {S : β → γ → Prop} {as : List α} {bs : List β}
    {cs : List γ} (first : List.Forall₂ R as cs) (second : List.Forall₂ S bs cs) :
    List.Forall₂ (fun a b => ∃ c, R a c ∧ S b c) as bs := by
  induction first generalizing bs with
  | nil =>
    cases second
    exact .nil
  | cons related _ ih =>
    cases second with
    | cons related' second => exact .cons ⟨_, related, related'⟩ (ih second)

namespace HostState

variable {s t : HostState}

/-! ## What stays while others work -/

/-- Guards are nothing to what a value stands for. -/
theorem Alike.datum? (alike : s.Alike t) (errors : t.errors = s.errors) (v : Value) : t.datum? v = s.datum? v := by
  cases v with
  | object kind h => simp only [HostState.datum?, alike.reference?, alike.engine]
  | error e => simp only [HostState.datum?, Host.errorMessage?, errors]
  | _ => rfl

namespace Lasts

theorem target?_of_live (lasts : s.Lasts t) {ref : ReferenceId} {id : ObjectId}
    (leads : s.engine.target? ref = some id) (live : t.engine.target? ref ≠ none) :
    t.engine.target? ref = some id := by
  obtain ⟨id', leads', rfl⟩ := lasts.references.of_live leads live
  exact leads'

/-- A function is what it was as long as it is there. -/
theorem deref?_function (lasts : s.Lasts t) (sound : t.engine.Sound) {ref : ReferenceId} {body : FunctionBody}
    {environment : Option ObjectId} (found : s.engine.deref? ref = some (.function body environment))
    (live : t.engine.target? ref ≠ none) : t.engine.deref? ref = some (.function body environment) := by
  obtain ⟨id, leads, there⟩ := Option.bind_eq_some_iff.mp found
  have leads' := lasts.target?_of_live leads live
  obtain ⟨o, there', outline⟩ := lasts.objects.of_live there (sound.has_target leads')
  rw [Engine.deref?, leads', Option.bind_some, ← Object.eq_of_outline_eq_function outline]
  exact there'

end Lasts

/-- The machines are the same, and there are no failures to come if there were none. -/
def Undisturbed (s t : HostState) : Prop :=
  t.engine.machines = s.engine.machines ∧ (s.engine.faults = [] → t.engine.faults = [])

instance : Releasing Undisturbed where
  still engine _ := ⟨by rw [engine], by rw [engine]; exact id⟩
  trans first second := ⟨second.1.trans first.1, fun none => second.2 (first.2 none)⟩
  unowned engine := ⟨by rw [engine], by rw [engine]; exact id⟩
  returned engine := by
    rw [Undisturbed, engine]
    exact ⟨rfl, id⟩

end HostState

namespace Host

variable {code : HostCode} {s : HostState} {vm : VmId} {c : CallbackId}

/-! ## A function that returns its arguments -/

/-- A function of the host that returns its arguments, and does nothing else but to count. -/
def Echoes (code : HostCode) (c : CallbackId) (vm : VmId) : Prop :=
  ∀ args s, ∃ callbacks, code.function c vm args s = (.returned (.ok args), { s with callbacks })

theorem callbackVm_of_open {action : String} (valid : s.Valid) (isFor : s.callbackVm? c = some vm)
    (isOpen : s.machine? vm ≠ none) : callbackVm action c s = .ok vm s := by
  obtain ⟨callback, found, rfl⟩ := Option.map_eq_some_iff.mp isFor
  obtain ⟨machine, opened⟩ := Option.ne_none_iff_exists'.mp isOpen
  obtain ⟨v, there, armed⟩ := Option.bind_eq_some_iff.mp opened
  have present : v.gone = false := by
    cases gone : v.gone with
    | false => rfl
    | true =>
      rw [valid.gone v (List.mem_of_getElem? there) gone] at armed
      cases armed
  simp [callbackVm, bind_run, found, there, present]

theorem callback_of_echo (echoes : Echoes code c vm) (found : callbackVm "call host function" c s = .ok vm s)
    (isOpen : s.machine? vm ≠ none) (faultless : s.engine.faults = [])
    {list : RawList (Option ReferenceId)} {ds : List Datum}
    (cross : List.Forall₂ (fun c d => s.engine.datum? c = some d) list ds) :
    ∃ list' t, callback code c list s = .ok (.ok list') t ∧
      List.Forall₂ (fun c d => t.engine.datum? c = some d) list' ds ∧
      Spares s.wrappers.length s.errors.length (RawList.carried list) s t := by
  obtain ⟨vs, ws, es, received, stand, new⟩ := @receiveAll_of_data s vm _ _ cross
  obtain ⟨callbacks, echoed⟩ := echoes vs (s.wrapNew ws es)
  have called : code.call c vm vs (s.wrapNew ws es) = .ok vs { s.wrapNew ws es with callbacks } := by
    show ofResult (code.function c vm vs (s.wrapNew ws es)).1.recover.1
      (code.function c vm vs (s.wrapNew ws es)).2 = _
    rw [echoed]
    rfl
  have fresh : Fresh s.wrappers.length s.errors.length (RawList.carried list) (s.wrapNew ws es) := new.fresh
  obtain ⟨list', ids, sent, cross', later⟩ := @sendAll_of_data { s.wrapNew ws es with callbacks } vm vs ds
    isOpen faultless new.owned stand
  obtain ⟨t, closed, spares⟩ := @closeAll_of_fresh
    (HostState.refer { s.wrapNew ws es with callbacks } ids) _ _ _ ⟨fresh.wrappers, fresh.errors⟩ vs
    new.objects_ge new.errors_ge
  have inside : Spares s.wrappers.length s.errors.length (RawList.carried list) (s.wrapNew ws es)
      { s.wrapNew ws es with callbacks } :=
    ⟨rfl, Nat.le_refl _, fun _ _ => rfl, fun _ _ => rfl, fun _ _ _ => id⟩
  have whole := ((Spares.wrapNew s ws es).trans inside).trans ((Spares.refer _ ids).trans spares)
  refine ⟨list', t, ?_, ?_, whole⟩
  · unfold callback
    simp only [bind_run, attempt_run, tryCatch_run, found, received, called, sent, closed, pure_run,
      ofResult_ok]
    rfl
  · refine Engine.data_of_targets cross' fun ref mem id leads => spares.targets ref (fun given => ?_) id leads
    -- The results have references of their own, and only those of the arguments were given back.
    obtain ⟨id', leads'⟩ := Engine.live_of_data cross ref given
    exact absurd (Engine.lt_of_target? leads') (Nat.not_lt.mpr (later ref mem))

/-! ## The call -/

variable {function : HandleId} {args : List Value} {machine : MachineId} {ref : ReferenceId}
  {list : RawList (Option ReferenceId)} {sent polled : HostState} {record : Option PollRecord} {u : Usage}

/-- A function of a VM that is open and has a callback of the VM behind it. -/
structure IsHostFunction (s : HostState) (function : HandleId) (vm : VmId) (machine : MachineId)
    (ref : ReferenceId) (c : CallbackId) : Prop where
  isFor : s.vmOf? function = some vm
  isOpen : s.machine? vm = some machine
  armed : s.reference? function = some ref
  leads : ∃ environment, s.engine.deref? ref = some (.function (.host c) environment)
  owner : s.callbackVm? c = some vm

/-- The interrupt that a call polls, if there is one, does not fail, and tells the engine to fail nothing. -/
def PollsQuietly (code : HostCode) (function : HandleId) (args : List Value) (s : HostState) : Prop :=
  ∀ vm machine ref list sent record polled, Sent function args s vm machine ref list sent →
    pollMachine code machine sent = .ok record polled →
      record.bind (·.error) = none ∧ polled.engine.faults = []

theorem failing_undisturbed (s : HostState) (f : EngineFunction) :
    HostState.Undisturbed s { s with engine := (s.engine.failing f).2 } :=
  ⟨rfl, fun none => by
    rw [failing_of_faultless none]
    exact none⟩

theorem cloneRef_undisturbed (s : HostState) (ref : ReferenceId) :
    HostState.Undisturbed s { s with engine := (s.engine.cloneRef ref).2 } := by
  rcases cloneRef_cases s.engine ref with same | ⟨id, -, made⟩
  · rw [same]
    exact failing_undisturbed s .cloneRef
  · rw [made]
    exact failing_undisturbed s .cloneRef

theorem Sent.undisturbed (ready : Sent function args s vm machine ref list sent) :
    HostState.Undisturbed s sent := by
  obtain ⟨entered, made, guarded, done, rfl⟩ := ready.ready
  have first : HostState.Undisturbed s entered := (enter_moves _ function).of_ok guarded
  have second : HostState.Undisturbed entered made := (sendAll_moves cloneRef_undisturbed vm args).of_ok done
  exact HostState.Along.trans (HostState.Along.trans first second) (failing_undisturbed made .functionCall)

theorem pollMachine_of_uninterrupted
    (uninterrupted : (s.engine.machine? machine).bind (·.interrupt) = none) :
    pollMachine code machine s = .ok none s := by
  rw [pollMachine, bind_run, get_run]
  dsimp only
  rw [uninterrupted]
  rfl

/-- Where no machine has an interrupt there is none to fail. -/
theorem pollsQuietly_of_uninterrupted (faultless : s.engine.faults = [])
    (uninterrupted : ∀ machine, (s.engine.machine? machine).bind (·.interrupt) = none) :
    PollsQuietly code function args s := by
  intro vm machine ref list sent record polled ready asked
  obtain ⟨machines, none⟩ := ready.undisturbed
  have still : (sent.engine.machine? machine).bind (·.interrupt) = Option.none := by
    rw [Engine.machine?, machines]
    exact uninterrupted machine
  rw [pollMachine_of_uninterrupted still] at asked
  cases asked
  exact ⟨rfl, none faultless⟩

/-- What is open stands for something. -/
theorem exists_datum (orderly : u.Orderly) {v : Value} (isOpen : isClosed u.host v = false) :
    ∃ d, u.host.datum? v = some d := by
  cases v with
  | object kind h =>
    obtain ⟨ref, armed⟩ : ∃ ref, u.host.reference? h = some ref := by
      cases found : u.host.wrappers[h]? with
      | none => simp [isClosed, found] at isOpen
      | some w =>
        have isSome : w.lock.pointer.isSome := by
          simpa [isClosed, found, Handle.isClosed, Option.isSome_iff_ne_none] using isOpen
        obtain ⟨ref, armed⟩ := Option.isSome_iff_exists.mp isSome
        exact ⟨ref, Option.bind_eq_some_iff.mpr ⟨w, found, armed⟩⟩
    obtain ⟨id, o, target, -⟩ := orderly.exists_object armed
    exact ⟨.object kind id, by simp only [HostState.datum?, armed, Option.bind_some, target, Option.map_some]⟩
  | error e =>
    cases found : u.host.errors[e]? with
    | none => simp [isClosed, found] at isOpen
    | some h =>
      have isSome : h.pointer.isSome := by
        simpa [isClosed, found, Handle.isClosed, Option.isSome_iff_ne_none] using isOpen
      obtain ⟨message, armed⟩ := Option.isSome_iff_exists.mp isSome
      exact ⟨.error message, by simp only [HostState.datum?, errorMessage?, found, Option.bind_some, armed,
        Option.map_some]⟩
  | _ => exact ⟨_, rfl⟩

theorem exists_data (orderly : u.Orderly) (isOpen : ∀ v ∈ args, isClosed u.host v = false) :
    ∃ ds, List.Forall₂ (fun v d => u.host.datum? v = some d) args ds := by
  induction args with
  | nil => exact ⟨[], .nil⟩
  | cons v args ih =>
    obtain ⟨d, stands⟩ := exists_datum orderly (isOpen v List.mem_cons_self)
    obtain ⟨ds, stand⟩ := ih fun v mem => isOpen v (List.mem_cons_of_mem _ mem)
    exact ⟨d :: ds, .cons stands stand⟩

/-- While the interrupt is polled the function is in use, and the references that were sent are nobody
else's. -/
theorem Sent.orderly_polled (orderly : u.Orderly) (lawful : code.Lawful)
    (ready : Sent function args u.host vm machine ref list sent)
    (asked : pollMachine code machine sent = .ok record polled) :
    u.host.Lasts sent ∧ sent.Lasts polled ∧
      ∃ loose uses, Usage.Orderly ⟨polled, RawList.carried list ++ loose, uses⟩ ∧
        .object vm function ∈ uses := by
  obtain ⟨-, loose, more, leads⟩ := ready.leads u.loose u.uses
  have before := leads.orderly orderly
  obtain ⟨loose', more', leads'⟩ := pollMachine_proceeds lawful machine (RawList.carried list) [] sent loose
    (more ++ .object vm function :: u.uses)
  simp only [after, answer?, asked, Option.elim_some] at leads'
  exact ⟨leads.lasts orderly, leads'.lasts before, loose', _, leads'.orderly before,
    List.mem_append_right _ (List.mem_append_right _ List.mem_cons_self)⟩

/-- Open values of the VM cross as what they stand for, and to send them changes nothing about others. -/
theorem IsHostFunction.exists_sent (isFunction : IsHostFunction s function vm machine ref c)
    (faultless : s.engine.faults = []) {ds : List Datum}
    (stand : List.Forall₂ (fun v d => s.datum? v = some d) args ds)
    (owned : ∀ v ∈ args, ∀ o ∈ owner? s v, o = vm) :
    ∃ list sent, Sent function args s vm machine ref list sent ∧
      sendAll vm args ((s.readVm vm).readObject function) = .ok list sent ∧
      sent.engine.failing .functionCall = (none, sent.engine) ∧
      List.Forall₂ (fun c d => sent.engine.datum? c = some d) list ds ∧
      ∀ v d, s.datum? v = some d → sent.datum? v = some d := by
  let entered := (s.readVm vm).readObject function
  have guards : s.Alike entered := (HostState.Alike.readVm _ _).trans (.readObject _ _)
  have stand' : List.Forall₂ (fun v d => entered.datum? v = some d) args ds :=
    stand.imp fun v d stands => (guards.datum? rfl v).trans stands
  have owned' : ∀ v ∈ args, ∀ o ∈ owner? entered v, o = vm := fun v mem o isOwner => by
    have same : owner? entered v = owner? s v := congrArg v.object?.bind (funext guards.vmOf?)
    exact owned v mem o (same ▸ isOwner)
  have opened : entered.machine? vm ≠ none := by
    rw [guards.machine?, isFunction.isOpen]
    nofun
  obtain ⟨list, ids, made, cross, -⟩ := sendAll_of_data opened faultless owned' stand'
  have counted : (entered.refer ids).engine.failing .functionCall = (none, (entered.refer ids).engine) :=
    failing_of_faultless (e := (entered.refer ids).engine) faultless _
  have guarded : enter "call function" function s = .ok (vm, machine, ref) entered :=
    enter_eq_ok_iff.mpr ⟨isFunction.isFor, isFunction.isOpen, isFunction.armed, rfl⟩
  exact ⟨list, entered.refer ids, ⟨entered, entered.refer ids, guarded, made, by rw [counted]⟩, made, counted,
    cross, fun v d stands => HostState.datum?_refer ((guards.datum? rfl v).trans stands) ids⟩

/-- An interrupt can close neither the VM nor the function. -/
theorem IsHostFunction.after_poll (isFunction : IsHostFunction s function vm machine ref c)
    {loose : List ReferenceId} {uses : List Use} (lasts : s.Lasts polled)
    (orderly : Usage.Orderly ⟨polled, loose, uses⟩) (under : .object vm function ∈ uses) :
    IsHostFunction polled function vm machine ref c := by
  obtain ⟨isFor, isOpen, armed, ⟨environment, found⟩, owner⟩ := isFunction
  obtain ⟨opened, isFor', stays⟩ := orderly.holds _ under
  have armed' : polled.reference? function = some ref := by
    obtain ⟨w, there, -⟩ := Option.bind_eq_some_iff.mp armed
    rw [(lasts.wrappers (List.getElem?_eq_some_iff.mp there).1).resolve_right stays, armed]
  have isOpen' : polled.machine? vm = some machine := by
    obtain ⟨v, there, -⟩ := Option.bind_eq_some_iff.mp isOpen
    rw [(lasts.vms (List.getElem?_eq_some_iff.mp there).1).resolve_right opened, isOpen]
  exact ⟨isFor', isOpen', armed', ⟨environment, lasts.deref?_function orderly.valid.sound found
    (orderly.balanced.live_of_reference? armed')⟩, lasts.callbacks owner⟩

/-- The engine's part of the call, where the interrupt does not fail. -/
theorem engineCall_of_answer {list' : RawList (Option ReferenceId)} {t : HostState}
    (isFunction : IsHostFunction polled function vm machine ref c)
    (counted : s.engine.failing .functionCall = (none, s.engine))
    (asked : pollMachine code machine s = .ok record polled) (going : record.bind (·.error) = none)
    (answered : callback code c list polled = .ok (.ok list') t) :
    engineCall code machine ref list s = .ok (list', none) t := by
  obtain ⟨environment, found⟩ := isFunction.leads
  have asked' : pollMachine code machine { s with engine := s.engine } = .ok record polled := asked
  simp only [engineCall, bind_run, inEngine_run, counted, asked', going, get_run, found, runBody, answered]
  rfl

/-- What wrappers of the host stand for stays through work that spares all references but those that
crossed. -/
theorem datum?_of_spares {loose : List ReferenceId} {uses : List Use}
    (orderly : Usage.Orderly ⟨polled, RawList.carried list ++ loose, uses⟩) {t : HostState}
    (spares : Spares polled.wrappers.length polled.errors.length (RawList.carried list) polled t) {v : Value}
    {d : Datum} (stands : polled.datum? v = some d) : t.datum? v = some d := by
  refine spares.datum? stands fun h _ ref armed given => ?_
  have apart := (List.nodup_append.mp (List.nodup_append.mp orderly.balanced.engine.nodup).1).2.2
  exact apart ref (HostState.mem_armed_of_reference? armed) ref (List.mem_append_left _ given) rfl

/-- **Values survive the way through the engine.** The call of a function that returns its arguments, on
open values of the VM, answers with as many values, each of which stands for what the argument in its place
stands for: the same type and contents, or the same object of the engine. Objects are behind new wrappers of
the VM, one each. What the host has otherwise stands for what it did, unless an interrupt changed that which
the call polled. -/
theorem call_returns_arguments (u : Usage) (reached : u.Reachable) (code : HostCode) (lawful : code.Lawful)
    {function : HandleId} {vm : VmId} {machine : MachineId} {ref : ReferenceId} {c : CallbackId}
    {args : List Value} (isFunction : IsHostFunction u.host function vm machine ref c)
    (echoes : Echoes code c vm) (faultless : u.host.engine.faults = [])
    (quiet : PollsQuietly code function args u.host) (areOpen : ∀ v ∈ args, isClosed u.host v = false)
    (owned : ∀ v ∈ args, ∀ o ∈ owner? u.host v, o = vm) :
    ∃ results t, Function.call code function args u.host = .ok results t ∧
      List.Forall₂ (fun v r => ∃ d, u.host.datum? v = some d ∧ t.datum? r = some d) args results ∧
      (results.filterMap Value.object?).Nodup ∧
      (∀ r ∈ results, ∀ h ∈ r.object?, u.host.wrappers.length ≤ h ∧ t.vmOf? h = some vm) ∧
      ∀ v d, u.host.datum? v = some d → t.datum? v = some d ∨
        (u.host.engine.machine? machine).bind (·.interrupt) ≠ none ∧
          ∃ list sent record polled, Sent function args u.host vm machine ref list sent ∧
            pollMachine code machine sent = .ok record polled ∧ polled.datum? v ≠ some d := by
  have orderly := reached.orderly
  obtain ⟨ds, stand⟩ := exists_data orderly areOpen
  obtain ⟨list, sent, ready, made, counted, cross, others⟩ := isFunction.exists_sent faultless stand owned
  obtain ⟨record, polled, asked⟩ := pollMachine_succeeds code machine sent
  obtain ⟨going, faultless'⟩ := quiet _ _ _ _ _ _ _ ready asked
  obtain ⟨lasts, lasts', loose, uses, orderly', under⟩ := ready.orderly_polled orderly lawful asked
  have isFunction' := isFunction.after_poll (lasts.trans lasts') orderly' under
  have opened : polled.machine? vm ≠ none := by
    rw [isFunction'.isOpen]
    nofun
  -- Nor can an interrupt give back what was sent.
  have cross' := Engine.data_of_targets cross fun ref mem id leads => lasts'.target?_of_live leads
    (orderly'.balanced.engine.live ref (List.mem_append_right _ (List.mem_append_left _ mem)))
  obtain ⟨list', t, answered, cross'', spares⟩ := callback_of_echo echoes
    (callbackVm_of_open orderly'.valid isFunction'.owner opened) opened faultless' cross'
  obtain ⟨results, ws, es, received, stand', new⟩ := @receiveAll_of_data t vm _ _ cross''
  let last := t.wrapNew ws es
  have left : last.Alike ((last.unreadObject function).unreadVm vm) :=
    (HostState.Alike.unreadObject _ _).trans (.unreadVm _ _)
  refine ⟨results, (last.unreadObject function).unreadVm vm, ?_, ?_, ?_, fun r mem h named => ?_,
    fun v d stands => ?_⟩
  · rw [Function.call, withObject_of_open isFunction.isFor isFunction.isOpen isFunction.armed, bind_run, made]
    dsimp only
    rw [bind_run, engineCall_of_answer isFunction' counted asked going answered]
    dsimp only
    rw [bind_run, received]
    rfl
  · exact forall₂_of_both stand (stand'.imp fun r d stands => (left.datum? rfl r).trans stands)
  · rw [new.objectIds]
    exact List.nodup_range'
  · refine ⟨Nat.le_trans ?_ (new.objects_ge r mem h named), ?_⟩
    · exact Nat.le_trans (lasts.trans lasts').length_wrappers spares.length_wrappers
    · rw [left.vmOf?]
      exact new.vmOf? r mem h named
  · by_cases kept : polled.datum? v = some d
    · exact .inl ((left.datum? rfl v).trans (HostState.datum?_wrapNew (datum?_of_spares orderly' spares kept) ws es))
    · refine .inr ⟨fun uninterrupted => kept ?_, list, sent, record, polled, ready, asked, kept⟩
      have still : (sent.engine.machine? machine).bind (·.interrupt) = none := by
        rw [Engine.machine?, ready.undisturbed.1]
        exact uninterrupted
      rw [pollMachine_of_uninterrupted still] at asked
      cases asked
      exact others v d stands

/-- A string, an error and a function. -/
def stringAndFunction : Usage where
  host := after (do
    let _ ← newVm
    let _ ← createString 0 [97]
    let _ ← newError [98]
    let _ ← newCallback 0 []
    createFunction 0 0) {}
  loose := []
  uses := []

theorem stringAndFunction_reachable : stringAndFunction.Reachable := by
  have vm := (Usage.Reachable.start []).ask .newVm trivial
  have string := vm.ask (.createString 0 [97]) trivial
  have error := string.ask (.createError [98]) trivial
  have callback := error.operate (.newCallback 0 []) trivial rfl rfl
  exact callback.operate (.createFunction 0 0) trivial rfl rfl

/-- A string twice, a number that is none, an error and null, through a function and back. -/
theorem call_returns_arguments_of_string :
    let s := stringAndFunction.host
    let args := [Value.object .string 0, .number 0x7ff8000000000001, .error 0, .object .string 0,
      .lightUserdata 0]
    stringAndFunction.Reachable ∧
      ∃ results t, Function.call (Script.code [.function .echo] 1) 1 args s = .ok results t ∧
        results = [.object .string 4, .number 0x7ff8000000000001, .error 2, .object .string 5,
          .lightUserdata 0] ∧
        List.Forall₂ (fun v r => ∃ d, s.datum? v = some d ∧ t.datum? r = some d) args results ∧
        t.datum? (.object .string 0) = some (.object .string 1) := by
  intro s args
  have uninterrupted : ∀ machine, (s.engine.machine? machine).bind (·.interrupt) = none
    | 0 => rfl
    | _ + 1 => rfl
  have isFunction : IsHostFunction s 1 0 0 1 0 := ⟨rfl, rfl, rfl, ⟨none, rfl⟩, rfl⟩
  have echoes : Echoes (Script.code [.function .echo] 1) 0 0 := fun _ s => ⟨(s.countCall 0).callbacks, rfl⟩
  have areOpen : ∀ v ∈ args, isClosed s v = false := by decide +kernel
  have owned : ∀ v ∈ args, ∀ o ∈ owner? s v, o = 0 := by decide +kernel
  have reached : stringAndFunction.Reachable := stringAndFunction_reachable
  obtain ⟨results, t, done, stand, -, -, others⟩ := call_returns_arguments stringAndFunction reached
    (Script.code [.function .echo] 1) (Script.code_lawful _ 1) isFunction echoes rfl
    (pollsQuietly_of_uninterrupted rfl uninterrupted) areOpen owned
  have answered : answer? (Function.call (Script.code [.function .echo] 1) 1 args) s = some
      [.object .string 4, .number 0x7ff8000000000001, .error 2, .object .string 5, .lightUserdata 0] := by
    decide +kernel
  obtain ⟨same, -⟩ := EStateM.Result.ok.inj (done.symm.trans (answer?_eq_some.mp answered))
  exact ⟨reached, results, t, done, same, stand,
    (others (.object .string 0) (.object .string 1) rfl).resolve_right fun interrupted => interrupted.1 rfl⟩

end Host
end ScriptHost

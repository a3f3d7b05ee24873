/-
What lasts through every run (`HostState.Lasts`): VMs, wrappers and references stay what they are until they
are closed or given back, a payload keeps its type and comes into no object but the one it was made for, and
what was freed or stopped stays so. Every step keeps this (`Usage.Step.lasts`), so that every run does
(`Usage.Leads.lasts`).
-/
import ScriptHost.Proofs.Host.Orderly

namespace ScriptHost

open Host

namespace HostState

variable {makes : Prop} {s t u : HostState}

def payloadType? (s : HostState) (p : PayloadId) : Option PayloadType :=
  (s.payloads[p]?).map (·.data.type)

/-- The VM that a callback was made for. -/
def callbackVm? (s : HostState) (c : CallbackId) : Option VmId :=
  (s.callbacks[c]?).map (·.vm)

structure Lasts (s t : HostState) : Prop where
  length_vms : s.vms.length ≤ t.vms.length
  vms : ∀ {vm : VmId}, vm < s.vms.length → t.machine? vm = s.machine? vm ∨ t.machine? vm = none
  length_wrappers : s.wrappers.length ≤ t.wrappers.length
  wrappers : ∀ {object : HandleId}, object < s.wrappers.length →
    t.reference? object = s.reference? object ∨ t.reference? object = none
  isFor : ∀ {object : HandleId} {vm : VmId}, s.vmOf? object = some vm → t.vmOf? object = some vm
  callbacks : ∀ {c : CallbackId} {vm : VmId}, s.callbackVm? c = some vm → t.callbackVm? c = some vm
  length_payloads : s.payloads.length ≤ t.payloads.length
  payloads : ∀ {p : PayloadId} {type : PayloadType}, s.payloadType? p = some type →
    t.payloadType? p = some type
  references : Grows (Fades id) (fun _ => True) s.engine.references t.engine.references
  objects : Grows (Fades Object.outline) (fun _ => True) s.engine.objects t.engine.objects
  stopped : s.engine.stopped <:+ t.engine.stopped
  /-- Payloads do not come into objects late. -/
  before : ∀ {id : ObjectId} {p : PayloadId}, p < s.payloads.length →
    t.engine.object? id = some (.userdata p) → s.engine.object? id = some (.userdata p)

namespace Lasts

theorem refl (s : HostState) : s.Lasts s :=
  ⟨Nat.le_refl _, fun _ => .inl rfl, Nat.le_refl _, fun _ => .inl rfl, id, id, Nat.le_refl _, id,
    .refl _, .refl _, List.suffix_rfl, fun _ => id⟩

theorem trans (first : s.Lasts t) (second : t.Lasts u) : s.Lasts u where
  length_vms := Nat.le_trans first.length_vms second.length_vms
  vms known := by
    rcases second.vms (Nat.lt_of_lt_of_le known first.length_vms) with same | closed
    · rw [same]
      exact first.vms known
    · exact .inr closed
  length_wrappers := Nat.le_trans first.length_wrappers second.length_wrappers
  wrappers known := by
    rcases second.wrappers (Nat.lt_of_lt_of_le known first.length_wrappers) with same | closed
    · rw [same]
      exact first.wrappers known
    · exact .inr closed
  isFor isFor := second.isFor (first.isFor isFor)
  callbacks isFor := second.callbacks (first.callbacks isFor)
  length_payloads := Nat.le_trans first.length_payloads second.length_payloads
  payloads typed := second.payloads (first.payloads typed)
  references := first.references.trans (fun _ _ => trivial) second.references
  objects := first.objects.trans (fun _ _ => trivial) second.objects
  stopped := first.stopped.trans second.stopped
  before known there :=
    first.before known (second.before (Nat.lt_of_lt_of_le known first.length_payloads) there)

theorem of_evolves (evolves : s.Evolves makes t)
    (before : ∀ {id : ObjectId} {p : PayloadId}, p < s.payloads.length →
      t.engine.object? id = some (.userdata p) → s.engine.object? id = some (.userdata p)) :
    s.Lasts t where
  length_vms := evolves.vms.length_le
  vms := evolves.machine?_or
  length_wrappers := evolves.wrappers.length_le
  wrappers := evolves.reference?_or
  isFor := evolves.vmOf?_of_some
  callbacks {c vm} isFor := by
    obtain ⟨callback, there, rfl⟩ := Option.map_eq_some_iff.mp isFor
    obtain ⟨callback', there', follows⟩ := evolves.callbacks.old there
    rw [callbackVm?, there', Option.map_some, follows.vm]
  length_payloads := evolves.payloads.length_le
  payloads {p type} typed := by
    obtain ⟨payload, there, rfl⟩ := Option.map_eq_some_iff.mp typed
    obtain ⟨payload', there', follows⟩ := evolves.payloads.old there
    rw [payloadType?, there', Option.map_some, follows.type]
  references := evolves.references
  objects := ⟨evolves.objects.old, fun _ _ => trivial⟩
  stopped := evolves.stopped
  before := before

/-- Work that makes no userdata. -/
theorem of_evolves_false (evolves : s.Evolves False t) : s.Lasts t :=
  of_evolves evolves fun _ => evolves.object?_userdata

theorem of_alike (alike : s.Alike t) : s.Lasts t where
  length_vms := Nat.le_of_eq (by simpa only [List.length_map] using congrArg List.length alike.vms.symm)
  vms _ := .inl (alike.machine? _)
  length_wrappers :=
    Nat.le_of_eq (by simpa only [List.length_map] using congrArg List.length alike.wrappers.symm)
  wrappers _ := .inl (alike.reference? _)
  isFor isFor := (alike.vmOf? _).trans isFor
  callbacks isFor := by rwa [callbackVm?, alike.callbacks]
  length_payloads := Nat.le_of_eq alike.length_payloads.symm
  payloads {p type} typed := by
    rw [payloadType?, ← List.getElem?_map] at typed ⊢
    rwa [alike.payloads]
  references := alike.engine ▸ .refl _
  objects := alike.engine ▸ .refl _
  stopped := alike.engine ▸ List.suffix_rfl
  before _ there := alike.engine ▸ there

/-- A userdata that is still there is for the same payload. -/
theorem userdata (lasts : s.Lasts t) {id : ObjectId} {p : PayloadId}
    (there : s.engine.object? id = some (.userdata p)) (still : t.engine.Has id) :
    t.engine.object? id = some (.userdata p) := by
  obtain ⟨o, there', outline⟩ := lasts.objects.of_live there still
  rw [← Object.eq_of_outline_eq_userdata outline]
  exact there'

end Lasts

end HostState

namespace Usage

open HostState (Alike Lasts)

variable {u v : Usage} {kept : List Use}

theorem Orderly.borrow_lasts (orderly : u.Orderly) (type : PayloadType) (exclusive : Bool)
    (userdata : HandleId) : u.host.Lasts (after (Userdata.borrow type exclusive userdata) u.host) := by
  have refused : ∀ {e}, Userdata.enterPayload "borrow userdata" userdata u.host = .error e u.host →
      u.host.Lasts (after (Userdata.borrow type exclusive userdata) u.host) := by
    intro e failed
    simp only [after, Userdata.borrow_of_unentered failed]
    exact .refl _
  cases isFor : u.host.vmOf? userdata with
  | none => exact refused (Userdata.enterPayload_of_missing isFor)
  | some vm =>
    cases isOpen : u.host.machine? vm with
    | none => exact refused (Userdata.enterPayload_of_closed isFor isOpen)
    | some machine =>
      cases armed : u.host.reference? userdata with
      | none => exact refused (Userdata.enterPayload_of_closedObject isFor isOpen armed)
      | some ref =>
        have asked := Lasts.of_evolves_false (orderly.askPayload_evolves ref)
        simp only [after, Userdata.borrow_of_open isFor isOpen armed]
        cases Userdata.payload? u.host type (u.host.engine.userdataPayload ref).1 with
        | none => exact asked
        | some found =>
          dsimp only
          cases found.2.borrowing.add exclusive with
          | error cause => exact asked
          | ok borrowing => exact asked.trans (.of_alike (.lend ..))

theorem Step.lasts (step : Step u v) (orderly : u.Orderly) : u.host.Lasts v.host := by
  cases step with
  | @operate s loose rest uses c plain takes =>
    have evolves : s.Evolves c.Makes (after c.perform s) := c.perform_evolves plain s orderly.valid
    refine .of_evolves evolves fun {id p} known there => ?_
    by_cases makes : c.Makes
    · obtain ⟨vm, data, rfl⟩ := c.eq_of_makes makes
      refine ((s.createUserdata_makes vm data).before there).resolve_right fun new => ?_
      exact absurd (new.2 ▸ known) (Nat.lt_irrefl _)
    · rw [eq_false makes] at evolves
      exact evolves.object?_userdata there
  | useVm entered =>
    obtain ⟨isOpen, rfl⟩ := enterVm_eq_ok_iff.mp entered
    exact .of_alike (.readVm _ _)
  | useObject entered =>
    obtain ⟨isFor, isOpen, armed, rfl⟩ := enter_eq_ok_iff.mp entered
    exact .of_alike ((Alike.readVm _ _).trans (.readObject _ _))
  | borrow type exclusive userdata => exact orderly.borrow_lasts type exclusive userdata
  | @change s loose uses b f under alone typed =>
    exact .of_alike ⟨rfl, rfl, rfl, rfl, map_modify_of_same (fun p => typed p.data) _ _⟩
  | @leave s loose uses use under => exact .of_alike (use.leave_alike s)
  | reclaim cover => exact .of_evolves_false (orderly.reclaim_evolves cover)

theorem Leads.lasts (leads : Leads kept u v) (orderly : u.Orderly) : u.host.Lasts v.host := by
  induction leads with
  | refl => exact .refl _
  | tail before step ih => exact ih.trans (step.1.lasts (Leads.orderly before orderly))

end Usage
end ScriptHost

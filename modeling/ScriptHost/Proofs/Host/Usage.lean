/-
Uses of VMs and objects that are under way, and runs of the host with them (`Usage.Step`). A use starts
where guards are taken and lasts until they are given back. Meanwhile anything may be done, and other uses
start and end, in any order: work on an object may borrow a userdata, and the borrow may outlive the work.
-/
import ScriptHost.Proofs.Host.Commands
import Mathlib.Logic.Relation

namespace ScriptHost

/-- What is under way from the taking of guards until they are given back. -/
inductive Use where
  /-- Work on a VM. -/
  | vm (vm : VmId)
  /-- Work on an object of a VM, such as the call of a function. -/
  | object (vm : VmId) (object : HandleId)
  /-- A borrow of the payload of a userdata. -/
  | borrow (borrow : Borrow)
  deriving DecidableEq, Repr

namespace Use

/-- The VM that is not closed meanwhile. For a borrow there is none. -/
def vm? : Use → Option VmId
  | vm v | object v _ => some v
  | borrow _ => none

/-- The object that is not closed meanwhile. -/
def object? : Use → Option HandleId
  | vm _ => none
  | object _ h => some h
  | borrow b => some b.object

/-- The payload that is borrowed, and whether nobody else may borrow it. -/
def payload? : Use → Option (PayloadId × Bool)
  | borrow b => some (b.payload, b.exclusive)
  | _ => none

/-- Ends a use. -/
def leave : Use → Host Unit
  | vm v => Host.leaveVm v
  | object v h => do
    Host.leaveObject h
    Host.leaveVm v
  | borrow b => Host.Userdata.endBorrow b

end Use

/-- Whoever uses something refers to it. -/
def Roots.Cover (roots : Roots) (uses : List Use) : Prop :=
  ∀ use ∈ uses, (∀ v, use = .vm v → v ∈ roots.vms) ∧
    ∀ h ∈ use.object?, ∃ v ∈ roots.values, v.object? = some h

/-- The host, the references that are out of their wrappers, and the uses that are under way, the latest
first. -/
structure Usage where
  host : HostState
  loose : List ReferenceId
  uses : List Use

namespace Usage

open Host

/-- Everything that can happen next. -/
inductive Step : Usage → Usage → Prop where
  /-- Work that is done at one go. -/
  | operate {s : HostState} {loose rest : List ReferenceId} {uses : List Use} (c : Command)
    (plain : c.Plain) (takes : loose.Perm (c.taken ++ rest)) :
    Step ⟨s, loose, uses⟩ ⟨after c.perform s, (answer? c.perform s).getD [] ++ rest, uses⟩
  | useVm {s t : HostState} {loose : List ReferenceId} {uses : List Use} {action : String} {vm : VmId}
    {machine : MachineId} (entered : enterVm action vm s = .ok machine t) :
    Step ⟨s, loose, uses⟩ ⟨t, loose, .vm vm :: uses⟩
  | useObject {s t : HostState} {loose : List ReferenceId} {uses : List Use} {action : String}
    {object : HandleId} {vm : VmId} {machine : MachineId} {ref : ReferenceId}
    (entered : enter action object s = .ok (vm, machine, ref) t) :
    Step ⟨s, loose, uses⟩ ⟨t, loose, .object vm object :: uses⟩
  /-- A borrow, if it is not refused. -/
  | borrow {s : HostState} {loose : List ReferenceId} {uses : List Use} (type : PayloadType)
    (exclusive : Bool) (userdata : HandleId) :
    Step ⟨s, loose, uses⟩ ⟨after (Userdata.borrow type exclusive userdata) s, loose,
      ((answer? (Userdata.borrow type exclusive userdata) s).map Use.borrow).toList ++ uses⟩
  /-- Whoever has a payload alone changes it, but not its type. -/
  | change {s : HostState} {loose : List ReferenceId} {uses : List Use} {b : Borrow}
    {f : PayloadData → PayloadData} (under : Use.borrow b ∈ uses) (alone : b.exclusive = true)
    (typed : ∀ data, (f data).type = data.type) :
    Step ⟨s, loose, uses⟩ ⟨after (Userdata.change b f) s, loose, uses⟩
  | leave {s : HostState} {loose : List ReferenceId} {uses : List Use} {use : Use} (under : use ∈ uses) :
    Step ⟨s, loose, uses⟩ ⟨after use.leave s, loose, uses.erase use⟩
  | reclaim {s : HostState} {loose : List ReferenceId} {uses : List Use} {roots : Roots}
    (cover : roots.Cover uses) : Step ⟨s, loose, uses⟩ ⟨s.reclaim roots, loose, uses⟩

/-- A run from one usage to another, in which some uses go on. -/
def Leads (kept : List Use) : Usage → Usage → Prop :=
  Relation.ReflTransGen fun u v => Step u v ∧ kept <:+ v.uses

/-- What a run of the host can come to that starts with nothing but failures to come. -/
def Reachable (u : Usage) : Prop :=
  ∃ faults : List Fault, Leads [] ⟨{ engine := { faults } }, [], []⟩ u

theorem Leads.of_step {kept : List Use} {u v : Usage} (step : Step u v) (goesOn : kept <:+ v.uses) :
    Leads kept u v :=
  .single ⟨step, goesOn⟩

/-- Fewer uses go on as well. -/
theorem Leads.weaken {kept fewer : List Use} {u v : Usage} (leads : Leads kept u v)
    (among : fewer <:+ kept) : Leads fewer u v :=
  Relation.ReflTransGen.mono (fun _ _ step => ⟨step.1, among.trans step.2⟩) _ _ leads

theorem Reachable.leads {kept : List Use} {u v : Usage} (reached : u.Reachable) (leads : Leads kept u v) :
    v.Reachable :=
  reached.imp fun _ before => before.trans (leads.weaken List.nil_suffix)

theorem Reachable.step {u v : Usage} (reached : u.Reachable) (step : Step u v) : v.Reachable :=
  reached.leads (.of_step step List.nil_suffix)

theorem Reachable.start (faults : List Fault) : Reachable ⟨{ engine := { faults } }, [], []⟩ :=
  ⟨faults, .refl⟩

/-- A command that neither takes nor leaves loose references. -/
theorem Reachable.operate {s : HostState} {uses : List Use} (reached : Reachable ⟨s, [], uses⟩) (c : Command)
    (plain : c.Plain) (takes : c.taken = []) (gives : (answer? c.perform s).getD [] = []) :
    Reachable ⟨after c.perform s, [], uses⟩ := by
  have step := @Step.operate s [] [] uses c plain (by rw [takes]; exact .refl _)
  rw [gives] at step
  exact reached.step step

/-! ## Asking alone -/

/-- What a host comes to that only asks, one thing after the other. -/
def asking (requests : List Request) : Usage where
  host := requests.foldl (fun s request => after (request.perform .idle) s) {}
  loose := []
  uses := []

theorem Reachable.ask {s : HostState} {uses : List Use} (reached : Reachable ⟨s, [], uses⟩) (request : Request)
    (plain : request.Plain) : Reachable ⟨after (request.perform .idle) s, [], uses⟩ := by
  have asked := reached.operate (.ask request) plain rfl
  simp only [after, answer?, Command.perform, bind_run] at asked ⊢
  cases done : request.perform .idle s with
  | ok reply t | error e t =>
    rw [done] at asked
    exact asked rfl

theorem asking_reachable {requests : List Request} (plain : ∀ request ∈ requests, request.Plain) :
    (asking requests).Reachable := by
  have goesOn : ∀ s, Reachable ⟨s, [], []⟩ →
      Reachable ⟨requests.foldl (fun s request => after (request.perform .idle) s) s, [], []⟩ := by
    induction requests with
    | nil => exact fun _ reached => reached
    | cons request requests ih =>
      intro s reached
      have asked := reached.ask request (plain request List.mem_cons_self)
      exact ih (fun other mem => plain other (List.mem_cons_of_mem _ mem)) _ asked
  exact goesOn {} (.start [])

/-! ## A borrow -/

/-- A userdata and a function of a VM, where the payload of the userdata is borrowed. -/
def borrowedUserdata : Usage where
  host := after (do
    let _ ← newVm
    let payload ← newPayload (.integer 1)
    let _ ← createUserdata 0 payload
    let c ← newCallback 0 []
    let _ ← createFunction 0 c
    Userdata.borrow .integer true 0) {}
  loose := []
  uses := [.borrow ⟨0, 0, true⟩]

theorem borrowedUserdata_reachable : borrowedUserdata.Reachable := by
  have vm := (Reachable.start []).ask .newVm trivial
  have userdata := vm.ask (.createUserdata 0 (.integer 1)) trivial
  have callback := userdata.operate (.newCallback 0 []) trivial rfl rfl
  have function := callback.operate (.createFunction 0 0) trivial rfl rfl
  exact function.step (.borrow .integer true 0)

end Usage
end ScriptHost

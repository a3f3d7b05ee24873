/-
The rules of borrowing (`Usage.borrows_follow_rules`): many may read a payload, or one may write it. Whether
a borrow is refused, and why, is said by what is borrowed at that time (`Usage.borrowed?`), whichever wrapper
it is asked through. A payload is there while it is borrowed, and goes once: when nothing keeps its object
any more.
-/
import ScriptHost.Proofs.Host.Lasting

namespace ScriptHost

open Host

/-! ## Payloads -/

namespace Engine

/-- The payload of a userdata. -/
def payloadOf? : Option Object → Option PayloadId
  | some (.userdata p) => some p
  | _ => none

theorem payloadOf?_eq_some {x : Option Object} {p : PayloadId} :
    payloadOf? x = some p ↔ x = some (.userdata p) := by
  constructor
  · intro found
    unfold payloadOf? at found
    split at found
    · obtain rfl := Option.some.inj found
      rfl
    · cases found
  · rintro rfl
    rfl

/-- The payload that a reference leads to, unless the engine was told to fail. -/
def payload? (e : Engine) (ref : ReferenceId) : Option PayloadId :=
  if (e.failing .userdataPayload).1 = none then payloadOf? (e.deref? ref) else none

theorem userdataPayload_fst (e : Engine) (ref : ReferenceId) :
    (e.userdataPayload ref).1 = e.payload? ref := by
  have same : (e.failing .userdataPayload).2.deref? ref = e.deref? ref := rfl
  unfold userdataPayload payload?
  rcases fault : e.failing .userdataPayload with ⟨_ | mode, e'⟩
  · obtain rfl := congrArg Prod.snd fault
    dsimp only
    rw [if_pos rfl, same]
    cases e.deref? ref with
    | none => rfl
    | some o => cases o <;> rfl
  · rfl

theorem payloads_eq (e : Engine) : e.payloads = e.objects.filterMap payloadOf? := by
  rw [Engine.payloads, List.filterMap_filterMap]
  refine congrArg (List.filterMap · e.objects) (funext fun x => ?_)
  cases x with
  | none => rfl
  | some o => cases o <;> rfl

theorem mem_payloads {e : Engine} {p : PayloadId} :
    p ∈ e.payloads ↔ ∃ id, e.object? id = some (.userdata p) := by
  rw [payloads_eq, List.mem_filterMap]
  simp only [payloadOf?_eq_some, exists_eq_right, List.mem_iff_getElem?, Engine.object?,
    Option.join_eq_some_iff]

end Engine

/-- A payload is in one object at most. -/
theorem HostState.Placed.nodup_payloads {s : HostState} (placed : s.Placed) : s.engine.payloads.Nodup := by
  rw [Engine.payloads_eq, List.Nodup, List.pairwise_filterMap, List.pairwise_iff_getElem]
  rintro i j hi hj before p found p' found' rfl
  have there := Engine.payloadOf?_eq_some.mp found
  have there' := Engine.payloadOf?_eq_some.mp found'
  have same := placed.once (Option.join_eq_some_iff.mpr (List.getElem?_eq_some_iff.mpr ⟨hi, there⟩))
    (Option.join_eq_some_iff.mpr (List.getElem?_eq_some_iff.mpr ⟨hj, there'⟩))
  exact absurd before (same ▸ Nat.lt_irrefl i)

namespace Host.Userdata

variable {s : HostState} {type : PayloadType} {p : PayloadId}

theorem payload?_of_type (typed : s.payloadType? p = some type) :
    ∃ payload, payload? s type (some p) = some (p, payload) ∧ s.borrowing p = payload.borrowing := by
  obtain ⟨payload, there, same⟩ := Option.map_eq_some_iff.mp typed
  refine ⟨payload, payload?_eq_some.mpr ⟨rfl, there, same⟩, ?_⟩
  rw [HostState.borrowing, there, Option.elim_some]

theorem payload?_of_other_type (other : s.payloadType? p ≠ some type) : payload? s type (some p) = none := by
  refine Option.eq_none_iff_forall_ne_some.mpr fun found same => other ?_
  obtain ⟨p', payload⟩ := found
  obtain ⟨named, there, typed⟩ := payload?_eq_some.mp same
  obtain rfl := Option.some.inj named
  rw [HostState.payloadType?, there, Option.map_some, typed]

end Host.Userdata

namespace Borrowing

variable {b : Borrowing} {shared alone : Nat}

theorem Counts.cases (counts : b.Counts shared alone) :
    b = .shared shared ∧ alone = 0 ∨ b = .exclusive ∧ shared = 0 ∧ alone = 1 := by
  cases b with
  | shared n =>
    obtain ⟨rfl, none⟩ := counts
    exact .inl ⟨rfl, none⟩
  | exclusive => exact .inr ⟨rfl, counts⟩

/-- One more borrow is refused while someone borrows alone, or would be alone where someone borrows. -/
theorem Counts.add_eq (counts : b.Counts shared alone) (exclusive : Bool) :
    b.add exclusive =
      if 0 < alone then .error .alreadyMutable
      else if exclusive = true ∧ 0 < shared then .error .alreadyImmutable
      else .ok (if exclusive then .exclusive else .shared (shared + 1)) := by
  rcases counts.cases with ⟨rfl, rfl⟩ | ⟨rfl, rfl, rfl⟩
  · cases exclusive with
    | false => rfl
    | true =>
      by_cases free : shared = 0
      · subst free
        rfl
      · rw [if_neg (Nat.lt_irrefl 0), if_pos ⟨rfl, Nat.pos_of_ne_zero free⟩]
        simp [Borrowing.add, free]
  · rfl

end Borrowing

namespace Usage

variable {u v : Usage}

/-! ## Asking for a borrow -/

/-- The payload that a borrow gets, or why it gets none. -/
def borrowed? (u : Usage) (type : PayloadType) (exclusive : Bool) (userdata : HandleId) :
    Except Error PayloadId :=
  match u.host.vmOf? userdata with
  | none => .error .closedObject
  | some vm =>
    if u.host.machine? vm = none then .error (.vmClosed "borrow userdata")
    else match u.host.reference? userdata with
      | none => .error .closedObject
      | some ref =>
        match u.host.engine.payload? ref with
        | none => .error (.borrow (.wrongType type.name))
        | some p =>
          if u.host.payloadType? p ≠ some type then .error (.borrow (.wrongType type.name))
          else if 0 < u.borrows p true then .error (.borrow .alreadyMutable)
          else if exclusive = true ∧ 0 < u.borrows p false then .error (.borrow .alreadyImmutable)
          else .ok p

/-- A borrow that is refused changes nothing but what the engine counts. -/
theorem Orderly.borrow_eq (orderly : u.Orderly) (type : PayloadType) (exclusive : Bool) (userdata : HandleId) :
    ∃ faults, Userdata.borrow type exclusive userdata u.host =
      match u.borrowed? type exclusive userdata with
      | .error e => .error e { u.host with engine := { u.host.engine with faults } }
      | .ok p => .ok ⟨userdata, p, exclusive⟩
        (HostState.lend { u.host with engine := { u.host.engine with faults } } userdata p
          (if exclusive then .exclusive else .shared (u.borrows p false + 1))) := by
  have refused : ∀ {e}, Userdata.enterPayload "borrow userdata" userdata u.host = .error e u.host →
      Userdata.borrow type exclusive userdata u.host = .error e
        { u.host with engine := { u.host.engine with faults := u.host.engine.faults } } :=
    fun failed => Userdata.borrow_of_unentered failed
  unfold borrowed?
  cases isFor : u.host.vmOf? userdata with
  | none => exact ⟨_, refused (Userdata.enterPayload_of_missing isFor)⟩
  | some vm =>
    cases isOpen : u.host.machine? vm with
    | none =>
      dsimp only
      rw [if_pos isOpen]
      exact ⟨_, refused (Userdata.enterPayload_of_closed isFor isOpen)⟩
    | some machine =>
      dsimp only
      rw [if_neg (by rw [isOpen]; nofun)]
      cases armed : u.host.reference? userdata with
      | none => exact ⟨_, refused (Userdata.enterPayload_of_closedObject isFor isOpen armed)⟩
      | some ref =>
        refine ⟨(Engine.countCall .userdataPayload u.host.engine.faults).2, ?_⟩
        have counted : (u.host.engine.userdataPayload ref).2 = { u.host.engine with
            faults := (Engine.countCall .userdataPayload u.host.engine.faults).2 } :=
          u.host.engine.userdataPayload_snd ref
        rw [Userdata.borrow_of_open isFor isOpen armed, counted, Engine.userdataPayload_fst]
        dsimp only
        cases u.host.engine.payload? ref with
        | none => rfl
        | some p =>
          dsimp only
          by_cases typed : u.host.payloadType? p = some type
          · obtain ⟨payload, found, noted⟩ := Userdata.payload?_of_type typed
            have added : payload.borrowing.add exclusive = _ :=
              noted ▸ (orderly.borrows p).add_eq exclusive
            rw [found, if_neg (not_not_intro typed)]
            dsimp only
            rw [added]
            by_cases alone : 0 < u.borrows p true
            · rw [if_pos alone, if_pos alone]
            · rw [if_neg alone, if_neg alone]
              by_cases shared : exclusive = true ∧ 0 < u.borrows p false
              · rw [if_pos shared, if_pos shared]
              · rw [if_neg shared, if_neg shared]
          · rw [Userdata.payload?_of_other_type typed, if_pos typed]

/-- **The rules of borrowing.** At every moment of every run a payload is borrowed by some who share it, and
as many are counted, or by one alone. A borrow is granted, or refused for the one reason that there is, and
then changes nothing. The userdata of a payload is there while it is borrowed, and while anything of the
engine keeps it; after that it goes, and does not come back. -/
theorem borrows_follow_rules (u : Usage) (reached : u.Reachable) :
    (∀ p, u.host.borrowing p = .shared (u.borrows p false) ∧ u.borrows p true = 0 ∨
      u.host.borrowing p = .exclusive ∧ u.borrows p false = 0 ∧ u.borrows p true = 1) ∧
    (∀ type exclusive userdata, ∃ faults, Userdata.borrow type exclusive userdata u.host =
      match u.borrowed? type exclusive userdata with
      | .error e => .error e { u.host with engine := { u.host.engine with faults } }
      | .ok p => .ok ⟨userdata, p, exclusive⟩
        (HostState.lend { u.host with engine := { u.host.engine with faults } } userdata p
          (if exclusive then .exclusive else .shared (u.borrows p false + 1)))) ∧
    (∀ b, .borrow b ∈ u.uses → ∃ ref id, u.host.reference? b.object = some ref ∧
      u.host.engine.target? ref = some id ∧ u.host.engine.object? id = some (.userdata b.payload)) ∧
    u.host.engine.payloads.Nodup ∧
    (∀ roots, roots.Cover u.uses → ∀ id p, u.host.engine.object? id = some (.userdata p) →
      (p ∈ (u.host.reclaim roots).engine.payloads ↔ id ∈ (u.host.reclaim roots).engine.heldObjects)) ∧
    ∀ kept v, Leads kept u v → ∀ p < u.host.payloads.length,
      v.host.payloadType? p = u.host.payloadType? p ∧
      (p ∉ u.host.engine.payloads → p ∉ v.host.engine.payloads) ∧
      ∀ id, u.host.engine.object? id = some (.userdata p) → id ∈ v.host.engine.heldObjects →
        v.host.engine.object? id = some (.userdata p) := by
  have orderly := reached.orderly
  refine ⟨fun p => (orderly.borrows p).cases, orderly.borrow_eq, fun b under => ?_,
    orderly.placed.nodup_payloads, fun roots cover id p there => ?_, fun kept v leads p known => ?_⟩
  · obtain ⟨ref, armed, found⟩ := orderly.holds _ under
    obtain ⟨id, leads, there⟩ := Option.bind_eq_some_iff.mp found
    exact ⟨ref, id, armed, leads, there⟩
  · have evolves := orderly.reclaim_evolves cover
    constructor
    · intro left
      obtain ⟨id', there'⟩ := Engine.mem_payloads.mp left
      obtain rfl := orderly.placed.once there (evolves.object?_userdata there')
      exact u.host.held_of_reclaim (Engine.has_of_object? there')
    · intro held
      have still := evolves.valid.sound id held
      exact Engine.mem_payloads.mpr ⟨id, (HostState.Lasts.of_evolves_false evolves).userdata there still⟩
  · have lasts := leads.lasts orderly
    refine ⟨?_, fun gone left => ?_, fun id there held => ?_⟩
    · have typed : u.host.payloadType? p = some u.host.payloads[p].data.type := by
        rw [HostState.payloadType?, List.getElem?_eq_getElem known, Option.map_some]
      rw [typed, lasts.payloads typed]
    · obtain ⟨id, there⟩ := Engine.mem_payloads.mp left
      exact gone (Engine.mem_payloads.mpr ⟨id, lasts.before known there⟩)
    · exact lasts.userdata there ((leads.orderly orderly).valid.sound id held)

/-- A payload that is borrowed alone, and gone once it is given back. -/
theorem borrows_follow_rules_of_exclusive :
    let s := borrowedUserdata.host
    let t := after (Use.leave (.borrow ⟨0, 0, true⟩)) s
    borrowedUserdata.Reachable ∧ s.borrowing 0 = .exclusive ∧
      (∃ u, Userdata.borrow .integer false 0 s = .error (.borrow .alreadyMutable) u) ∧
      (∃ u, Userdata.borrow .text true 0 s = .error (.borrow (.wrongType "alloc::string::String")) u) ∧
      t.borrowing 0 = .shared 0 ∧ 0 ∉ (t.reclaim ⟨[], [], []⟩).engine.payloads := by
  intro s t
  have reached : borrowedUserdata.Reachable := borrowedUserdata_reachable
  obtain ⟨counters, borrows, -⟩ := borrows_follow_rules borrowedUserdata reached
  obtain ⟨faults, reader⟩ := borrows .integer false 0
  obtain ⟨faults', other⟩ := borrows .text true 0
  have left : Reachable ⟨t, [], []⟩ := reached.step (.leave List.mem_cons_self)
  obtain ⟨counters', -, -, -, freed, -⟩ := borrows_follow_rules ⟨t, [], []⟩ left
  refine ⟨reached, ?_, ⟨_, reader⟩, ⟨_, other⟩, ?_, ?_⟩
  · exact ((counters 0).resolve_left fun shared => nomatch shared.2).1
  · exact ((counters' 0).resolve_right fun alone => nomatch alone.2.2).1
  · exact mt (freed ⟨[], [], []⟩ nofun 1 0 rfl).mp (by decide +kernel)

end Usage
end ScriptHost

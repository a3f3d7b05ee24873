/-
Running a session. A step that fails answers with the failure and leaves what it did; before every
step and after the last, what nobody refers to any more goes away. Work that is aborted leaves no answers
at all.
-/
import ScriptHost.Session.Perform

namespace ScriptHost.Session

/-- A step of a session that cannot fail: a failure is an answer like any other. Only an abort ends the
whole session. -/
abbrev Stepping := EStateM Abort Session

def outcomeOf {α : Type} (work : SessionM α) : Stepping (Except Error α) := fun s =>
  match work s with
  | .ok a s => .ok (.ok a) s
  | .error (.abort how) s => .error how s
  | .error e s => .ok (.error e) s

def answerOf (work : SessionM Answer) : Stepping Answer :=
  return .ofResult (← outcomeOf work)

/-- Work of the host that cannot fail. -/
def certainly (work : Host Unit) : Stepping Unit := do
  let _ ← outcomeOf (onHost work)

/-- Keeps a VM and some values alive while some steps run. -/
def keeping {α : Type} (frame : Frame) (steps : Stepping α) : Stepping α := do
  modify fun s => { s with frames := frame :: s.frames }
  let a ← steps
  modify fun s => { s with frames := s.frames.tail }
  return a

/-! ## Steps around steps -/

def withVm (vm : Nat) (steps : Stepping (List Answer)) : Stepping Answer := do
  match ← outcomeOf do
    let id ← vmAt vm
    let _ ← onHost (Host.enterVm "use" id)
    return id with
  | .error e => return .failed e
  | .ok id =>
    let answers ← keeping ⟨[id], []⟩ steps
    certainly (Host.leaveVm id)
    return .ok (.many answers)

def enterUse (h : HandleId) : Host Unit := do
  let vm ← Host.vmOf h
  let _ ← Host.enterVm "use object" vm
  try
    let _ ← Host.enterObject h
  catch e =>
    Host.leaveVm vm
    throw e

def leaveUse (h : HandleId) : Host Unit := do
  Host.leaveObject h
  Host.leaveVm (← Host.vmOf h)

/-- Runs steps under guards on an object and its VM. What is no object has no guards. -/
def withValue (vm : Nat) (value : ValueSource) (steps : Stepping (List Answer)) :
    Stepping Answer := do
  match ← outcomeOf (evaluate vm value) with
  | .error e => return .failed e
  | .ok v =>
    match v.object? with
    | none => return .nothing
    | some h =>
      match ← outcomeOf (onHost (enterUse h)) with
      | .error e => return .failed e
      | .ok () =>
        let answers ← keeping ⟨[], [v]⟩ steps
        certainly (leaveUse h)
        return .ok (.many answers)

/-- The change that an exclusive borrow makes to a payload. -/
def addTo : PayloadData → PayloadData → PayloadData
  | .integer n, .integer m => .integer (n + m)
  | .text s, .text t => .text (s ++ t)
  | .integers ns, .integers ms => .integers (ns ++ ms)
  | data, _ => data

/-- Runs steps while the payload of a userdata is borrowed. -/
def borrowing (userdata : String) (type : PayloadType) (added : Option PayloadData)
    (steps : Stepping (List Answer)) : Stepping Answer := do
  match ← outcomeOf do
    let v ← valueNamed userdata
    let b ← onHost (Host.Userdata.borrow type added.isSome (← objectNamed userdata))
    return (v, b) with
  | .error e => return .failed e
  | .ok (v, b) =>
    match added with
    | some more => certainly (Host.Userdata.change b (addTo · more))
    | none => pure ()
    let data := Host.Userdata.borrowed? (← get).host b
    let answers ← keeping ⟨[], [v]⟩ steps
    certainly (Host.Userdata.endBorrow b)
    return .borrowed (data.getD .token) answers

/-- One visit of a walk over pairs: the pair is seen and closed, steps are run if there are some,
and the walk stops once it has seen enough. The answers of the steps are one thing seen. -/
def visitPair (stop : Option Nat) (steps? : Option (Stepping (List Answer))) (k v : Value)
    (rest : List (Value × Value)) : StateT (List Answer) Stepping (Except Error Unit) := do
  let shown ← StateT.lift (outcomeOf do
    let key ← onHost (Host.describe k)
    let value ← onHost (Host.describe v)
    onHost (Host.close k)
    onHost (Host.close v)
    return Answer.many [.value key, .value value])
  match shown with
  | .error e => return .error e
  | .ok pair =>
    modify (· ++ [pair])
    match steps? with
    | none => pure ()
    | some steps =>
      let kept := (k, v) :: rest
      let answers ← StateT.lift (keeping ⟨[], kept.flatMap fun (k, v) => [k, v]⟩ steps)
      modify (· ++ [.many answers])
    if stop = some (← get).length then return .error (.native "stop") else return .ok ()

def forEach (table : String) (stop : Option Nat) (steps? : Option (Stepping (List Answer))) :
    Stepping Answer := do
  match ← outcomeOf do
    let v ← valueNamed table
    return (v, ← onHost (Host.Table.pairs (← objectNamed table))) with
  | .error e => return .visited (.error e) []
  | .ok (v, pairs) =>
    let abandon (rest : List (Value × Value)) : StateT (List Answer) Stepping Unit :=
      StateT.lift (certainly (Host.Table.abandon rest))
    let walk := Host.Table.visit (visitPair stop steps?) abandon pairs
    let (result, seen) ← keeping ⟨[], [v]⟩ (walk.run [])
    return .visited result seen

/-! ## Running -/

/-- Lets go of what nobody refers to any more. -/
def reclaim : Stepping Unit :=
  modify (·.reclaimed [])

mutual

def run : Step → Stepping Answer
  | .act vm keep action => answerOf (perform vm keep action)
  | .withVm vm steps => withVm vm (runAll steps)
  | .withValue vm value steps => withValue vm value (runAll steps)
  | .forEach table stop none => forEach table stop none
  | .forEach table stop (some steps) => forEach table stop (some (runAll steps))
  | .borrow userdata type added steps => borrowing userdata type added (runAll steps)

/-- Runs steps in order. What nobody refers to any more goes away before each of them and after the
last, so the first step no longer finds what the work around it has just let go of. -/
def runAll : List Step → Stepping (List Answer)
  | [] => do
    reclaim
    return []
  | step :: rest => do
    reclaim
    let answer ← run step
    return answer :: (← runAll rest)

end

/-- The answers of a new session with some VMs, or how it was aborted. -/
def answers (vms : Nat) (steps : List Step) : Except Abort (List Answer) :=
  match runAll steps (start vms) with
  | .ok answers _ => .ok answers
  | .error how _ => .error how

end ScriptHost.Session

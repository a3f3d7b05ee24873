/-
Programs over the host, and the references they have out. A program decides by what it was answered
what to ask next, also while it visits the pairs of a table. Whatever it does, at every moment the
engine's references to an object are the armed wrappers of the object and the references that the
program took out of their wrappers (`Program.references_conserved`).
-/
import ScriptHost.Proofs.Host.Transfers
import ScriptHost.Proofs.Host.Reclaiming

namespace ScriptHost

/-! ## Programs -/

/-- What a program asks of the host. -/
inductive Request where
  | newVm
  | closeVm (vm : VmId)
  | globals (vm : VmId)
  | createString (vm : VmId) (bytes : Bytes)
  | createTable (vm : VmId)
  | createBuffer (vm : VmId) (size : Nat)
  | createUserdata (vm : VmId) (data : PayloadData)
  | createError (message : Bytes)
  | get (table : HandleId) (key : Value)
  | set (table : HandleId) (key value : Value)
  | length (table : HandleId)
  | isEmpty (table : HandleId)
  | pairs (table : HandleId)
  | metatable (table : HandleId)
  | setMetatable (table : HandleId) (meta? : Option HandleId)
  | loadChunk (vm : VmId) (chunk : Chunk)
  | environment (function : HandleId)
  | call (function : HandleId) (args : List Value)
  | close (value : Value)
  | closeAll (values : List Value)
  /-- Tells the engine to fail. -/
  | arm (fault : Fault)

inductive Reply where
  | done
  | vm (vm : VmId)
  | value (value : Value)
  | values (values : List Value)
  | pairs (pairs : List (Value × Value))
  | object (object : HandleId)
  | object? (object : Option HandleId)
  | count (count : Nat)
  | flag (flag : Bool)

def Request.perform (code : HostCode) : Request → Host Reply
  | newVm => return .vm (← Host.newVm)
  | closeVm vm => do
    Host.closeVm vm
    return .done
  | globals vm => return .value (← Host.globals vm)
  | createString vm bytes => return .value (← Host.createString vm bytes)
  | createTable vm => return .value (← Host.createTable vm)
  | createBuffer vm size => return .value (← Host.createBuffer vm size)
  | createUserdata vm data => do
    let payload ← Host.newPayload data
    return .value (← Host.createUserdata vm payload)
  | createError message => return .value (← Host.newError message)
  | get table key => return .value (← Host.Table.get table key)
  | set table key value => do
    Host.Table.set table key value
    return .done
  | length table => return .count (← Host.Table.length table)
  | isEmpty table => return .flag (← Host.Table.isEmpty table)
  | pairs table => return .pairs (← Host.Table.pairs table)
  | metatable table => return .object? (← Host.Table.metatable table)
  | setMetatable table meta? => do
    Host.Table.setMetatable table meta?
    return .done
  | loadChunk vm chunk => return .object (← Host.loadChunk vm chunk)
  | environment function => return .object? (← Host.Function.environment function)
  | call function args => return .values (← Host.Function.call code function args)
  | close value => do
    Host.close value
    return .done
  | closeAll values => do
    Host.closeAll values
    return .done
  | arm fault => do
    Host.inEngine fun e => ((), e.arm fault)
    return .done

/-- A program, which ends with success or with a failure. -/
inductive Program where
  | done (result : Except Error Unit)
  | ask (request : Request) (next : Except Error Reply → Program)
  /-- Visits all pairs of a table, up to the first visit that fails. -/
  | forEach (table : HandleId) (visitor : Value → Value → Program) (next : Except Error Unit → Program)
  /-- Takes the reference out of a wrapper. -/
  | intoRaw (object : HandleId) (next : Except Error ReferenceId → Program)
  /-- Gives a reference back that is out of its wrapper. -/
  | release (ref : ReferenceId) (next : Program)
  /-- Drops every wrapper but some. -/
  | drop (kept : List HandleId) (next : Program)
  /-- Lets go of all that nothing refers to. -/
  | reclaim (roots : Roots) (next : Program)

/-! ## Running -/

/-- The host, and the references that the program holds without a wrapper. -/
structure Moment where
  host : HostState
  loose : List ReferenceId

namespace Moment

variable {α : Type}

/-- Some work of the host. -/
def perform (m : Moment) (work : Host α) : Except Error α × Moment :=
  match work m.host with
  | .ok a host => (.ok a, { m with host })
  | .error e host => (.error e, { m with host })

/-- A reference out of its wrapper. -/
def intoRaw (m : Moment) (object : HandleId) : Except Error ReferenceId × Moment :=
  match Host.disarm object m.host with
  | .ok ref host => (.ok ref, ⟨host, ref :: m.loose⟩)
  | .error e host => (.error e, { m with host })

/-- One reference less. A program has none to release but its own. -/
def release (m : Moment) (ref : ReferenceId) : Moment :=
  if ref ∈ m.loose then
    ⟨{ m.host with engine := m.host.engine.giveBack ref }, m.loose.erase ref⟩
  else m

/-- Some wrappers, with the others dropped. -/
def drop (m : Moment) (kept : List HandleId) : Moment :=
  { m with host := m.host.finalizeWrappers kept }

/-- What something refers to, with the rest let go. -/
def reclaim (m : Moment) (roots : Roots) : Moment :=
  { m with host := m.host.reclaim roots }

end Moment

/-- What a program has come to, and how. -/
structure Course where
  now : Moment
  /-- The moments before, the latest first. -/
  past : List Moment

/-- Every moment of a course. -/
def Course.moments (c : Course) : List Moment :=
  c.now :: c.past

/-- One step, to the next moment. -/
def Course.step {α : Type} (f : Moment → α × Moment) : StateM Course α := fun c =>
  let (a, next) := f c.now
  (a, ⟨next, c.now :: c.past⟩)

def Program.run (code : HostCode) : Program → StateM Course (Except Error Unit)
  | done result => return result
  | ask request next => do
    let reply ← Course.step (·.perform (request.perform code))
    (next reply).run code
  | forEach table visitor next => do
    match ← Course.step (·.perform (Host.Table.pairs table)) with
    | .error e => (next (.error e)).run code
    | .ok found =>
      let abandon (rest : List (Value × Value)) : StateM Course Unit :=
        Course.step fun m => ((), (m.perform (Host.Table.abandon rest)).2)
      let result ← Host.Table.visit (fun k v _ => (visitor k v).run code) abandon found
      (next result).run code
  | intoRaw object next => do
    let reply ← Course.step (·.intoRaw object)
    (next reply).run code
  | release ref next => do
    Course.step fun m => ((), m.release ref)
    next.run code
  | drop kept next => do
    Course.step fun m => ((), m.drop kept)
    next.run code
  | reclaim roots next => do
    Course.step fun m => ((), m.reclaim roots)
    next.run code

/-- Every moment of a program that starts with nothing but failures to come. -/
def Program.moments (program : Program) (code : HostCode) (faults : List Fault) : List Moment :=
  (program.run code ⟨⟨{ engine := { faults } }, []⟩, []⟩).2.moments

/-! ## Balance -/

open Host in
theorem Request.perform_conserves {calls : CallbackId → Prop} {code : HostCode}
    (conserves : code.Conserves calls) (request : Request) :
    Conserves calls (request.perform code) := by
  have replied : ∀ {α : Type} {work : Host α} (reply : α → Reply), Conserves calls work →
      Conserves calls (do return reply (← work)) :=
    fun reply conserved => conserved.bind fun a => Conserves.pure (reply a)
  cases request with
  | newVm => exact replied .vm newVm_conserves
  | closeVm vm => exact replied (fun _ => .done) (closeVm_conserves vm)
  | globals vm => exact replied .value (globals_conserves vm)
  | createString vm bytes => exact replied .value (createString_conserves vm bytes)
  | createTable vm => exact replied .value (createTable_conserves vm)
  | createBuffer vm size => exact replied .value (createBuffer_conserves vm size)
  | createUserdata vm data =>
    exact (newPayload_conserves data).bind fun payload =>
      replied .value (createUserdata_conserves vm payload)
  | createError message => exact replied .value (newError_conserves message)
  | get table key => exact replied .value (Table.get_conserves table key)
  | set table key value => exact replied (fun _ => .done) (Table.set_conserves table key value)
  | length table => exact replied .count (Table.length_conserves table)
  | isEmpty table => exact replied .flag (Table.isEmpty_conserves table)
  | pairs table => exact replied .pairs (Table.pairs_conserves table)
  | metatable table => exact replied .object? (metatable_conserves table)
  | setMetatable table meta? =>
    exact replied (fun _ => .done) (Table.setMetatable_conserves table meta?)
  | loadChunk vm chunk => exact replied .object (loadChunk_conserves vm chunk)
  | environment function => exact replied .object? (environment_conserves function)
  | call function args => exact replied .values (call_conserves conserves function args)
  | close value => exact replied (fun _ => .done) (close_conserves value)
  | closeAll values => exact replied (fun _ => .done) (closeAll_conserves values)
  | arm fault =>
    have armed : Engine.Trades calls [] (fun e => ((), e.arm fault)) fun _ => [] :=
      fun _ _ h => h.arm fault
    exact replied (fun _ => .done) (Trades.inEngine armed)

namespace Moment

/-- What is out is owned by an armed wrapper, or held by the program. -/
def Balanced (m : Moment) : Prop :=
  m.host.Balanced Engine.NoCall m.loose

variable {m : Moment}

theorem Balanced.perform {α : Type} {work : Host α} (h : m.Balanced) (conserved : Host.Conserves Engine.NoCall work) :
    (m.perform work).2.Balanced := by
  have conserved := conserved m.host m.loose h
  unfold Moment.perform
  cases done : work m.host with
  | ok a host =>
    rw [done] at conserved
    exact conserved
  | error e host =>
    rw [done] at conserved
    exact conserved

theorem Balanced.intoRaw (h : m.Balanced) (object : HandleId) : (m.intoRaw object).2.Balanced := by
  have traded := Host.disarm_trades object m.host m.loose h
  unfold Moment.intoRaw
  cases done : Host.disarm object m.host with
  | ok ref host =>
    rw [done] at traded
    exact traded
  | error e host =>
    rw [done] at traded
    exact traded

theorem Balanced.release (h : m.Balanced) (ref : ReferenceId) : (m.release ref).Balanced := by
  unfold Moment.release
  split
  · next mem =>
    have first := HostState.Balanced.perm h (List.perm_cons_erase mem)
    have returned : Host.Trades Engine.NoCall [ref] (Host.inEngine fun e => ((), e.giveBack ref))
        (fun _ => []) [] := Host.Trades.inEngine (Engine.giveBack_trades ref)
    exact returned m.host _ first
  · exact h

theorem Balanced.drop (h : m.Balanced) (kept : List HandleId) : (m.drop kept).Balanced :=
  HostState.Balanced.finalizeWrappers h kept

theorem Balanced.reclaim (h : m.Balanced) (roots : Roots) : (m.reclaim roots).Balanced :=
  HostState.Balanced.reclaim h roots

end Moment

/-! ## Courses -/

/-- A course on which every moment is balanced goes on that way. -/
def Keeps {α : Type} (work : StateM Course α) : Prop :=
  ∀ c : Course, (∀ m ∈ c.moments, m.Balanced) → ∀ m ∈ (work c).2.moments, m.Balanced

namespace Keeps

variable {α β : Type}

theorem pure (a : α) : Keeps (Pure.pure a) :=
  fun _ h => h

theorem bind {work : StateM Course α} {next : α → StateM Course β} (first : Keeps work)
    (second : ∀ a, Keeps (next a)) : Keeps (work >>= next) :=
  fun c h => second _ _ (first c h)

theorem step {f : Moment → α × Moment} (kept : ∀ m : Moment, m.Balanced → (f m).2.Balanced) :
    Keeps (Course.step f) := by
  intro c h m mem
  rcases List.mem_cons.mp mem with rfl | before
  · exact kept c.now (h c.now List.mem_cons_self)
  · exact h m before

theorem visit {visitor : Value → Value → List (Value × Value) → StateM Course (Except Error Unit)}
    {abandon : List (Value × Value) → StateM Course Unit}
    (visits : ∀ k v rest, Keeps (visitor k v rest)) (abandons : ∀ rest, Keeps (abandon rest))
    (pairs : List (Value × Value)) : Keeps (Host.Table.visit visitor abandon pairs) := by
  induction pairs with
  | nil => exact pure _
  | cons pair pairs ih =>
    refine (visits pair.1 pair.2 pairs).bind fun result => ?_
    cases result with
    | ok => exact ih
    | error e => exact (abandons pairs).bind fun _ => pure _

end Keeps

theorem Program.run_keeps (code : HostCode) (program : Program) : Keeps (program.run code) := by
  induction program with
  | done result => exact Keeps.pure result
  | ask request next ih =>
    exact (Keeps.step fun m h => h.perform (request.perform_conserves code.conserves_of_noCall)).bind ih
  | forEach table visitor next ihVisitor ih =>
    rw [Program.run]
    refine (Keeps.step fun m h => h.perform (Host.Table.pairs_conserves table)).bind fun found => ?_
    cases found with
    | error e => exact ih _
    | ok found =>
      have abandons : ∀ rest, Keeps (Course.step fun m : Moment =>
          ((), (m.perform (Host.Table.abandon rest)).2)) :=
        fun rest => Keeps.step fun m h => h.perform (Host.Table.abandon_conserves rest)
      exact (Keeps.visit (fun k v _ => ihVisitor k v) abandons found).bind ih
  | intoRaw object next ih => exact (Keeps.step fun m h => h.intoRaw object).bind ih
  | release ref next ih => exact (Keeps.step fun m h => h.release ref).bind fun _ => ih
  | drop kept next ih =>
    exact (Keeps.step fun m h => h.drop kept).bind fun _ => ih
  | reclaim roots next ih =>
    exact (Keeps.step fun m h => h.reclaim roots).bind fun _ => ih

theorem Moment.Balanced.count_references {m : Moment} (h : m.Balanced) (id : ObjectId) :
    m.host.engine.references.count (some id) =
      m.host.wrappers.countP (fun w => w.lock.pointer.bind m.host.engine.target? = some id) +
        m.loose.countP fun ref => m.host.engine.target? ref = some id := by
  have armed : m.host.armed.countP (fun ref => m.host.engine.target? ref = some id) =
      m.host.wrappers.countP fun w => w.lock.pointer.bind m.host.engine.target? = some id := by
    rw [HostState.armed, pointersOf, List.countP_filterMap]
    refine List.countP_congr fun w _ => ?_
    cases w.lock.pointer <;> simp
  have engine := HostState.Balanced.engine h
  rw [engine.count_references id, engine.leaked_eq_nil, List.append_nil, List.countP_append, armed]

/-- **References are conserved.** Whatever a program asks, and whatever fails: at every moment the engine
has as many references to an object as there are armed wrappers of it and references to it that the
program took out of their wrappers. Of all references that were ever handed out, each is in one wrapper,
or held by the program, or was given back once. -/
theorem Program.references_conserved (code : HostCode) (faults : List Fault) (program : Program) :
    ∀ m ∈ program.moments code faults,
      (∀ id, m.host.engine.references.count (some id) =
        m.host.wrappers.countP (fun w => w.lock.pointer.bind m.host.engine.target? = some id) +
          m.loose.countP fun ref => m.host.engine.target? ref = some id) ∧
      (∀ ref ∈ m.host.armed ++ m.loose, m.host.engine.target? ref ≠ none) ∧
      (m.host.armed ++ m.loose ++ m.host.engine.returned).Perm
        (List.range m.host.engine.references.length) := by
  have start : ∀ m ∈ Course.moments ⟨⟨{ engine := { faults } }, []⟩, []⟩, m.Balanced := by
    intro m mem
    obtain rfl := List.mem_singleton.mp mem
    exact ⟨Engine.Balanced.empty faults, fun _ mem => nomatch mem⟩
  intro m mem
  have balanced := program.run_keeps code _ start m mem
  exact ⟨balanced.count_references, balanced.engine.live, balanced.engine.once⟩

/-- A string set in a table and taken out of its wrapper. -/
theorem Program.references_conserved_of_set :
    let code : HostCode :=
      ⟨fun _ _ _ s => (.returned (.ok []), s), fun _ _ s => (.returned (.ok .continue), s)⟩
    let program : Program :=
      .ask .newVm fun _ => .ask (.createTable 0) fun _ => .ask (.createString 0 [97]) fun _ =>
        .ask (.set 0 (.object .string 1) (.object .table 0)) fun _ =>
          .intoRaw 1 fun _ => .done (.ok ())
    ∃ m ∈ program.moments code [], m.host.armed = [0] ∧ m.loose = [1] ∧
      m.host.engine.returned = [3, 2] ∧
      (∀ id, m.host.engine.references.count (some id) =
        m.host.wrappers.countP (fun w => w.lock.pointer.bind m.host.engine.target? = some id) +
          m.loose.countP fun ref => m.host.engine.target? ref = some id) ∧
      (∀ ref ∈ m.host.armed ++ m.loose, m.host.engine.target? ref ≠ none) ∧
      (m.host.armed ++ m.loose ++ m.host.engine.returned).Perm
        (List.range m.host.engine.references.length) := by
  refine ⟨_, List.mem_cons_self, ?_, ?_, ?_, Program.references_conserved _ [] _ _ List.mem_cons_self⟩
  · decide +kernel
  · decide +kernel
  · decide +kernel

end ScriptHost

/-
Compiler settings, and the record in which they cross to the engine. The record points at texts that
a buffer owns. The buffer keeps all of them in one row, which grows while the record is made.
-/
import ScriptHost.Memory

namespace ScriptHost

structure CompilerOptions where
  optimizationLevel : UInt8 := 1
  debugLevel : UInt8 := 1
  typeInfoLevel : UInt8 := 0
  coverageLevel : UInt8 := 0
  vectorLib : Option String := none
  vectorCtor : Option String := none
  vectorType : Option String := none
  /-- Globals that a module may reassign. -/
  mutableGlobals : List String := []
  /-- Host types that type information should know. -/
  userdataTypes : List String := []
  /-- Builtins that are looked up when a chunk runs. -/
  disabledBuiltins : List String := []
  deriving DecidableEq, Repr

/-- A borrowed row of texts: the pointer to its block, and how many pointers to texts are there. -/
structure TextRow where
  block : Option Address
  length : Nat
  deriving DecidableEq, Repr

/-- Settings in the engine's layout. A text that is unset is a null pointer. -/
structure CompilerLayout where
  optimizationLevel : UInt8
  debugLevel : UInt8
  typeInfoLevel : UInt8
  coverageLevel : UInt8
  vectorLib : Option Address
  vectorCtor : Option Address
  vectorType : Option Address
  mutableGlobals : TextRow
  userdataTypes : TextRow
  disabledBuiltins : TextRow
  deriving DecidableEq, Repr

/-! ## Making the layout -/

/-- Settings in the engine's layout together with what they point at: the row of the texts, and the
rows of the three lists. -/
structure CompilerBuffer where
  layout : CompilerLayout
  strings : Row
  lists : List Row
  deriving DecidableEq, Repr

namespace CompilerBuffer

/-- The texts kept so far, and the memory they are in. -/
structure Making where
  strings : Row := {}
  memory : Memory

/-- A step in memory alone. -/
def inMemory {α : Type} (act : StateM Memory α) : StateM Making α :=
  modifyGet fun s =>
    let (result, memory) := act.run s.memory
    (result, { s with memory })

/-- Makes a C string of a text, puts it at the end of the texts kept and points at it. -/
def keep (text : String) : StateM Making Address := do
  let pointer ← inMemory (Memory.allocate (.text (.ofText text)))
  let strings ← inMemory ((← get).strings.push pointer)
  modify fun s => { s with strings }
  return pointer

/-- Keeps a text if it is set. -/
def keepOption (text : Option String) : StateM Making (Option Address) :=
  match text with
  | none => pure none
  | some t => some <$> keep t

/-- Keeps some texts one by one and puts the pointer to each at the end of a row. -/
def keepOnto (row : Row) (texts : List String) : StateM Making Row :=
  match texts with
  | [] => pure row
  | t :: ts => do
    let pointer ← keep t
    let row ← inMemory (row.push pointer)
    keepOnto row ts

/-- Keeps some texts, with the pointers to them in a row of just their number. -/
def keepAll (texts : List String) : StateM Making Row := do
  let row ← inMemory (Row.withRoom texts.length)
  keepOnto row texts

def borrow (row : Row) : TextRow :=
  ⟨row.block, row.length⟩

def make (o : CompilerOptions) : StateM Memory CompilerBuffer := fun m =>
  let fill : StateM Making (CompilerLayout × List Row) := do
    let vectorLib ← keepOption o.vectorLib
    let vectorCtor ← keepOption o.vectorCtor
    let vectorType ← keepOption o.vectorType
    let mutableGlobals ← keepAll o.mutableGlobals
    let userdataTypes ← keepAll o.userdataTypes
    let disabledBuiltins ← keepAll o.disabledBuiltins
    let layout : CompilerLayout := {
      optimizationLevel := o.optimizationLevel
      debugLevel := o.debugLevel
      typeInfoLevel := o.typeInfoLevel
      coverageLevel := o.coverageLevel
      vectorLib, vectorCtor, vectorType
      mutableGlobals := borrow mutableGlobals
      userdataTypes := borrow userdataTypes
      disabledBuiltins := borrow disabledBuiltins }
    return (layout, [mutableGlobals, userdataTypes, disabledBuiltins])
  let ((layout, lists), made) := fill.run { memory := m }
  (⟨layout, made.strings, lists⟩, made.memory)

end CompilerBuffer

/-! ## Reading the layout -/

namespace CompilerLayout

def textAt? (m : Memory) (a : Address) : Option String :=
  (m.text? a).map CString.text

/-- What a pointer to a text says, which may be null. -/
def optionAt? (m : Memory) : Option Address → Option (Option String)
  | none => some none
  | some a => (textAt? m a).map some

/-- The texts of a borrowed row, each by the pointer at its place. -/
def rowAt? (m : Memory) (row : TextRow) : Option (List String) :=
  (List.range row.length).mapM fun i => do
    let pointers ← row.block.bind m.row?
    textAt? m (← pointers[i]?)

/-- The settings that a layout points at, none if one of its pointers leads nowhere. -/
def read? (r : CompilerLayout) (m : Memory) : Option CompilerOptions := do
  return {
    optimizationLevel := r.optimizationLevel
    debugLevel := r.debugLevel
    typeInfoLevel := r.typeInfoLevel
    coverageLevel := r.coverageLevel
    vectorLib := ← optionAt? m r.vectorLib
    vectorCtor := ← optionAt? m r.vectorCtor
    vectorType := ← optionAt? m r.vectorType
    mutableGlobals := ← rowAt? m r.mutableGlobals
    userdataTypes := ← rowAt? m r.userdataTypes
    disabledBuiltins := ← rowAt? m r.disabledBuiltins }

end CompilerLayout

/-- Settings on their way to the engine: the layout, and the memory it points into. -/
structure CompilerRecord where
  layout : CompilerLayout
  memory : Memory
  deriving DecidableEq, Repr

namespace CompilerRecord

def make (o : CompilerOptions) : CompilerRecord :=
  let (buffer, memory) := (CompilerBuffer.make o).run {}
  ⟨buffer.layout, memory⟩

/-- What the engine reads. A record that was made can be read. -/
def read (r : CompilerRecord) : CompilerOptions :=
  (r.layout.read? r.memory).getD {}

end CompilerRecord
end ScriptHost

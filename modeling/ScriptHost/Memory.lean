/-
Memory as far as the records that cross to the engine point into it: blocks that are allocated and
freed one by one, and rows of pointers, which move to a larger block when theirs is full.
-/
import ScriptHost.Text.CString

namespace ScriptHost

/-- Where a block is. -/
structure Address where
  number : Nat
  deriving DecidableEq, Repr

inductive Block where
  | text (s : CString)
  | pointers (row : List Address)
  deriving DecidableEq, Repr

/-- The blocks by their addresses. Nothing is at the address of a block that was freed. -/
structure Memory where
  blocks : List (Option Block) := []
  deriving DecidableEq, Repr

namespace Memory

def block? (m : Memory) (a : Address) : Option Block :=
  m.blocks[a.number]?.join

/-- The text behind a pointer, none if there is no text. -/
def text? (m : Memory) (a : Address) : Option CString :=
  match m.block? a with
  | some (.text s) => some s
  | _ => none

/-- The pointers in the block behind a pointer. -/
def row? (m : Memory) (a : Address) : Option (List Address) :=
  match m.block? a with
  | some (.pointers row) => some row
  | _ => none

/-- The address that is given out next. Those of freed blocks come first. -/
def vacant (m : Memory) : Address :=
  ⟨m.blocks.findIdx Option.isNone⟩

/-- Memory with a new block at the next address. -/
def grown (m : Memory) (block : Block) : Memory :=
  if m.vacant.number < m.blocks.length then ⟨m.blocks.set m.vacant.number (some block)⟩
  else ⟨m.blocks ++ [some block]⟩

/-- Memory with something else behind a pointer, nothing for none. -/
def changed (m : Memory) (a : Address) (block : Option Block) : Memory :=
  ⟨m.blocks.set a.number block⟩

def allocate (block : Block) : StateM Memory Address :=
  modifyGet fun m => (m.vacant, m.grown block)

def overwrite (a : Address) (block : Block) : StateM Memory Unit :=
  modify (·.changed a (some block))

def free (a : Address) : StateM Memory Unit :=
  modify (·.changed a none)

end Memory

/-- A row of pointers that grows at its end. One without room has no block. -/
structure Row where
  block : Option Address := none
  /-- How many pointers its block can hold. -/
  room : Nat := 0
  length : Nat := 0
  deriving DecidableEq, Repr

namespace Row

/-- The least room of a row that has grown. -/
def leastRoom : Nat := 4

/-- An empty row with a block of its own for some pointers. -/
def withRoom (room : Nat) : StateM Memory Row :=
  match room with
  | 0 => pure {}
  | _ => do
    let block ← Memory.allocate (.pointers [])
    return { block := some block, room }

def contents (r : Row) (m : Memory) : List Address :=
  (r.block.bind m.row?).getD []

/-- Puts a pointer at the end. A full row moves to a block with twice the room, and the old block is freed. -/
def push (r : Row) (a : Address) : StateM Memory Row := do
  let pointers := r.contents (← get) ++ [a]
  let bigger := max leastRoom (2 * r.room)
  match r.block with
  | none =>
    let block ← Memory.allocate (.pointers pointers)
    return ⟨some block, bigger, r.length + 1⟩
  | some block =>
    if r.length < r.room then
      Memory.overwrite block (.pointers pointers)
      return { r with length := r.length + 1 }
    else
      let moved ← Memory.allocate (.pointers pointers)
      Memory.free block
      return ⟨some moved, bigger, r.length + 1⟩

end Row
end ScriptHost

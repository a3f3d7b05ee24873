/-
Buffers. The engine takes every range as it is given and panics outside of the buffer, so every range is
checked against the size first, as whole numbers that cannot wrap.
-/
import ScriptHost.Host.Locks

namespace ScriptHost.Host.Buffer

def length (buffer : HandleId) : Host Nat :=
  withObject "get buffer length" buffer fun _ _ ref => return (← get).engine.bufferLength ref

def isEmpty (buffer : HandleId) : Host Bool :=
  return (← length buffer) = 0

/-- Whether a range lies within a size, the empty range at its end included. The end of a range has
to be a 64-bit word itself. -/
def inRange (offset length : UInt64) (size : Nat) : Bool :=
  offset.toNat + length.toNat < UInt64.size && offset.toNat + length.toNat ≤ size

/-- Makes sure that a range lies within a buffer. -/
def checkRange (buffer : ReferenceId) (offset length : UInt64) : Host Unit := do
  let size := (← get).engine.bufferLength buffer
  if inRange offset length size then return
  else throw (.outOfBounds offset.toNat length.toNat size)

def read (buffer : HandleId) (offset length : UInt64) : Host Bytes :=
  withObject "read buffer" buffer fun _ _ ref => do
    checkRange ref offset length
    tryInEngine .ofPanic fun e => (e.bufferRead ref offset.toNat length.toNat, e)

def write (buffer : HandleId) (offset : UInt64) (data : Bytes) : Host Unit :=
  withObject "write buffer" buffer fun _ _ ref => do
    checkRange ref offset (.ofNat data.length)
    tryInEngine .ofPanic (·.bufferWrite ref offset.toNat data)

def toBytes (buffer : HandleId) : Host Bytes := do
  read buffer 0 (.ofNat (← length buffer))

end ScriptHost.Host.Buffer

/-
Loading chunks of code as functions.
-/
import ScriptHost.Host.Table

namespace ScriptHost

/-- What the code of a chunk is. -/
inductive ChunkMode where
  | text
  | binary
  deriving DecidableEq, Repr

structure Chunk where
  name : String
  code : Bytes
  mode : ChunkMode := .text
  /-- The environment of the function, the globals if there is none. -/
  environment : Option HandleId := none
  /-- How to compile it, as the VM is set if there is nothing said. -/
  compiler : Option CompilerOptions := none

namespace Host

/-- Loads a chunk as a function. A function that comes with an error is closed. -/
def loadChunk (vm : VmId) (chunk : Chunk) : Host HandleId := do
  let (ref, error) ← withVm "load chunk" vm fun machine => do
    let environment ← chunk.environment.mapM (Table.sendTable vm)
    let raw : Engine.RawChunk :=
      ⟨.ofText chunk.name, chunk.code, environment, chunk.compiler.map CompilerRecord.make⟩
    inEngine fun e =>
      let (ref, error, e) := e.loadChunk machine raw
      ((ref, error), e)
  let loaded ← wrap vm .function ref
  match error, loaded with
  | some message, some h =>
    closeObject h
    throw (.native message.text)
  | some message, none => throw (.native message.text)
  | none, some h => return h
  | none, none => throw (.nullPointer "function")

end Host
end ScriptHost

/-
Texts and buffers as they cross to the engine. A C string ends at its first NUL, so a text loses
its NULs on the way; a buffer knows its length and loses nothing.
-/
import ScriptHost.Text.Utf8

namespace ScriptHost

def dropNul (bytes : Bytes) : Bytes :=
  bytes.filter (· ≠ 0)

/-- Bytes that can stand before a closing NUL. -/
structure CString where
  bytes : Bytes
  zero_notMem : 0 ∉ bytes
  deriving DecidableEq, Repr

namespace CString

/-- The C string of some bytes. NULs inside are dropped. -/
def ofBytes (bytes : Bytes) : CString :=
  ⟨dropNul bytes, by simp [dropNul]⟩

def ofText (s : String) : CString :=
  ofBytes (Utf8.ofString s)

def text (s : CString) : String :=
  Utf8.asString s.bytes

/-- The text behind a pointer lent for a call. Null reads as empty. -/
def borrowed : Option CString → String
  | none => ""
  | some s => s.text

/-- The text behind a pointer that is taken over, none for null. -/
def taken (s : Option CString) : Option String :=
  s.map text

/-- A new C string from the first bytes of a buffer, empty for a null pointer. -/
def copied (bytes : Option Bytes) (length : Nat) : CString :=
  match bytes with
  | none => ofBytes []
  | some bs => ofBytes (bs.take length)

@[simp] theorem bytes_ofBytes (bytes : Bytes) : (ofBytes bytes).bytes = dropNul bytes := rfl

end CString

/-- A buffer that crosses with its length. A null pointer holds nothing, not even no bytes. -/
structure RawBytes where
  contents : Option Bytes
  deriving DecidableEq, Repr

namespace RawBytes

def empty : RawBytes :=
  ⟨none⟩

/-- A buffer of its own for some bytes. -/
def ofBytes (bytes : Bytes) : RawBytes :=
  ⟨some bytes⟩

/-- A copy of the bytes behind a pointer; for a null pointer a buffer without bytes. -/
def copied (bytes : Option Bytes) : RawBytes :=
  ofBytes (bytes.getD [])

/-- The bytes taken back, none where there is no buffer. -/
def toBytes? (r : RawBytes) : Option Bytes :=
  r.contents

def length (r : RawBytes) : Nat :=
  (r.contents.getD []).length

def isNull (r : RawBytes) : Bool :=
  r.contents.isNone

end RawBytes
end ScriptHost

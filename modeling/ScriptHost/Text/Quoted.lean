/-
Quoted text for messages: double quotes around it, a backslash before what would end it, short
names for the usual controls and the code point of every other character that shows nothing.
-/
import ScriptHost.Text.Utf8
import ScriptHost.Text.Hidden

namespace ScriptHost.Text

/-- A code point in lower-case hexadecimal, without leading zeros. -/
def hexDigits (n : Nat) : Text :=
  Nat.toDigits 16 n

def quoteChar (c : Char) : Text :=
  if c = '"' then ['\\', '"']
  else if c = '\\' then ['\\', '\\']
  else if c = '\t' then ['\\', 't']
  else if c = '\n' then ['\\', 'n']
  else if c = '\r' then ['\\', 'r']
  else if c = '\x00' then ['\\', '0']
  else if isHidden c then ['\\', 'u', '{'] ++ hexDigits c.toNat ++ ['}']
  else [c]

/-- A text between double quotes, readable whatever it holds. -/
def quoted (s : Text) : Text :=
  '"' :: s.flatMap quoteChar ++ ['"']

end ScriptHost.Text

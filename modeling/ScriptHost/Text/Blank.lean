/-
White space and what settings make of it: a switch is on for `1` or `true`, in any ASCII case and
with blanks around it.
-/
import ScriptHost.Text.Utf8

namespace ScriptHost.Text

/-- The characters with the White_Space property. -/
def isBlank (c : Char) : Bool :=
  let n := c.toNat
  (0x9 ≤ n && n ≤ 0xD) || n = 0x20 || n = 0x85 || n = 0xA0 || n = 0x1680 ||
    (0x2000 ≤ n && n ≤ 0x200A) || n = 0x2028 || n = 0x2029 || n = 0x202F || n = 0x205F || n = 0x3000

def trim (s : Text) : Text :=
  ((s.dropWhile isBlank).reverse.dropWhile isBlank).reverse

/-- Whether a text switches something on. Case is folded for ASCII letters alone. -/
def isOn (s : Text) : Bool :=
  let word := (trim s).map Char.toLower
  word = ['1'] || word = ['t', 'r', 'u', 'e']

theorem isBlank_of_isWhitespace {c : Char} (h : c.isWhitespace) : isBlank c := by
  simp only [Char.isWhitespace, Bool.or_eq_true, decide_eq_true_eq] at h
  rcases h with ((rfl | rfl) | rfl) | rfl <;> decide

end ScriptHost.Text

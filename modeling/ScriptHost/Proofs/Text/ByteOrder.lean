/-
The order of texts by their bytes. A character with the greater number has the greater bytes, whatever
follows (`encodeChar_append_lt`): with more bytes the first one is greater, and with as many the bytes are
its digits.
-/
import ScriptHost.Text.Utf8

namespace ScriptHost.Utf8

/-! ## Bytes in order -/

/-- A first byte that is less decides. -/
theorem cons_lt_of_lt {a b : Nat} (h : a < b) (hb : b < 256) (s t : Bytes) :
    UInt8.ofNat a :: s < UInt8.ofNat b :: t := by
  refine List.cons_lt_cons_iff.mpr (.inl ?_)
  rw [UInt8.lt_iff_toNat_lt]
  simpa [Nat.mod_eq_of_lt (by omega : a < 256), Nat.mod_eq_of_lt hb] using h

/-- After equal first bytes the rest decides. -/
theorem cons_lt_of_eq {a b : Nat} (h : a = b) {s t : Bytes} (rest : s < t) :
    UInt8.ofNat a :: s < UInt8.ofNat b :: t :=
  List.cons_lt_cons_iff.mpr (.inr ⟨congrArg _ h, rest⟩)

theorem append_lt_append {s t : Bytes} (h : s < t) (before : Bytes) : before ++ s < before ++ t := by
  induction before with
  | nil => exact h
  | cons b before ih => exact List.cons_lt_cons_iff.mpr (.inr ⟨rfl, ih⟩)

/-! ## Characters by their digits -/

/-- What so many digits count up to, six bits each. -/
def scale : Nat → Nat
  | 0 => 1
  | k + 1 => scale k * 64

/-- How many bytes follow the first one of a character. -/
def bytesAfter (n : Nat) : Nat :=
  if n < 0x80 then 0 else if n < 0x800 then 1 else if n < 0x10000 then 2 else 3

/-- What a first byte says when so many follow. -/
def marker : Nat → Nat
  | 0 => 0
  | 1 => 0xC0
  | 2 => 0xE0
  | _ => 0xF0

/-- The first byte of a character: how many follow, and the first digits. -/
def firstByte (n : Nat) : Nat :=
  marker (bytesAfter n) + n / scale (bytesAfter n)

/-- So many last digits of a character. -/
def trailing : Nat → Nat → Bytes
  | 0, _ => []
  | k + 1, n => .ofNat (0x80 + n / scale k % 64) :: trailing k n

theorem encodeChar_eq (c : Char) :
    encodeChar c = .ofNat (firstByte c.toNat) :: trailing (bytesAfter c.toNat) c.toNat := by
  simp only [encodeChar, firstByte, bytesAfter]
  split
  · simp [marker, trailing, scale]
  split
  · simp [marker, trailing, scale]
  split <;> simp [marker, trailing, scale]

theorem firstByte_cases (n : Nat) :
    (n < 0x80 ∧ bytesAfter n = 0 ∧ firstByte n = n) ∨
      (0x80 ≤ n ∧ n < 0x800 ∧ bytesAfter n = 1 ∧ firstByte n = 0xC0 + n / 64) ∨
      (0x800 ≤ n ∧ n < 0x10000 ∧ bytesAfter n = 2 ∧ firstByte n = 0xE0 + n / 4096) ∨
      (0x10000 ≤ n ∧ bytesAfter n = 3 ∧ firstByte n = 0xF0 + n / 262144) := by
  simp only [firstByte, bytesAfter]
  split
  · simpa [marker, scale]
  split
  · simp [marker, scale]
    omega
  split <;> simp [marker, scale] <;> omega

theorem bytesAfter_le {m n : Nat} (h : m < n) : bytesAfter m ≤ bytesAfter n := by
  have := firstByte_cases m
  have := firstByte_cases n
  omega

theorem firstByte_lt_of_fewer {m n : Nat} (fewer : bytesAfter m < bytesAfter n) :
    firstByte m < firstByte n := by
  have := firstByte_cases m
  have := firstByte_cases n
  omega

theorem firstByte_lt_256 {n : Nat} (bound : n < 0x110000) : firstByte n < 256 := by
  have := firstByte_cases n
  omega

theorem scale_pos (k : Nat) : 0 < scale k := by
  induction k with
  | zero => decide
  | succ k ih => exact Nat.mul_pos ih (by decide)

/-- Of numbers that differ in their last digits, the less has the lesser digits. -/
theorem trailing_append_lt {k m n : Nat} (h : m % scale k < n % scale k) (s t : Bytes) :
    trailing k m ++ s < trailing k n ++ t := by
  induction k with
  | zero => simp [scale, Nat.mod_one] at h
  | succ k ih =>
    rw [scale, Nat.mod_mul, Nat.mod_mul] at h
    rcases Nat.lt_trichotomy (m / scale k % 64) (n / scale k % 64) with lt | eq | gt
    · have digit : n / scale k % 64 < 64 := Nat.mod_lt _ (by decide)
      exact cons_lt_of_lt (by omega) (by omega) _ _
    · refine cons_lt_of_eq (by omega) (ih ?_)
      rw [eq] at h
      omega
    · -- A digit that is greater is worth more than all that follow.
      have more := Nat.mul_le_mul_left (scale k) gt
      have rest := Nat.mod_lt n (scale_pos k)
      rw [Nat.mul_succ] at more
      omega

/-- A character with the greater number has the greater bytes, whatever follows. -/
theorem encodeChar_append_lt {c d : Char} (h : c.toNat < d.toNat) (s t : Bytes) :
    encodeChar c ++ s < encodeChar d ++ t := by
  have valid : d.toNat < 0xD800 ∨ (0xDFFF < d.toNat ∧ d.toNat < 0x110000) := d.valid
  have bound : firstByte d.toNat < 256 := firstByte_lt_256 (by omega)
  rw [encodeChar_eq, encodeChar_eq]
  generalize c.toNat = m at *
  generalize d.toNat = n at *
  rcases Nat.lt_or_eq_of_le (bytesAfter_le h) with fewer | same
  · exact cons_lt_of_lt (firstByte_lt_of_fewer fewer) bound _ _
  · rw [firstByte] at bound
    rw [firstByte, firstByte, same]
    have quotient : m / scale (bytesAfter n) ≤ n / scale (bytesAfter n) :=
      Nat.div_le_div_right (Nat.le_of_lt h)
    rcases Nat.lt_or_eq_of_le quotient with lt | eq
    · exact cons_lt_of_lt (Nat.add_lt_add_left lt _) bound _ _
    · refine cons_lt_of_eq (congrArg _ eq) (trailing_append_lt ?_ s t)
      have left := Nat.div_add_mod m (scale (bytesAfter n))
      have right := Nat.div_add_mod n (scale (bytesAfter n))
      rw [eq] at left
      omega

end ScriptHost.Utf8

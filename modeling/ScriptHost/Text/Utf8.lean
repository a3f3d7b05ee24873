/-
UTF-8 between lists of characters and lists of bytes. Encoding is total. Decoding never fails
either: the longest run of bytes that starts a character but does not finish it is read as one
U+FFFD, and so is every byte that can start none. What was encoded decodes to itself
(`decode_encode`).
-/

namespace ScriptHost

/-- Paths, names and messages as the library works on them. -/
abbrev Text := List Char

/-- Raw contents: files, chunks, strings of the engine. -/
abbrev Bytes := List UInt8

namespace Utf8

/-- What stands for bytes that are not UTF-8. -/
def replacement : Char := '\uFFFD'

def encodeChar (c : Char) : Bytes :=
  let n := c.toNat
  let tail (k : Nat) : UInt8 := .ofNat (0x80 + k % 64)
  if n < 0x80 then [.ofNat n]
  else if n < 0x800 then [.ofNat (0xC0 + n / 64), tail n]
  else if n < 0x10000 then [.ofNat (0xE0 + n / 4096), tail (n / 64), tail n]
  else [.ofNat (0xF0 + n / 262144), tail (n / 4096), tail (n / 64), tail n]

def encode (s : Text) : Bytes :=
  s.flatMap encodeChar

/-- A character begun: how many bytes are owed, the least and the greatest value of the next one,
and the bits read so far. -/
structure Pending where
  owed : Nat
  low : Nat
  high : Nat
  bits : Nat
  deriving DecidableEq, Repr

/-- Between two characters there is nothing pending. -/
abbrev State := Option Pending

/-- A byte between two characters: the characters it settles and the state after it. -/
def start (b : Nat) : Text × State :=
  if b < 0x80 then ([Char.ofNat b], none)
  else if b < 0xC2 then ([replacement], none)
  else if b < 0xE0 then ([], some ⟨1, 0x80, 0xBF, b - 0xC0⟩)
  else if b < 0xF0 then
    ([], some ⟨2, if b = 0xE0 then 0xA0 else 0x80, if b = 0xED then 0x9F else 0xBF, b - 0xE0⟩)
  else if b < 0xF5 then
    ([], some ⟨3, if b = 0xF0 then 0x90 else 0x80, if b = 0xF4 then 0x8F else 0xBF, b - 0xF0⟩)
  else ([replacement], none)

/-- One byte. A byte that cannot go on with the character begun ends it as a replacement and is
then read as a first byte itself. -/
def step (st : State) (b : Nat) : Text × State :=
  match st with
  | none => start b
  | some p =>
    if p.low ≤ b ∧ b ≤ p.high then
      let bits := p.bits * 64 + (b - 0x80)
      if p.owed ≤ 1 then ([Char.ofNat bits], none)
      else ([], some ⟨p.owed - 1, 0x80, 0xBF, bits⟩)
    else
      let (cs, st') := start b
      (replacement :: cs, st')

/-- The characters of the remaining bytes. A character still pending at the end is a replacement. -/
def decodeFrom : State → Bytes → Text
  | none, [] => []
  | some _, [] => [replacement]
  | st, b :: bs =>
    let (cs, st') := step st b.toNat
    cs ++ decodeFrom st' bs

/-- The text of a byte string, whatever the bytes. -/
def decode (bs : Bytes) : Text :=
  decodeFrom none bs

/-- Bytes of a `String`. -/
def ofString (s : String) : Bytes :=
  encode s.toList

/-- Bytes read as a `String`. -/
def asString (bs : Bytes) : String :=
  String.ofList (decode bs)

@[simp] theorem encode_nil : encode [] = [] := rfl

@[simp] theorem encode_cons (c : Char) (s : Text) : encode (c :: s) = encodeChar c ++ encode s := rfl

theorem encode_append (s t : Text) : encode (s ++ t) = encode s ++ encode t := by
  simp [encode]

/-! ## What was encoded decodes to itself -/

theorem decodeFrom_cons {b : Nat} (h : b < 256) (st : State) (rest : Bytes) :
    decodeFrom st (.ofNat b :: rest) = (step st b).1 ++ decodeFrom (step st b).2 rest := by
  have toNat_b : (UInt8.ofNat b).toNat = b := by simp; omega
  cases st <;> simp only [decodeFrom, toNat_b]

theorem step_some_of_mem {p : Pending} {b : Nat} (low : p.low ≤ b) (high : b ≤ p.high) :
    step (some p) b =
      if p.owed ≤ 1 then ([Char.ofNat (p.bits * 64 + (b - 0x80))], none)
      else ([], some ⟨p.owed - 1, 0x80, 0xBF, p.bits * 64 + (b - 0x80)⟩) := by
  simp [step, low, high]

theorem start_one {n : Nat} (h : n < 0x80) : start n = ([Char.ofNat n], none) := by
  simp [start, h]

theorem start_two {k : Nat} (h : 2 ≤ k ∧ k < 0x20) :
    start (0xC0 + k) = ([], some ⟨1, 0x80, 0xBF, k⟩) := by
  unfold start
  rw [if_neg (by omega), if_neg (by omega), if_pos (by omega), Nat.add_sub_cancel_left]

theorem start_three {k : Nat} (h : k < 0x10) :
    start (0xE0 + k) = ([], some ⟨2, if k = 0 then 0xA0 else 0x80,
      if k = 0xD then 0x9F else 0xBF, k⟩) := by
  unfold start
  rw [if_neg (by omega), if_neg (by omega), if_neg (by omega), if_pos (by omega),
    Nat.add_sub_cancel_left]
  have first : (0xE0 + k = 0xE0) = (k = 0) := by simp
  have last : (0xE0 + k = 0xED) = (k = 0xD) := by simp only [eq_iff_iff]; omega
  simp only [first, last]

theorem start_four {k : Nat} (h : k < 5) :
    start (0xF0 + k) = ([], some ⟨3, if k = 0 then 0x90 else 0x80,
      if k = 4 then 0x8F else 0xBF, k⟩) := by
  unfold start
  rw [if_neg (by omega), if_neg (by omega), if_neg (by omega), if_neg (by omega),
    if_pos (by omega), Nat.add_sub_cancel_left]
  have first : (0xF0 + k = 0xF0) = (k = 0) := by simp
  have last : (0xF0 + k = 0xF4) = (k = 4) := by simp only [eq_iff_iff]; omega
  simp only [first, last]

/-- A last byte settles the character. -/
theorem decodeFrom_last {low high bits k : Nat} (h : low ≤ 0x80 + k ∧ 0x80 + k ≤ high ∧ k < 64)
    (rest : Bytes) :
    decodeFrom (some ⟨1, low, high, bits⟩) (.ofNat (0x80 + k) :: rest) =
      Char.ofNat (bits * 64 + k) :: decodeFrom none rest := by
  rw [decodeFrom_cons (by omega), step_some_of_mem h.1 h.2.1]
  simp

/-- A byte before the last adds six bits. -/
theorem decodeFrom_more {owed low high bits k : Nat}
    (h : low ≤ 0x80 + k ∧ 0x80 + k ≤ high ∧ k < 64) (rest : Bytes) :
    decodeFrom (some ⟨owed + 2, low, high, bits⟩) (.ofNat (0x80 + k) :: rest) =
      decodeFrom (some ⟨owed + 1, 0x80, 0xBF, bits * 64 + k⟩) rest := by
  rw [decodeFrom_cons (by omega), step_some_of_mem h.1 h.2.1]
  simp

/-- A first byte that starts a character. -/
theorem decodeFrom_start {b : Nat} {p : Pending} (h : b < 256) (s : start b = ([], some p))
    (rest : Bytes) : decodeFrom none (.ofNat b :: rest) = decodeFrom (some p) rest := by
  rw [decodeFrom_cons h]
  simp [step, s]

/-- A character that was encoded is read back, whatever follows it. -/
theorem decodeFrom_encodeChar (c : Char) (rest : Bytes) :
    decodeFrom none (encodeChar c ++ rest) = c :: decodeFrom none rest := by
  have valid : c.toNat < 0xD800 ∨ (0xDFFF < c.toNat ∧ c.toNat < 0x110000) := c.valid
  have back : Char.ofNat c.toNat = c := Char.ofNat_toNat c
  unfold encodeChar
  generalize c.toNat = n at valid back
  subst back
  dsimp only
  split
  · rename_i h
    rw [List.singleton_append, decodeFrom_cons (by omega)]
    simp [step, start_one h]
  split
  · simp only [List.cons_append, List.nil_append]
    rw [decodeFrom_start (by omega) (start_two (by omega)), decodeFrom_last (by omega),
      show n / 64 * 64 + n % 64 = n by omega]
  split
  · simp only [List.cons_append, List.nil_append]
    rw [decodeFrom_start (by omega) (start_three (by omega)), decodeFrom_more, decodeFrom_last,
      show (n / 4096 * 64 + n / 64 % 64) * 64 + n % 64 = n by omega]
    · omega
    · split <;> split <;> omega
  · simp only [List.cons_append, List.nil_append]
    rw [decodeFrom_start (by omega) (start_four (by omega)), decodeFrom_more, decodeFrom_more,
      decodeFrom_last,
      show ((n / 262144 * 64 + n / 4096 % 64) * 64 + n / 64 % 64) * 64 + n % 64 = n by omega]
    · omega
    · omega
    · split <;> split <;> omega

theorem decode_encode (s : Text) : decode (encode s) = s := by
  induction s with
  | nil => rfl
  | cons c s ih =>
    rw [encode_cons, decode, decodeFrom_encodeChar]
    exact congrArg (c :: ·) ih

theorem asString_ofString (s : String) : asString (ofString s) = s := by
  simp [asString, ofString, decode_encode]

end Utf8
end ScriptHost

/-
What bytes say that need not be UTF-8 (`Utf8.decode_eq_iff`). Read from the left, the encoding of a character is
that character, a byte that starts no character is a replacement, and so is the longest run of bytes that starts
one and does not finish it. The decoder meets this with what it has pending: the runs that lead to a pending
state (`Utf8.Pends`) are those that start a character (`Utf8.pends_iff`), and the bytes it goes on with are those
that some character goes on with.
-/
import ScriptHost.Proofs.Text.ByteOrder

namespace ScriptHost.Utf8

/-! ## The rules of reading -/

/-- The encoding is that of the standard library. -/
theorem encodeChar_eq_utf8EncodeChar (c : Char) : encodeChar c = String.utf8EncodeChar c := by
  have valid : c.toNat < 0xD800 ∨ (0xDFFF < c.toNat ∧ c.toNat < 0x110000) := c.valid
  have number : c.val.toNat = c.toNat := rfl
  have digit : ∀ m, 0x80 + m = m + 128 := fun m => Nat.add_comm _ _
  simp only [encodeChar, String.utf8EncodeChar, number]
  generalize c.toNat = n at valid
  split
  · rw [if_pos (by omega)]
  split
  · rw [if_neg (by omega), if_pos (by omega), show n / 64 % 32 + 192 = 0xC0 + n / 64 by omega, digit]
  split
  · rw [if_neg (by omega), if_neg (by omega), if_pos (by omega), show n / 4096 % 16 + 224 = 0xE0 + n / 4096 by omega,
      digit, digit]
  · rw [if_neg (by omega), if_neg (by omega), if_neg (by omega), show n / 262144 % 8 + 240 = 0xF0 + n / 262144 by omega,
      digit, digit, digit]

/-- Bytes that start a character and do not finish it. -/
def Begins (run : Bytes) : Prop :=
  run ≠ [] ∧ ∃ (c : Char) (tail : Bytes), tail ≠ [] ∧ encodeChar c = run ++ tail

/-- What some bytes say. -/
inductive Reads : Bytes → Text → Prop
  | nil : Reads [] []
  | character (c : Char) {bs : Bytes} {cs : Text} (rest : Reads bs cs) : Reads (encodeChar c ++ bs) (c :: cs)
  /-- A byte that starts no character. -/
  | stray {b : UInt8} {bs : Bytes} {cs : Text} (starts : ∀ c, ¬ [b] <+: encodeChar c) (rest : Reads bs cs) :
    Reads (b :: bs) (replacement :: cs)
  /-- A character that is begun, and what follows does not go on with it. -/
  | broken {run bs : Bytes} {cs : Text} (begins : Begins run)
    (stops : ∀ b ∈ bs.head?, ∀ c, ¬ run ++ [b] <+: encodeChar c) (rest : Reads bs cs) :
    Reads (run ++ bs) (replacement :: cs)

/-! ## Digits -/

theorem scale_add (j i : Nat) : scale (j + i) = scale j * scale i := by
  induction i with
  | zero => rw [Nat.add_zero, scale, Nat.mul_one]
  | succ i ih => rw [← Nat.add_assoc, scale, ih, scale, Nat.mul_assoc]

/-- The last digits do not depend on those before them. -/
theorem trailing_mul_add (i m y : Nat) : trailing i (m * scale i + y) = trailing i y := by
  induction i generalizing m with
  | zero => rfl
  | succ i ih =>
    have shift : m * scale (i + 1) + y = m * 64 * scale i + y := by
      rw [scale, Nat.mul_comm (scale i) 64, Nat.mul_assoc]
    have digit : (m * 64 * scale i + y) / scale i % 64 = y / scale i % 64 := by
      rw [Nat.add_comm, Nat.add_mul_div_right _ _ (scale_pos i), Nat.add_mul_mod_self_right]
    rw [shift, trailing, trailing, ih, digit]

theorem trailing_add (j : Nat) {i y : Nat} (m : Nat) (small : y < scale i) :
    trailing (j + i) (m * scale i + y) = trailing j m ++ trailing i y := by
  induction j with
  | zero => rw [Nat.zero_add, trailing_mul_add, trailing, List.nil_append]
  | succ j ih =>
    have digit : (m * scale i + y) / scale (j + i) = m / scale j := by
      rw [Nat.add_comm j i, scale_add, ← Nat.div_div_eq_div_mul, Nat.mul_comm, Nat.mul_add_div (scale_pos i),
        Nat.div_eq_of_lt small, Nat.add_zero]
    rw [Nat.add_right_comm, trailing, ih, digit, trailing, List.cons_append]

/-- One digit more at the end. -/
theorem div_scale_succ (j bits : Nat) {x : Nat} (small : x < 64) :
    (bits * 64 + x) / scale (j + 1) = bits / scale j := by
  rw [scale, Nat.mul_comm (scale j), ← Nat.div_div_eq_div_mul, show (bits * 64 + x) / 64 = bits by omega]

theorem trailing_succ (j bits : Nat) {x : Nat} (small : x < 64) :
    trailing (j + 1) (bits * 64 + x) = trailing j bits ++ [.ofNat (0x80 + x)] := by
  have split := trailing_add j bits (i := 1) (y := x) small
  rwa [trailing, trailing, scale, Nat.div_one, Nat.mod_eq_of_lt small] at split

/-! ## What is pending -/

/-- A run of bytes that leads to a pending state without settling anything. -/
inductive Pends : Bytes → Pending → Prop
  | first {b : UInt8} {p : Pending} (starts : start b.toNat = ([], some p)) : Pends [b] p
  | next {run : Bytes} {p : Pending} {b : UInt8} (pends : Pends run p) (low : p.low ≤ b.toNat)
    (high : b.toNat ≤ p.high) (owed : 1 < p.owed) :
    Pends (run ++ [b]) ⟨p.owed - 1, 0x80, 0xBF, p.bits * 64 + (b.toNat - 0x80)⟩

/-- Numbers of characters with so many bytes after the first. -/
def Fits (k n : Nat) : Prop :=
  bytesAfter n = k ∧ n.isValidChar

/-- A run whose bits are the first digits of a character, of which so many are still owed. Whatever follows
within the bounds of the state makes a character. -/
structure Opened (k j : Nat) (run : Bytes) (p : Pending) : Prop where
  owed : p.owed + j = k
  owes : 0 < p.owed
  low : 0x80 ≤ p.low
  bounds : p.low ≤ p.high
  high : p.high < 0xC0
  digits : run = .ofNat (marker k + p.bits / scale j) :: trailing j p.bits
  fits : ∀ x y, p.low ≤ 0x80 + x → 0x80 + x ≤ p.high → y < scale (p.owed - 1) →
    Fits k ((p.bits * 64 + x) * scale (p.owed - 1) + y)

theorem fits_one {n : Nat} (low : 0x80 ≤ n) (high : n < 0x800) : Fits 1 n := by
  have := firstByte_cases n
  exact ⟨by omega, .inl (by omega)⟩

theorem fits_two {n : Nat} (low : 0x800 ≤ n) (high : n < 0x10000) (apart : n < 0xD800 ∨ 0xE000 ≤ n) : Fits 2 n := by
  have := firstByte_cases n
  refine ⟨by omega, ?_⟩
  rcases apart with below | above
  · exact .inl below
  · exact .inr ⟨by omega, by omega⟩

theorem fits_three {n : Nat} (low : 0x10000 ≤ n) (high : n < 0x110000) : Fits 3 n := by
  have := firstByte_cases n
  exact ⟨by omega, .inr ⟨by omega, by omega⟩⟩

theorem opened_start {b : UInt8} {p : Pending} (starts : start b.toNat = ([], some p)) : ∃ k, Opened k 0 [b] p := by
  -- The first byte is the marker and the first digits.
  have byte : ∀ m bits, b.toNat = m + bits → [b] = UInt8.ofNat (m + bits / scale 0) :: trailing 0 bits := by
    intro m bits same
    rw [scale, Nat.div_one, ← same, UInt8.ofNat_toNat, trailing]
  unfold start at starts
  split at starts
  · cases starts
  split at starts
  · cases starts
  split at starts
  · obtain rfl : _ = p := Option.some.inj (Prod.mk.inj starts).2
    refine ⟨1, rfl, Nat.zero_lt_one, Nat.le_refl _, by simp, by simp, byte _ _ (by simp [marker]; omega), ?_⟩
    intro x y low high small
    simp only [scale, Nat.sub_self] at low high small ⊢
    exact fits_one (by omega) (by omega)
  split at starts
  · obtain rfl : _ = p := Option.some.inj (Prod.mk.inj starts).2
    refine ⟨2, rfl, Nat.zero_lt_two, ?_, ?_, ?_, byte _ _ (by simp [marker]; omega), ?_⟩
    · dsimp only
      split <;> omega
    · dsimp only
      split <;> split <;> omega
    · dsimp only
      split <;> omega
    · intro x y low high small
      simp only [scale, Nat.add_one_sub_one, Nat.one_mul] at low high small ⊢
      split at low <;> split at high <;> exact fits_two (by omega) (by omega) (by omega)
  split at starts
  · obtain rfl : _ = p := Option.some.inj (Prod.mk.inj starts).2
    refine ⟨3, rfl, Nat.zero_lt_succ _, ?_, ?_, ?_, byte _ _ (by simp [marker]; omega), ?_⟩
    · dsimp only
      split <;> omega
    · dsimp only
      split <;> split <;> omega
    · dsimp only
      split <;> omega
    · intro x y low high small
      simp only [scale, Nat.add_one_sub_one, Nat.one_mul] at low high small ⊢
      split at low <;> split at high <;> exact fits_three (by omega) (by omega)
  · cases starts

/-- A byte within the bounds, by the digit that it is. -/
theorem Opened.digit {k j : Nat} {run : Bytes} {p : Pending} {b : UInt8} (opened : Opened k j run p)
    (low : p.low ≤ b.toNat) (high : b.toNat ≤ p.high) : ∃ x < 64, b.toNat = 0x80 + x ∧ b = .ofNat (0x80 + x) := by
  have least := opened.low
  have most := opened.high
  refine ⟨b.toNat - 0x80, by omega, by omega, ?_⟩
  rw [Nat.add_sub_cancel' (by omega), UInt8.ofNat_toNat]

theorem Opened.next {k j : Nat} {run : Bytes} {p : Pending} {b : UInt8} (opened : Opened k j run p)
    (low : p.low ≤ b.toNat) (high : b.toNat ≤ p.high) (owed : 1 < p.owed) :
    Opened k (j + 1) (run ++ [b]) ⟨p.owed - 1, 0x80, 0xBF, p.bits * 64 + (b.toNat - 0x80)⟩ := by
  obtain ⟨x, small, number, rfl⟩ := opened.digit low high
  have count := opened.owed
  have fits := opened.fits x
  have digits := opened.digits
  obtain ⟨owes, least, most, bits⟩ := p
  obtain ⟨o, rfl⟩ : ∃ o, owes = o + 2 := ⟨owes - 2, by dsimp only at owed; omega⟩
  rw [number] at low high ⊢
  rw [Nat.add_sub_cancel_left]
  dsimp only [Nat.add_one_sub_one] at count fits digits ⊢
  refine ⟨by dsimp only; omega, Nat.succ_pos o, Nat.le_refl _, by simp, by simp, ?_, fun x' y below above less => ?_⟩
  · rw [div_scale_succ j bits small, trailing_succ j bits small, digits, List.cons_append]
  · dsimp only [Nat.add_one_sub_one] at below above less ⊢
    have room : x' * scale o + y < scale (o + 1) := by
      have top := Nat.mul_le_mul_right (scale o) (show x' + 1 ≤ 64 by omega)
      rw [Nat.succ_mul] at top
      rw [scale]
      omega
    have same : ((bits * 64 + x) * 64 + x') * scale o + y = (bits * 64 + x) * scale (o + 1) + (x' * scale o + y) := by
      rw [scale, Nat.add_mul _ x', Nat.mul_assoc _ 64, Nat.mul_comm 64, Nat.add_assoc]
    rw [same]
    exact fits _ low high room

/-- What goes on within the bounds is a character, and the run is the start of it. -/
theorem Opened.encodeChar {k j : Nat} {run : Bytes} {p : Pending} {x y : Nat} (opened : Opened k j run p)
    (low : p.low ≤ 0x80 + x) (high : 0x80 + x ≤ p.high) (small : y < scale (p.owed - 1)) :
    Utf8.encodeChar (Char.ofNat ((p.bits * 64 + x) * scale (p.owed - 1) + y)) =
      run ++ .ofNat (0x80 + x) :: trailing (p.owed - 1) y := by
  obtain ⟨after, valid⟩ := opened.fits x y low high small
  have owed := opened.owed
  have owes := opened.owes
  have most := opened.high
  have digit : x < 64 := by omega
  have total : k = j + 1 + (p.owed - 1) := by omega
  have number : (Char.ofNat ((p.bits * 64 + x) * scale (p.owed - 1) + y)).toNat =
      (p.bits * 64 + x) * scale (p.owed - 1) + y := by
    rw [Char.ofNat, dif_pos valid]
    rfl
  have first : ((p.bits * 64 + x) * scale (p.owed - 1) + y) / scale k = p.bits / scale j := by
    rw [total, Nat.add_comm _ (p.owed - 1), scale_add, ← Nat.div_div_eq_div_mul, Nat.mul_comm (p.bits * 64 + x),
      Nat.mul_add_div (scale_pos _), Nat.div_eq_of_lt small, Nat.add_zero, div_scale_succ j _ digit]
  have rest : trailing k ((p.bits * 64 + x) * scale (p.owed - 1) + y) =
      trailing j p.bits ++ .ofNat (0x80 + x) :: trailing (p.owed - 1) y := by
    rw [total, trailing_add (j + 1) _ small, trailing_succ j _ digit, List.append_assoc, List.singleton_append]
  rw [encodeChar_eq, number, firstByte, after, first, rest, opened.digits, List.cons_append]

/-! ## The runs that are pending -/

theorem Pends.opened {run : Bytes} {p : Pending} (pends : Pends run p) : ∃ k j, Opened k j run p := by
  induction pends with
  | first starts =>
    obtain ⟨k, opened⟩ := opened_start starts
    exact ⟨k, 0, opened⟩
  | next _ low high owed ih =>
    obtain ⟨k, j, opened⟩ := ih
    exact ⟨k, j + 1, opened.next low high owed⟩

theorem Pends.decodeFrom {run : Bytes} {p : Pending} (pends : Pends run p) (rest : Bytes) :
    decodeFrom none (run ++ rest) = Utf8.decodeFrom (some p) rest := by
  induction pends generalizing rest with
  | first starts =>
    simp only [List.singleton_append, Utf8.decodeFrom, step, starts, List.nil_append]
  | next _ low high owed ih =>
    rw [List.append_assoc, ih, List.singleton_append, Utf8.decodeFrom, step_some_of_mem low high, if_neg (by omega)]
    rfl

theorem decodeFrom_refused {p : Pending} {b : UInt8} (outside : ¬ (p.low ≤ b.toNat ∧ b.toNat ≤ p.high)) (bs : Bytes) :
    Utf8.decodeFrom (some p) (b :: bs) = replacement :: Utf8.decodeFrom none (b :: bs) := by
  rw [Utf8.decodeFrom, step, if_neg outside]
  rfl

/-- A first byte is a character, is none, or leaves one pending. -/
theorem start_cases (b : Nat) :
    (b < 0x80 ∧ start b = ([Char.ofNat b], none)) ∨ start b = ([replacement], none) ∨ ∃ p, start b = ([], some p) := by
  unfold start
  split
  · next small => exact .inl ⟨small, rfl⟩
  split
  · exact .inr (.inl rfl)
  split
  · exact .inr (.inr ⟨_, rfl⟩)
  split
  · exact .inr (.inr ⟨_, rfl⟩)
  split
  · exact .inr (.inr ⟨_, rfl⟩)
  · exact .inr (.inl rfl)

/-- A byte settles something or leaves something pending. -/
theorem step_progress (st : State) (b : Nat) : (step st b).1 ≠ [] ∨ (step st b).2 ≠ none := by
  cases st with
  | none => rcases start_cases b with ⟨-, same⟩ | same | ⟨p, same⟩ <;> simp [step, same]
  | some p =>
    rw [step]
    dsimp only
    split
    · split <;> simp
    · simp

/-- Bytes say something, and so does what is pending. -/
theorem decodeFrom_ne_nil {st : State} {bs : Bytes} (something : bs ≠ [] ∨ st ≠ none) :
    Utf8.decodeFrom st bs ≠ [] := by
  induction bs generalizing st with
  | nil =>
    cases st with
    | none => simp at something
    | some p => simp [Utf8.decodeFrom]
  | cons b bs ih =>
    rw [Utf8.decodeFrom]
    intro empty
    obtain ⟨settled, rest⟩ := List.append_eq_nil_iff.mp empty
    rcases step_progress st b.toNat with progress | progress
    · exact progress settled
    · exact ih (.inr progress) rest

/-- The encoding of a character says nothing else. -/
theorem decodeFrom_prefix {c : Char} {bs tail : Bytes} (whole : encodeChar c = bs ++ tail) :
    Utf8.decodeFrom none (bs ++ tail) = [c] := by
  rw [← whole, ← List.append_nil (encodeChar c), decodeFrom_encodeChar]
  rfl

theorem Pends.settles {run : Bytes} {p : Pending} {b : UInt8} (pends : Pends run p) (low : p.low ≤ b.toNat)
    (high : b.toNat ≤ p.high) (owed : p.owed ≤ 1) :
    encodeChar (Char.ofNat (p.bits * 64 + (b.toNat - 0x80))) = run ++ [b] := by
  obtain ⟨k, j, opened⟩ := pends.opened
  obtain ⟨x, -, number, rfl⟩ := opened.digit low high
  have last : p.owed - 1 = 0 := by omega
  have whole := opened.encodeChar (x := x) (y := 0) (number ▸ low) (number ▸ high) (scale_pos _)
  rw [last, scale, Nat.mul_one, Nat.add_zero, trailing] at whole
  rw [number, Nat.add_sub_cancel_left, whole]

/-- A byte goes on with a character just if it is within the bounds. -/
theorem Pends.goesOn_iff {run : Bytes} {p : Pending} {b : UInt8} (pends : Pends run p) :
    (∃ c, run ++ [b] <+: encodeChar c) ↔ p.low ≤ b.toNat ∧ b.toNat ≤ p.high := by
  refine ⟨fun ⟨c, tail, whole⟩ => ?_, fun ⟨low, high⟩ => ?_⟩
  · -- A byte that is refused is a replacement and then something else, which no one character is.
    refine Decidable.byContradiction fun outside => ?_
    have one := decodeFrom_prefix whole.symm
    rw [List.append_assoc, pends.decodeFrom, List.singleton_append, decodeFrom_refused outside] at one
    exact decodeFrom_ne_nil (.inl (List.cons_ne_nil _ _)) (List.cons.inj one).2
  · obtain ⟨k, j, opened⟩ := pends.opened
    obtain ⟨x, -, number, rfl⟩ := opened.digit low high
    have whole := opened.encodeChar (x := x) (y := 0) (number ▸ low) (number ▸ high) (scale_pos _)
    exact ⟨_, _, by rw [whole, List.append_assoc, List.singleton_append]⟩

theorem Pends.begins {run : Bytes} {p : Pending} (pends : Pends run p) : Begins run := by
  obtain ⟨k, j, opened⟩ := pends.opened
  have least := opened.low
  have bounds := opened.bounds
  have any : run ≠ [] := opened.digits ▸ List.cons_ne_nil _ _
  exact ⟨any, _, _, List.cons_ne_nil _ _,
    opened.encodeChar (x := p.low - 0x80) (y := 0) (by omega) (by omega) (scale_pos _)⟩

/-- As long as something is left of a character, what was read of it is pending. -/
theorem Pends.extend {run : Bytes} {p : Pending} (pends : Pends run p) {c : Char} (more : Bytes) {tail : Bytes}
    (left : tail ≠ []) (one : Utf8.decodeFrom (some p) (more ++ tail) = [c]) : ∃ p', Pends (run ++ more) p' := by
  induction more generalizing run p with
  | nil => exact ⟨p, by rwa [List.append_nil]⟩
  | cons b more ih =>
    have rest : more ++ tail ≠ [] := by simp [left]
    rw [List.cons_append] at one
    by_cases inside : p.low ≤ b.toNat ∧ b.toNat ≤ p.high
    · rw [Utf8.decodeFrom, step_some_of_mem inside.1 inside.2] at one
      by_cases owed : p.owed ≤ 1
      · rw [if_pos owed] at one
        exact absurd (List.cons.inj one).2 (decodeFrom_ne_nil (.inl rest))
      · rw [if_neg owed] at one
        obtain ⟨p', pends'⟩ := ih (pends.next inside.1 inside.2 (by omega)) one
        exact ⟨p', by rwa [List.append_assoc, List.singleton_append] at pends'⟩
    · rw [decodeFrom_refused inside] at one
      exact absurd (List.cons.inj one).2 (decodeFrom_ne_nil (.inl (List.cons_ne_nil _ _)))

/-- The runs that are pending are those that start a character. -/
theorem pends_iff {run : Bytes} : (∃ p, Pends run p) ↔ Begins run := by
  refine ⟨fun ⟨_, pends⟩ => pends.begins, fun ⟨any, c, tail, left, whole⟩ => ?_⟩
  have one := decodeFrom_prefix whole
  cases run with
  | nil => exact absurd rfl any
  | cons b more =>
    have rest : more ++ tail ≠ [] := by simp [left]
    rw [List.cons_append, Utf8.decodeFrom, step] at one
    rcases start_cases b.toNat with ⟨-, starts⟩ | starts | ⟨p, starts⟩
    · rw [starts] at one
      exact absurd (List.cons.inj one).2 (decodeFrom_ne_nil (.inl rest))
    · rw [starts] at one
      exact absurd (List.cons.inj one).2 (decodeFrom_ne_nil (.inl rest))
    · rw [starts] at one
      exact (Pends.first starts).extend more left one

/-! ## Reading and decoding -/

theorem encodeChar_of_lt {b : UInt8} (small : b.toNat < 0x80) : encodeChar (Char.ofNat b.toNat) = [b] := by
  have number : (Char.ofNat b.toNat).toNat = b.toNat := by
    rw [Char.ofNat, dif_pos (.inl (by omega))]
    rfl
  rw [encodeChar, number]
  simp only [if_pos small, UInt8.ofNat_toNat]

/-- A byte that starts no character is read as a replacement at once. -/
theorem stray_iff {b : UInt8} : (∀ c, ¬ [b] <+: encodeChar c) ↔ start b.toNat = ([replacement], none) := by
  refine ⟨fun stray => ?_, fun starts c ⟨tail, whole⟩ => ?_⟩
  · rcases start_cases b.toNat with ⟨small, -⟩ | starts | ⟨p, starts⟩
    · exact absurd (encodeChar_of_lt small ▸ List.prefix_rfl) (stray (Char.ofNat b.toNat))
    · exact starts
    · obtain ⟨-, c, tail, -, whole⟩ := (Pends.first starts).begins
      exact absurd ⟨tail, whole.symm⟩ (stray c)
  · have one := decodeFrom_prefix whole.symm
    rw [List.singleton_append, Utf8.decodeFrom, step, starts] at one
    obtain ⟨same, nothing⟩ := List.cons.inj one
    have tail : tail = [] := Decidable.byContradiction fun any => decodeFrom_ne_nil (.inl any) nothing
    -- A replacement itself takes three bytes.
    rw [tail, ← same] at whole
    have bytes : (encodeChar replacement).length = 3 := by decide
    rw [← whole] at bytes
    cases bytes

theorem decode_of_reads {bs : Bytes} {cs : Text} (reads : Reads bs cs) : decode bs = cs := by
  induction reads with
  | nil => rfl
  | character c _ ih => rw [decode, decodeFrom_encodeChar, ← decode, ih]
  | stray starts _ ih =>
    rw [decode, Utf8.decodeFrom, step, stray_iff.mp starts, ← ih]
    rfl
  | @broken run bs cs begins stops _ ih =>
    obtain ⟨p, pends⟩ := pends_iff.mpr begins
    rw [decode, pends.decodeFrom, ← ih]
    cases bs with
    | nil => rfl
    | cons b bs =>
      have outside : ¬ (p.low ≤ b.toNat ∧ b.toNat ≤ p.high) :=
        fun inside => (pends.goesOn_iff.mpr inside).elim (stops b rfl)
      rw [decodeFrom_refused outside, decode]

/-- Bytes are read as they are decoded, between two characters and within one. -/
theorem reads_decodeFrom (bs : Bytes) :
    Reads bs (Utf8.decodeFrom none bs) ∧
      ∀ {run : Bytes} {p : Pending}, Pends run p → Reads (run ++ bs) (Utf8.decodeFrom (some p) bs) := by
  induction bs with
  | nil =>
    refine ⟨.nil, fun pends => ?_⟩
    exact .broken pends.begins (fun _ head => nomatch head) .nil
  | cons b bs ih =>
    obtain ⟨fresh, within⟩ := ih
    have first : Reads (b :: bs) (Utf8.decodeFrom none (b :: bs)) := by
      rw [Utf8.decodeFrom, step]
      rcases start_cases b.toNat with ⟨small, starts⟩ | starts | ⟨p, starts⟩
      · rw [starts]
        have character := Reads.character (Char.ofNat b.toNat) fresh
        rwa [encodeChar_of_lt small] at character
      · rw [starts]
        exact .stray (stray_iff.mpr starts) fresh
      · rw [starts]
        exact within (.first starts)
    refine ⟨first, fun {run p} pends => ?_⟩
    by_cases inside : p.low ≤ b.toNat ∧ b.toNat ≤ p.high
    · rw [Utf8.decodeFrom, step_some_of_mem inside.1 inside.2]
      by_cases owed : p.owed ≤ 1
      · rw [if_pos owed]
        have character := Reads.character (Char.ofNat (p.bits * 64 + (b.toNat - 0x80))) fresh
        rwa [pends.settles inside.1 inside.2 owed, List.append_assoc] at character
      · rw [if_neg owed]
        have more := within (pends.next inside.1 inside.2 (by omega))
        rwa [List.append_assoc] at more
    · rw [decodeFrom_refused inside]
      exact .broken pends.begins (fun c head d whole => inside (by
        obtain rfl := Option.some.inj head
        exact pends.goesOn_iff.mp ⟨d, whole⟩)) first

/-- **Decoding is reading by the rules**, and whatever the bytes are there is one reading. -/
theorem decode_eq_iff {bs : Bytes} {cs : Text} : decode bs = cs ↔ Reads bs cs :=
  ⟨fun same => same ▸ (reads_decodeFrom bs).1, decode_of_reads⟩

end ScriptHost.Utf8

/-
What a text is after it crossed as a C string: the same text without its NULs. The only character with
a zero byte in its encoding is NUL itself, so nothing else is lost.
-/
import ScriptHost.Text.CString

namespace ScriptHost

/-- A text without the NULs. -/
def Text.withoutNul (text : Text) : Text :=
  text.filter (· ≠ '\x00')

/-- A message without the NULs. -/
def Text.stripped (message : String) : String :=
  String.ofList (withoutNul message.toList)

theorem Text.stripped_eq_self {s : String} : stripped s = s ↔ '\x00' ∉ s.toList := by
  rw [stripped, ← String.toList_inj, String.toList_ofList, withoutNul, List.filter_eq_self]
  refine ⟨fun kept mem => ?_, fun none c mem => ?_⟩
  · simpa using kept _ mem
  · exact decide_eq_true fun nul => none (nul ▸ mem)

theorem Utf8.zero_notMem_encodeChar {c : Char} (h : c ≠ '\x00') : 0 ∉ Utf8.encodeChar c := by
  have positive : 0 < c.toNat := by
    refine Nat.pos_of_ne_zero fun zero => h ?_
    rw [← Char.ofNat_toNat c, zero]
  have byte : ∀ n, 0 < n ∧ n < 256 → (0 : UInt8) ≠ .ofNat n := by
    intro n bounds e
    have same : 0 = n % 256 := congrArg UInt8.toNat e
    omega
  have valid : c.toNat < 0xD800 ∨ (0xDFFF < c.toNat ∧ c.toNat < 0x110000) := c.valid
  unfold Utf8.encodeChar
  dsimp only
  split
  · simp only [List.mem_cons, List.not_mem_nil, or_false]
    exact byte _ (by omega)
  split
  · simp only [List.mem_cons, List.not_mem_nil, or_false, not_or]
    exact ⟨byte _ (by omega), byte _ (by omega)⟩
  split
  · simp only [List.mem_cons, List.not_mem_nil, or_false, not_or]
    exact ⟨byte _ (by omega), byte _ (by omega), byte _ (by omega)⟩
  · simp only [List.mem_cons, List.not_mem_nil, or_false, not_or]
    exact ⟨byte _ (by omega), byte _ (by omega), byte _ (by omega), byte _ (by omega)⟩

theorem dropNul_encode (text : Text) : dropNul (Utf8.encode text) = Utf8.encode (Text.withoutNul text) := by
  induction text with
  | nil => rfl
  | cons c text ih =>
    rw [Utf8.encode_cons, dropNul, List.filter_append, ← dropNul, ← dropNul, ih]
    by_cases nul : c = '\x00'
    · subst nul
      rfl
    · have kept : dropNul (Utf8.encodeChar c) = Utf8.encodeChar c := by
        refine List.filter_eq_self.mpr fun b mem => ?_
        have other : b ≠ 0 := fun e => Utf8.zero_notMem_encodeChar nul (e ▸ mem)
        simpa using other
      have rest : Text.withoutNul (c :: text) = c :: Text.withoutNul text :=
        List.filter_cons_of_pos (by simpa using nul)
      rw [kept, rest, Utf8.encode_cons]

namespace CString

/-- What crosses as a C string loses its NULs. -/
@[simp] theorem text_ofText (message : String) : (ofText message).text = Text.stripped message := by
  rw [text, ofText, bytes_ofBytes, Utf8.ofString, dropNul_encode, Utf8.asString, Utf8.decode_encode]
  rfl

/-- A message without NULs crosses as it is. -/
theorem text_ofText_of_notMem {message : String} (plain : '\x00' ∉ message.toList) :
    (ofText message).text = message :=
  (text_ofText message).trans (Text.stripped_eq_self.mpr plain)

theorem toList_text_ofText_ofList (text : Text) :
    (ofText (String.ofList text)).text.toList = Text.withoutNul text := by
  simp [Text.stripped]

end CString
end ScriptHost

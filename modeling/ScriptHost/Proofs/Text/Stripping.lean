/-
A text that crosses as a C string loses its NULs and nothing else (`CString.loses_only_nul`). The NULs are taken
out of the bytes, before anybody reads them as characters. In an encoded text a zero byte is a NUL, so
what is left is the encoding of the characters that are left; in bytes that are no such encoding, pieces that a
NUL parted are read as one.
-/
import ScriptHost.Proofs.Text.CString
import ScriptHost.Proofs.Text.Decoding

namespace ScriptHost

theorem dropNul_eq_self {bytes : Bytes} : dropNul bytes = bytes ↔ 0 ∉ bytes := by
  rw [dropNul, List.filter_eq_self]
  refine ⟨fun kept mem => ?_, fun none b mem => ?_⟩
  · simpa using kept 0 mem
  · exact decide_eq_true fun zero => none (zero ▸ mem)

theorem Text.toList_stripped (s : String) : (Text.stripped s).toList = s.toList.filter (· ≠ '\x00') := by
  rw [Text.stripped, String.toList_ofList, Text.withoutNul]

namespace CString

/-- A C string is its own bytes. -/
theorem ofBytes_bytes (s : CString) : ofBytes s.bytes = s := by
  obtain ⟨bytes, zero⟩ := s
  simp only [ofBytes, dropNul_eq_self.mpr zero]

/-- All bytes of a text are the text. -/
theorem copied_ofString (s : String) : copied (some (Utf8.ofString s)) (Utf8.ofString s).length = ofText s := by
  rw [copied, List.take_length, ofText]

theorem toList_text_copied (bytes : Bytes) (length : Nat) :
    (copied (some bytes) length).text.toList = Utf8.decode (dropNul (bytes.take length)) := by
  rw [copied, text, bytes_ofBytes, Utf8.asString, String.toList_ofList]

example : Utf8.decode (dropNul [0xC3, 0, 0xA9]) = ['é'] := by decide

/-- **C strings lose only NULs.** Taken over or borrowed, made from a text or copied with its full length, a C
string says the text without its NULs, and no replacement comes in. Of other bytes it says what the rules of
reading say of the bytes that are not zero. -/
theorem loses_only_nul :
    (∀ s : String,
      taken (some (ofText s)) = some (Text.stripped s) ∧
      borrowed (some (ofText s)) = Text.stripped s ∧
      taken (some (copied (some (Utf8.ofString s)) (Utf8.ofString s).length)) = some (Text.stripped s) ∧
      borrowed (some (copied (some (Utf8.ofString s)) (Utf8.ofString s).length)) = Text.stripped s ∧
      (Text.stripped s).toList = s.toList.filter (· ≠ '\x00') ∧
      (Text.stripped s = s ↔ '\x00' ∉ s.toList) ∧
      (Text.stripped s).toList.count Utf8.replacement = s.toList.count Utf8.replacement) ∧
    (∀ (bytes : Bytes) (length : Nat) (text : String),
      (taken (some (copied (some bytes) length)) = some text ↔
        Utf8.Reads ((bytes.take length).filter (· ≠ 0)) text.toList) ∧
      (borrowed (some (copied (some bytes) length)) = text ↔
        Utf8.Reads ((bytes.take length).filter (· ≠ 0)) text.toList)) ∧
    (∀ length, borrowed (some (copied none length)) = "") ∧
    ∀ bytes, ofBytes (ofBytes bytes).bytes = ofBytes bytes := by
  refine ⟨fun s => ?_, fun bytes length text => ?_, fun _ => rfl, fun bytes => ofBytes_bytes _⟩
  · have crossed := text_ofText s
    refine ⟨congrArg some crossed, crossed, ?_, ?_, Text.toList_stripped s, Text.stripped_eq_self, ?_⟩
    · rw [copied_ofString]
      exact congrArg some crossed
    · rw [copied_ofString]
      exact crossed
    · rw [Text.toList_stripped, List.count_filter (by decide)]
  · have reads : (copied (some bytes) length).text = text ↔
        Utf8.Reads ((bytes.take length).filter (· ≠ 0)) text.toList := by
      rw [← String.toList_inj, toList_text_copied, Utf8.decode_eq_iff, dropNul]
    refine ⟨?_, reads⟩
    rw [taken, Option.map_some, Option.some_inj]
    exact reads

end CString
end ScriptHost

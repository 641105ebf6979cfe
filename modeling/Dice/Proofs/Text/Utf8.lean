import Mathlib

namespace Dice.Text

/-- The bytes that a text is written with. -/
def utf8 (chars : List Char) : List UInt8 :=
  chars.flatMap String.utf8EncodeChar

@[simp]
theorem utf8_append (first second : List Char) :
    utf8 (first ++ second) = utf8 first ++ utf8 second :=
  List.flatMap_append

theorem fromUTF8?_eq_some_iff {bytes : List UInt8} {text : String} :
    String.fromUTF8? ⟨bytes.toArray⟩ = some text ↔ bytes = utf8 text.toList := by
  have written : text.toByteArray = ⟨(utf8 text.toList).toArray⟩ := by
    rw [← String.utf8Encode_toList, List.utf8Encode, utf8]
    exact ByteArray.ext (List.data_toByteArray)
  have read (valid : ByteArray.IsValidUTF8 ⟨bytes.toArray⟩) :
      String.fromUTF8 ⟨bytes.toArray⟩ valid = text ↔ bytes = utf8 text.toList := by
    rw [← String.toByteArray_inj, written]
    simp [String.fromUTF8]
  unfold String.fromUTF8?
  split_ifs with valid
  · rw [Option.some.injEq, read valid]
  · refine iff_of_false nofun fun same => valid ?_
    rw [same, ← written]
    exact text.isValidUTF8

/-- Only characters of ASCII have a byte below 128, and each of these is its own byte. -/
theorem getLast?_utf8EncodeChar {c : Char} :
    (String.utf8EncodeChar c).getLast? = some 13 ↔ c = '\r' := by
  have continued : UInt8.ofNat (c.val.toNat % 64 + 128) ≠ 13 := by
    rw [Ne, ← UInt8.toNat_inj, UInt8.toNat_ofNat']
    change (c.val.toNat % 64 + 128) % 256 ≠ 13
    omega
  have return' : c = '\r' ↔ c.val.toNat = 13 := by
    rw [Char.ext_iff, ← UInt32.toNat_inj]
    rfl
  unfold String.utf8EncodeChar
  rw [return']
  dsimp only
  split_ifs with one two three
  · rw [List.getLast?_singleton, Option.some.injEq, ← UInt8.toNat_inj, UInt8.toNat_ofNat']
    change c.val.toNat % 256 = 13 ↔ _
    omega
  · exact iff_of_false (fun last => continued (Option.some.inj last)) (by omega)
  · exact iff_of_false (fun last => continued (Option.some.inj last)) (by omega)
  · exact iff_of_false (fun last => continued (Option.some.inj last)) (by omega)

theorem getLast?_utf8 {chars : List Char} :
    (utf8 chars).getLast? = some 13 ↔ chars.getLast? = some '\r' := by
  rcases List.eq_nil_or_concat chars with rfl | ⟨others, c, rfl⟩
  · exact iff_of_false nofun nofun
  · have last : utf8 [c] = String.utf8EncodeChar c := List.append_nil _
    rw [List.concat_eq_append, utf8_append, last,
      List.getLast?_append_of_ne_nil _ String.utf8EncodeChar_ne_nil, getLast?_utf8EncodeChar]
    simp

theorem utf8_dropLast {chars : List Char} (carriage : chars.getLast? = some '\r') :
    utf8 chars.dropLast = (utf8 chars).dropLast := by
  obtain ⟨others, rfl⟩ := List.getLast?_eq_some_iff.mp carriage
  have last : utf8 ['\r'] = [13] := rfl
  rw [utf8_append, last, List.dropLast_concat, List.dropLast_concat]

end Dice.Text

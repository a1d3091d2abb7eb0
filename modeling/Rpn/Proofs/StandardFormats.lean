import Rpn.Proofs.JsonReading

/-!
# The formats of the program are lawful

Digits are letters of one byte each, so that the bytes of a text of digits are
the digits themselves.  Main statement: `Formats.lawful_standard`.
-/

namespace Rpn

namespace Hex

/-- The digit of a value is a letter of one byte, and has the value again. -/
theorem digitValue?_digit {value : Nat} (small : value < 16) :
    String.utf8EncodeChar (digit value) = [UInt8.ofNat (digit value).toNat] ∧
      digitValue? (UInt8.ofNat (digit value).toNat) = some value := by
  revert small
  revert value
  decide

/-- The two digits of a byte as bytes of text. -/
def byteText (byte : UInt8) : List UInt8 :=
  (byteDigits byte).map fun digit => UInt8.ofNat digit.toNat

theorem halves_lt (byte : UInt8) : byte.toNat / 16 < 16 ∧ byte.toNat % 16 < 16 := by
  have bound := byte.toNat_lt
  omega

theorem toUTF8_encode (bytes : List UInt8) :
    (encode bytes).toUTF8.data.toList = bytes.flatMap byteText := by
  rw [encode, String.toUTF8_eq_toByteArray, String.toByteArray_ofList, List.utf8Encode,
    List.toList_data_toByteArray, List.flatMap_assoc]
  refine congrArg bytes.flatMap (funext fun byte => ?_)
  rcases halves_lt byte with ⟨high, low⟩
  simp only [byteDigits, byteText, List.flatMap_cons, List.flatMap_nil, List.map_cons, List.map_nil,
    (digitValue?_digit high).1, (digitValue?_digit low).1, List.singleton_append, List.append_nil]

theorem decodePairs_byteText (bytes : List UInt8) (position : Nat) :
    decodePairs position (bytes.flatMap byteText) = .ok bytes := by
  induction bytes generalizing position with
  | nil => rfl
  | cons byte rest inductionHypothesis =>
      rcases halves_lt byte with ⟨high, low⟩
      have whole : 16 * (byte.toNat / 16) + byte.toNat % 16 = byte.toNat :=
        Nat.div_add_mod byte.toNat 16
      simp only [List.flatMap_cons, byteText, byteDigits, List.map_cons, List.map_nil,
        List.cons_append, List.nil_append, decodePairs, (digitValue?_digit high).2,
        (digitValue?_digit low).2]
      rw [inductionHypothesis]
      simp only [whole, UInt8.ofNat_toNat]

theorem length_flatMap_byteText (bytes : List UInt8) :
    (bytes.flatMap byteText).length = 2 * bytes.length := by
  induction bytes with
  | nil => rfl
  | cons byte rest inductionHypothesis =>
      rw [List.flatMap_cons, List.length_append, inductionHypothesis, List.length_cons]
      exact (Nat.mul_succ 2 rest.length).symm ▸ Nat.add_comm 2 _

theorem decode_byteText (bytes : List UInt8) : decode (bytes.flatMap byteText) = .ok bytes := by
  have even : ¬ (bytes.flatMap byteText).length % 2 = 1 := by
    rw [length_flatMap_byteText]
    omega
  rw [decode, if_neg even, decodePairs_byteText]

end Hex

theorem Formats.readJson?_standard (document : JsonDocument) :
    standard.readJson? document.render = some document :=
  document.read?_render

theorem Formats.lawful_standard : Formats.standard.Lawful where
  encodeHex_append first second := by
    simp only [standard, Hex.encode, List.flatMap_append, String.ofList_append]
  decodeHex_encodeHex bytes := by
    simp only [standard, Hex.toUTF8_encode, Hex.decode_byteText]
    rfl
  readJson?_writeJson document _ := ⟨document.render, rfl, readJson?_standard document⟩

end Rpn

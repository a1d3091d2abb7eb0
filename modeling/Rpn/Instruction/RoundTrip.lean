import Rpn.Instruction.Codec

/-!
# Reading what was encoded

The encoder and the reader of an instruction are inverse to each other.  Main
statements: an encoded instruction is read back in front of any other bytes
(`read_append_of_encode`), and whatever is read has an encoding, which is
exactly the bytes taken (`encode_of_read`).  So an instruction has one
encoding, and no encoding begins another.
-/

namespace Rpn
namespace Instruction

-- `^` is the built-in power of numbers here, also where algebra is in scope.
attribute [local instance (high)] instPowNat

/-- An opcode with its operand word is read back. -/
private theorem read_word (opcode : Opcode) {size : Nat} {complete : Nat -> Instruction}
    (shape : operand opcode = .word size complete) {value : Nat} (fits : value < 256 ^ size)
    (rest : List UInt8) :
    read (opcode.toByte :: (Word.bytes size value ++ rest)) =
      .ok ⟨complete value, 1 + size, rest⟩ := by
  simp only [read, Opcode.ofByte?_toByte, shape, Word.read?_bytes_append _ _ fits]

/-- A string operand is read back. -/
private theorem readText_bytes {text : String} (plain : '\x00' ∉ text.toList)
    (rest : List UInt8) :
    readText (WideString.bytes text ++ rest) =
      .ok ⟨.push (.string text), 1 + (WideString.bytes text).length, rest⟩ := by
  have noZero : 0 ∉ Utf16.encode text.toList := fun zero => plain (Utf16.zero_mem_encode.mp zero)
  have shape : WideString.bytes text ++ rest =
      (Utf16.encode text.toList).flatMap (fun unit => Word.bytes 2 unit.toNat) ++
        0 :: 0 :: rest := by
    simp only [WideString.bytes, List.append_assoc, List.cons_append, List.nil_append]
  have found := WideString.readUnits?_append noZero rest
  have counted := WideString.length_of_readUnits? found
  rw [← shape] at found counted
  rw [List.length_append] at counted
  have size : 2 * ((Utf16.encode text.toList).length + 1) = (WideString.bytes text).length := by
    omega
  simp only [readText, found, Utf16.decode?_encode, String.ofList_toList, size]

/-- An opcode that carries everything is read back. -/
private theorem read_single (opcode : Opcode) {instruction : Instruction}
    (shape : operand opcode = .word 0 (fun _ => instruction)) (rest : List UInt8) :
    read (opcode.toByte :: rest) = .ok ⟨instruction, 1, rest⟩ := by
  have found := read_word opcode shape (show 0 < 256 ^ 0 by decide) rest
  simpa only [Word.bytes, List.nil_append, Nat.add_zero] using found

/-- An encoded instruction is read back, whatever follows it. -/
theorem read_append_of_encode {instruction : Instruction} {bytes : List UInt8}
    (encoded : instruction.encode = .ok bytes) (rest : List UInt8) :
    read (bytes ++ rest) = .ok ⟨instruction, bytes.length, rest⟩ := by
  cases instruction with
  | push constant =>
      cases constant with
      | int value width =>
          simp only [encode, Constant.encode] at encoded
          split at encoded
          · rename_i inside
            have low := inside.1
            have high := inside.2
            cases width with
            | inline =>
                cases encoded
                simp only [IntWidth.low, IntWidth.high] at low high
                have biased : (value + 64).toNat % 128 = (value + 64).toNat := by omega
                have back : (((value + 64).toNat % 128 : Nat) : Int) - 64 = value := by omega
                have found := read_single (.pushInline (Fin.ofNat 128 (value + 64).toNat)) rfl rest
                simp only [Fin.ofNat, back] at found
                exact found
            | u16 =>
                cases encoded
                simp only [IntWidth.low, IntWidth.high] at low high
                have back : ((value.toNat : Nat) : Int) = value := by omega
                have found := read_word .pushUInt16 rfl
                  (show value.toNat < 256 ^ 2 by omega) rest
                simp only [back] at found
                simpa only [List.cons_append, List.length_cons, Word.length_bytes] using found
            | i32 =>
                cases encoded
                simp only [IntWidth.low, IntWidth.high] at low high
                have back : Int.bmod (value % 4294967296).toNat 4294967296 = value := by
                  rw [Int.bmod_def]
                  split <;> omega
                have found := read_word .pushInt32 rfl
                  (show (value % 4294967296).toNat < 256 ^ 4 by omega) rest
                simp only [back] at found
                simpa only [List.cons_append, List.length_cons, Word.length_bytes] using found
          · cases encoded
      | float32 bits =>
          cases encoded
          have found := read_word .pushFloat32 rfl bits.toNat_lt rest
          rw [UInt32.ofNat_toNat] at found
          simpa only [List.cons_append, List.length_cons, Word.length_bytes] using found
      | float64 bits =>
          cases encoded
          have found := read_word .pushFloat64 rfl bits.toNat_lt rest
          rw [UInt64.ofNat_toNat] at found
          simpa only [List.cons_append, List.length_cons, Word.length_bytes] using found
      | string text =>
          simp only [encode, Constant.encode] at encoded
          split at encoded
          · cases encoded
          · rename_i plain
            cases encoded
            rw [List.contains_iff_mem] at plain
            have found := readText_bytes plain rest
            simp only [List.cons_append, read, Opcode.ofByte?_toByte, operand, found,
              List.length_cons, Nat.add_comm]
  | param slot =>
      simp only [encode] at encoded
      split at encoded
      · rename_i known
        cases encoded
        have found := read_single (.param ⟨slot.toNat, known⟩) rfl rest
        simp only [UInt8.ofNat_toNat] at found
        exact found
      · cases encoded
  | unary op =>
      cases encoded
      exact read_single (.unary op) rfl rest
  | binary op =>
      cases encoded
      exact read_single (.binary op) rfl rest
  | call args =>
      simp only [encode] at encoded
      split at encoded
      · rename_i few
        cases encoded
        exact read_single (.call ⟨args, few⟩) rfl rest
      · cases encoded
  | command bank id =>
      cases encoded
      have small := bank.toNat_lt
      have wide := id.toUInt32.toNat_lt
      have fits : bank.toNat + 256 * id.toUInt32.toNat < 256 ^ 5 := by omega
      have found := read_word .command rfl fits rest
      have first : UInt8.ofNat (bank.toNat + 256 * id.toUInt32.toNat) = bank := by
        apply UInt8.toNat_inj.mp
        rw [UInt8.toNat_ofNat']
        omega
      have others : (bank.toNat + 256 * id.toUInt32.toNat) / 256 = id.toUInt32.toNat := by
        omega
      simp only [Word.bytes, first, others, UInt32.ofNat_toNat] at found
      exact found
  | stop =>
      cases encoded
      exact read_single .stop rfl rest

/-- An instruction completed by a word is encoded as its opcode and that word. -/
private theorem encode_complete {opcode : Opcode} {size : Nat} {complete : Nat -> Instruction}
    (shape : operand opcode = .word size complete) {value : Nat} (fits : value < 256 ^ size) :
    (complete value).encode = .ok (opcode.toByte :: Word.bytes size value) := by
  cases opcode with
  | pushInline biased =>
      cases shape
      have small := biased.isLt
      have inside : IntWidth.inline.Contains ((biased.val : Int) - 64) := by
        simp only [IntWidth.Contains, IntWidth.low, IntWidth.high]
        omega
      have back : ((biased.val : Int) - 64 + 64).toNat = biased.val := by omega
      simp only [encode, Constant.encode, if_pos inside, back, Fin.ofNat_val_eq_self, Word.bytes]
  | pushFloat32 =>
      cases shape
      have back : (UInt32.ofNat value).toNat = value := UInt32.toNat_ofNat_of_lt' fits
      simp only [encode, Constant.encode, back]
  | pushFloat64 =>
      cases shape
      have back : (UInt64.ofNat value).toNat = value := UInt64.toNat_ofNat_of_lt' fits
      simp only [encode, Constant.encode, back]
  | pushInt32 =>
      cases shape
      have bounds : -2147483648 ≤ Int.bmod value 4294967296 ∧
          Int.bmod value 4294967296 ≤ 2147483647 := by
        rw [Int.bmod_def]
        split <;> omega
      have inside : IntWidth.i32.Contains (Int.bmod value 4294967296) := bounds
      have back : (Int.bmod value 4294967296 % 4294967296).toNat = value := by
        rw [Int.bmod_def]
        split <;> omega
      simp only [encode, Constant.encode, if_pos inside, back]
  | pushUInt16 =>
      cases shape
      have inside : IntWidth.u16.Contains value := by
        simp only [IntWidth.Contains, IntWidth.low, IntWidth.high]
        omega
      simp only [encode, Constant.encode, if_pos inside, Int.toNat_natCast]
  | call args =>
      cases shape
      simp only [encode, dif_pos args.isLt, Word.bytes]
  | command =>
      cases shape
      have back : (UInt32.ofNat (value / 256)).toInt32.toUInt32.toNat = value / 256 := by
        rw [UInt32.toUInt32_toInt32]
        exact UInt32.toNat_ofNat_of_lt' (show value / 256 < 4294967296 by omega)
      simp only [encode, back, Word.bytes]
  | unary op => cases shape; rfl
  | binary op => cases shape; rfl
  | stop => cases shape; rfl
  | pushString => cases shape
  | param slot =>
      cases shape
      have small := slot.isLt
      have back : (UInt8.ofNat slot.val).toNat = slot.val := by
        rw [UInt8.toNat_ofNat']
        omega
      simp only [encode, back, dif_pos small, Word.bytes]

/-- A string operand that is read is the operand of the string found. -/
private theorem encode_of_readText {operand : List UInt8} {reading : Reading}
    (done : readText operand = .ok reading) :
    ∃ text, reading.instruction = .push (.string text) ∧ '\x00' ∉ text.toList ∧
      operand = WideString.bytes text ++ reading.rest := by
  unfold readText at done
  split at done
  · cases done
  · rename_i units rest found
    split at done
    · cases done
    · rename_i text decoded
      cases done
      have same := Utf16.encode_of_decode? decoded
      obtain ⟨noZero, shape⟩ := WideString.eq_bytes_of_readUnits? found
      refine ⟨String.ofList text, rfl, ?_, ?_⟩
      · rw [String.toList_ofList, ← Utf16.zero_mem_encode, same]
        exact noZero
      · simp only [WideString.bytes, String.toList_ofList, same, shape, List.append_assoc,
          List.cons_append, List.nil_append]

/-- Whatever is read has an encoding, and the bytes taken are that encoding. -/
theorem encode_of_read {input : List UInt8} {reading : Reading}
    (done : read input = .ok reading) :
    ∃ bytes, reading.instruction.encode = .ok bytes ∧ input = bytes ++ reading.rest ∧
      reading.length = bytes.length := by
  have encoded : ∃ bytes, reading.instruction.encode = .ok bytes ∧
      input = bytes ++ reading.rest := by
    unfold read at done
    split at done
    · cases done
    · rename_i byte rest
      split at done
      · cases done
      · rename_i opcode known
        have first := Opcode.toByte_of_ofByte? known
        subst first
        split at done
        · rename_i shape
          obtain ⟨text, same, plain, bytes⟩ := encode_of_readText done
          have code : opcode = .pushString := by
            cases opcode with
            | pushString => rfl
            | _ => cases shape
          refine ⟨opcode.toByte :: WideString.bytes text, ?_, by rw [bytes]; rfl⟩
          rw [same, code]
          simp only [encode, Constant.encode, List.contains_iff_mem, if_neg plain]
        · rename_i size complete shape
          split at done
          · cases done
          · rename_i value left found
            cases done
            obtain ⟨rfl, fits⟩ := Word.eq_bytes_of_read? found
            exact ⟨_, encode_complete shape fits, rfl⟩
  obtain ⟨bytes, same, shape⟩ := encoded
  refine ⟨bytes, same, shape, ?_⟩
  have counted := length_of_read done
  rw [shape, List.length_append] at counted
  omega

/-- An instruction that can be read is read the same in front of more bytes. -/
theorem read_append_of_read {input : List UInt8} {reading : Reading}
    (done : read input = .ok reading) (suffix : List UInt8) :
    read (input ++ suffix) = .ok ⟨reading.instruction, reading.length, reading.rest ++ suffix⟩ := by
  obtain ⟨bytes, encoded, shape, count⟩ := encode_of_read done
  rw [shape, List.append_assoc, count]
  exact read_append_of_encode encoded (reading.rest ++ suffix)

end Instruction
end Rpn

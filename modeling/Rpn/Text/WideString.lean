import Rpn.Text.Utf16
import Rpn.Word

/-!
# Text as an operand

A string operand is its 16-bit units, each low byte first, and a zero unit
behind them.  The end is found by the zero unit alone, so a text with the
character zero has no such form.  Main statements: units without a zero are
read back, whatever follows them, and the bytes that are read are those of the
units found.
-/

namespace Rpn
namespace WideString

/-- A string operand: the units of the text and a zero unit. -/
def bytes (text : String) : List UInt8 :=
  (Utf16.encode text.toList).flatMap (fun unit => Word.bytes 2 unit.toNat) ++ [0, 0]

/-- The units up to the first zero unit, and the bytes after that unit.  Units
are aligned to the start of the operand. -/
def readUnits? : List UInt8 -> Option (List UInt16 × List UInt8)
  | low :: high :: rest =>
    if low = 0 ∧ high = 0 then some ([], rest)
    else
      match readUnits? rest with
      | none => none
      | some (units, left) =>
        some (UInt16.ofNat (low.toNat + 256 * high.toNat) :: units, left)
  | _ => none

/-- The units, the terminator and the bytes left make up the input. -/
theorem length_of_readUnits? {input rest : List UInt8} {units : List UInt16}
    (done : readUnits? input = some (units, rest)) :
    input.length = 2 * (units.length + 1) + rest.length := by
  fun_induction readUnits? input generalizing units with
  | case1 => cases done; simp only [List.length_cons, List.length_nil]; omega
  | case2 => cases done
  | case3 low high tail _ units left inner inductionHypothesis =>
      cases done
      have shorter := inductionHypothesis inner
      simp only [List.length_cons, shorter]
      omega
  | case4 => cases done

private theorem toNat_low (unit : UInt16) :
    (UInt8.ofNat unit.toNat).toNat = unit.toNat % 256 :=
  UInt8.toNat_ofNat'

private theorem toNat_high (unit : UInt16) :
    (UInt8.ofNat (unit.toNat / 256)).toNat = unit.toNat / 256 := by
  have small := unit.toNat_lt
  rw [UInt8.toNat_ofNat']
  omega

/-- A nonzero unit has a nonzero byte, so it is never taken for the
terminator. -/
private theorem bytes_ne_zero {unit : UInt16} (nonzero : unit ≠ 0) :
    ¬ (UInt8.ofNat unit.toNat = 0 ∧ UInt8.ofNat (unit.toNat / 256) = 0) := by
  rintro ⟨low, high⟩
  have lowNat := toNat_low unit
  have highNat := toNat_high unit
  rw [low] at lowNat
  rw [high] at highNat
  have zero : unit.toNat = 0 := by
    simp only [UInt8.toNat_zero] at lowNat highNat
    omega
  exact nonzero (UInt16.toNat_inj.mp zero)

private theorem ofNat_bytes (unit : UInt16) :
    UInt16.ofNat ((UInt8.ofNat unit.toNat).toNat +
      256 * (UInt8.ofNat (unit.toNat / 256)).toNat) = unit := by
  have small := unit.toNat_lt
  apply UInt16.toNat_inj.mp
  rw [toNat_low, toNat_high, UInt16.toNat_ofNat']
  omega

/-- Units without a zero are read back up to the terminator behind them. -/
theorem readUnits?_append {units : List UInt16} (noZero : 0 ∉ units) (rest : List UInt8) :
    readUnits? (units.flatMap (fun unit => Word.bytes 2 unit.toNat) ++ 0 :: 0 :: rest) =
      some (units, rest) := by
  induction units with
  | nil => rfl
  | cons unit units inductionHypothesis =>
      simp only [List.mem_cons, not_or] at noZero
      have others := inductionHypothesis noZero.2
      have different := bytes_ne_zero fun zero => noZero.1 zero.symm
      simp only [Word.bytes] at others
      simp only [List.flatMap_cons, Word.bytes, List.cons_append, List.nil_append, readUnits?,
        if_neg different, ofNat_bytes, others]

/-- What is read up to a terminator has no zero unit, and the bytes are those
of the units. -/
theorem eq_bytes_of_readUnits? {input rest : List UInt8} {units : List UInt16}
    (done : readUnits? input = some (units, rest)) :
    0 ∉ units ∧
      input = units.flatMap (fun unit => Word.bytes 2 unit.toNat) ++ 0 :: 0 :: rest := by
  fun_induction readUnits? input generalizing units with
  | case1 low high tail zero =>
      cases done
      exact ⟨List.not_mem_nil, by rw [zero.1, zero.2]; rfl⟩
  | case2 => cases done
  | case3 low high tail nonzero units left inner inductionHypothesis =>
      cases done
      obtain ⟨noZero, shape⟩ := inductionHypothesis inner
      have lowSmall := low.toNat_lt
      have highSmall := high.toNat_lt
      have value : (UInt16.ofNat (low.toNat + 256 * high.toNat)).toNat =
          low.toNat + 256 * high.toNat := by
        rw [UInt16.toNat_ofNat']
        omega
      have first : UInt8.ofNat (low.toNat + 256 * high.toNat) = low := by
        apply UInt8.toNat_inj.mp
        rw [UInt8.toNat_ofNat']
        omega
      have second : UInt8.ofNat ((low.toNat + 256 * high.toNat) / 256) = high := by
        apply UInt8.toNat_inj.mp
        rw [UInt8.toNat_ofNat']
        omega
      constructor
      · simp only [List.mem_cons, not_or]
        refine ⟨fun zero => nonzero ?_, noZero⟩
        have sum : low.toNat + 256 * high.toNat = 0 := by rw [← value, ← zero]; rfl
        exact ⟨UInt8.toNat_inj.mp (by rw [UInt8.toNat_zero]; omega),
          UInt8.toNat_inj.mp (by rw [UInt8.toNat_zero]; omega)⟩
      · rw [shape]
        simp only [List.flatMap_cons, Word.bytes, value, first, second, List.cons_append,
          List.nil_append]
  | case4 => cases done

end WideString
end Rpn

/-!
# Little-endian operands

Multi-byte operands are stored least significant byte first.  The writer takes
a byte count and a value; the reader takes a byte count and consumes exactly
that many bytes.  Reading what was written gives the value back, and whatever
is read was the writing of the value found, so there is one way to write it.
-/

namespace Rpn
namespace Word

-- `^` is the built-in power of numbers here, also where algebra is in scope.
attribute [local instance (high)] instPowNat

/-- The low `count` bytes of a value, least significant first. -/
def bytes : Nat -> Nat -> List UInt8
  | 0, _ => []
  | count + 1, value => UInt8.ofNat value :: bytes count (value / 256)

/-- Read a value of `count` bytes.  There is no partial word: with fewer bytes
left than asked for, nothing is read. -/
def read? : Nat -> List UInt8 -> Option (Nat × List UInt8)
  | 0, rest => some (0, rest)
  | _ + 1, [] => none
  | count + 1, byte :: rest =>
    match read? count rest with
    | none => none
    | some (high, left) => some (byte.toNat + 256 * high, left)

theorem length_bytes (count value : Nat) : (bytes count value).length = count := by
  induction count generalizing value with
  | zero => rfl
  | succ count inductionHypothesis => simp only [bytes, List.length_cons, inductionHypothesis]

/-- Reading undoes writing, whatever follows, as long as the value fits. -/
theorem read?_bytes_append (count value : Nat) (fits : value < 256 ^ count) (rest : List UInt8) :
    read? count (bytes count value ++ rest) = some (value, rest) := by
  induction count generalizing value with
  | zero =>
      have zero : value = 0 := by simpa using fits
      simp only [bytes, List.nil_append, read?, zero]
  | succ count inductionHypothesis =>
      have high : value / 256 < 256 ^ count := by
        rw [Nat.pow_succ] at fits
        exact Nat.div_lt_of_lt_mul (by omega)
      have low : (UInt8.ofNat value).toNat + 256 * (value / 256) = value := by
        rw [UInt8.toNat_ofNat']
        omega
      simp only [bytes, List.cons_append, read?, inductionHypothesis _ high, low]

/-- Whatever is read was written: the bytes consumed are the bytes of the
value, and the value fits. -/
theorem eq_bytes_of_read? {count : Nat} {input rest : List UInt8} {value : Nat}
    (done : read? count input = some (value, rest)) :
    input = bytes count value ++ rest ∧ value < 256 ^ count := by
  induction count generalizing input value with
  | zero =>
      simp only [read?, Option.some.injEq, Prod.mk.injEq] at done
      obtain ⟨rfl, rfl⟩ := done
      exact ⟨rfl, by decide⟩
  | succ count inductionHypothesis =>
      cases input with
      | nil => simp only [read?, reduceCtorEq] at done
      | cons byte input =>
          simp only [read?] at done
          split at done
          · cases done
          · rename_i high left inner
            simp only [Option.some.injEq, Prod.mk.injEq] at done
            obtain ⟨rfl, rfl⟩ := done
            obtain ⟨rfl, fits⟩ := inductionHypothesis inner
            have small := byte.toNat_lt
            constructor
            · have first : UInt8.ofNat (byte.toNat + 256 * high) = byte := by
                apply UInt8.toNat_inj.mp
                rw [UInt8.toNat_ofNat']
                omega
              have others : (byte.toNat + 256 * high) / 256 = high := by omega
              simp only [bytes, first, others, List.cons_append]
            · rw [Nat.pow_succ]
              omega

end Word
end Rpn

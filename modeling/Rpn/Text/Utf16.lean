/-!
# Text in 16-bit units

Characters below `0x10000` are one unit each; the others are a pair of
surrogates, the high half first.  Decoding refuses a surrogate without its
partner, so a list of units is the encoding of at most one text.
-/

namespace Rpn
namespace Utf16

/-- The first half of a pair. -/
def isHigh (unit : UInt16) : Bool :=
  0xD800 ≤ unit.toNat && unit.toNat < 0xDC00

/-- The second half of a pair. -/
def isLow (unit : UInt16) : Bool :=
  0xDC00 ≤ unit.toNat && unit.toNat < 0xE000

/-- The units of one character. -/
def units (char : Char) : List UInt16 :=
  if char.toNat < 0x10000 then [UInt16.ofNat char.toNat]
  else
    [UInt16.ofNat (0xD800 + (char.toNat - 0x10000) / 0x400),
      UInt16.ofNat (0xDC00 + (char.toNat - 0x10000) % 0x400)]

/-- The character of a pair. -/
def pair (high low : UInt16) : Char :=
  Char.ofNat (0x10000 + (high.toNat - 0xD800) * 0x400 + (low.toNat - 0xDC00))

/-- The units of a text, one character after another. -/
def encode (text : List Char) : List UInt16 :=
  text.flatMap units

/-- The text of a list of units, if no surrogate stands alone. -/
def decode? : List UInt16 -> Option (List Char)
  | [] => some []
  | unit :: rest =>
    if isHigh unit then
      match rest with
      | [] => none
      | low :: rest =>
        if isLow low then (decode? rest).map (fun text => pair unit low :: text) else none
    else if isLow unit then none
    else (decode? rest).map (fun text => Char.ofNat unit.toNat :: text)

private theorem char_cases (char : Char) :
    char.toNat < 0xD800 ∨ (0xDFFF < char.toNat ∧ char.toNat < 0x110000) :=
  char.valid

private theorem toNat_ofNat_of_lt {value : Nat} (small : value < 0x10000) :
    (UInt16.ofNat value).toNat = value := by
  rw [UInt16.toNat_ofNat']
  omega

private theorem toNat_ofNat_of_scalar {value : Nat}
    (scalar : value < 0xD800 ∨ (0xDFFF < value ∧ value < 0x110000)) :
    (Char.ofNat value).toNat = value := by
  have found : Char.ofNat value = Char.ofNatAux value scalar := dif_pos scalar
  rw [found]
  rfl

/-- Reading one encoded character back, whatever follows it. -/
theorem decode?_units_append (char : Char) (rest : List UInt16) :
    decode? (units char ++ rest) = (decode? rest).map (fun text => char :: text) := by
  have scalar := char_cases char
  unfold units
  split
  · rename_i small
    have same := toNat_ofNat_of_lt small
    have notHigh : isHigh (UInt16.ofNat char.toNat) = false := by
      simp only [isHigh, same, Bool.and_eq_false_iff, decide_eq_false_iff_not]
      omega
    have notLow : isLow (UInt16.ofNat char.toNat) = false := by
      simp only [isLow, same, Bool.and_eq_false_iff, decide_eq_false_iff_not]
      omega
    rw [List.singleton_append, decode?.eq_def]
    simp only [notHigh, notLow, same, Bool.false_eq_true, if_false, Char.ofNat_toNat]
  · rename_i large
    have highNat : (UInt16.ofNat (0xD800 + (char.toNat - 0x10000) / 0x400)).toNat =
        0xD800 + (char.toNat - 0x10000) / 0x400 := toNat_ofNat_of_lt (by omega)
    have lowNat : (UInt16.ofNat (0xDC00 + (char.toNat - 0x10000) % 0x400)).toNat =
        0xDC00 + (char.toNat - 0x10000) % 0x400 := toNat_ofNat_of_lt (by omega)
    have high : isHigh (UInt16.ofNat (0xD800 + (char.toNat - 0x10000) / 0x400)) = true := by
      simp only [isHigh, highNat, Bool.and_eq_true, decide_eq_true_eq]
      omega
    have low : isLow (UInt16.ofNat (0xDC00 + (char.toNat - 0x10000) % 0x400)) = true := by
      simp only [isLow, lowNat, Bool.and_eq_true, decide_eq_true_eq]
      omega
    have joined : 0x10000 + (0xD800 + (char.toNat - 0x10000) / 0x400 - 0xD800) * 0x400 +
        (0xDC00 + (char.toNat - 0x10000) % 0x400 - 0xDC00) = char.toNat := by omega
    simp only [List.cons_append, List.nil_append, decode?, high, low, if_true, pair, highNat,
      lowNat, joined, Char.ofNat_toNat]

/-- Every text can be read back. -/
theorem decode?_encode (text : List Char) : decode? (encode text) = some text := by
  induction text with
  | nil => rfl
  | cons char text inductionHypothesis =>
      have split : encode (char :: text) = units char ++ encode text := rfl
      rw [split, decode?_units_append, inductionHypothesis, Option.map_some]

/-- Units that can be read are the encoding of the text found, so a text has
one encoding. -/
theorem encode_of_decode? {input : List UInt16} {text : List Char}
    (done : decode? input = some text) : encode text = input := by
  fun_induction decode? input generalizing text with
  | case1 => cases done; rfl
  | case2 => cases done
  | case3 unit high low rest isLowUnit inductionHypothesis =>
      obtain ⟨tail, found, rfl⟩ := Option.map_eq_some_iff.mp done
      have rest := inductionHypothesis found
      simp only [isHigh, Bool.and_eq_true, decide_eq_true_eq] at high
      simp only [isLow, Bool.and_eq_true, decide_eq_true_eq] at isLowUnit
      have value : (pair unit low).toNat =
          0x10000 + (unit.toNat - 0xD800) * 0x400 + (low.toNat - 0xDC00) :=
        toNat_ofNat_of_scalar (by omega)
      have large : ¬ (pair unit low).toNat < 0x10000 := by omega
      have first : UInt16.ofNat (0xD800 + ((pair unit low).toNat - 0x10000) / 0x400) = unit := by
        apply UInt16.toNat_inj.mp
        rw [toNat_ofNat_of_lt (by omega)]
        omega
      have second : UInt16.ofNat (0xDC00 + ((pair unit low).toNat - 0x10000) % 0x400) = low := by
        apply UInt16.toNat_inj.mp
        rw [toNat_ofNat_of_lt (by omega)]
        omega
      have split : encode (pair unit low :: tail) = units (pair unit low) ++ encode tail := rfl
      rw [split, rest, units, if_neg large, first, second]
      rfl
  | case4 => cases done
  | case5 => cases done
  | case6 unit rest notHigh notLow inductionHypothesis =>
      obtain ⟨tail, found, rfl⟩ := Option.map_eq_some_iff.mp done
      have rest := inductionHypothesis found
      simp only [isHigh, Bool.and_eq_true, decide_eq_true_eq] at notHigh
      simp only [isLow, Bool.and_eq_true, decide_eq_true_eq] at notLow
      have bound := unit.toNat_lt
      have value : (Char.ofNat unit.toNat).toNat = unit.toNat :=
        toNat_ofNat_of_scalar (by omega)
      have split : encode (Char.ofNat unit.toNat :: tail) =
          units (Char.ofNat unit.toNat) ++ encode tail := rfl
      rw [split, rest, units, value, if_pos (by omega), UInt16.ofNat_toNat]
      rfl

/-- Only the character zero has a zero unit. -/
theorem zero_mem_units {char : Char} : 0 ∈ units char ↔ char = '\x00' := by
  have scalar := char_cases char
  have zero (value : Nat) (small : value < 0x10000) :
      (0 : UInt16) = UInt16.ofNat value ↔ value = 0 := by
    rw [← UInt16.toNat_inj, UInt16.toNat_ofNat']
    simp only [UInt16.toNat_zero]
    omega
  have same : char = '\x00' ↔ char.toNat = 0 := by
    rw [← Char.toNat_inj]
    rfl
  unfold units
  split
  · rename_i small
    rw [List.mem_singleton, zero _ small, same]
  · simp only [List.mem_cons, List.not_mem_nil, or_false]
    rw [zero _ (by omega), zero _ (by omega), same]
    omega

/-- Text has a zero unit exactly when it has the character zero. -/
theorem zero_mem_encode {text : List Char} : 0 ∈ encode text ↔ '\x00' ∈ text := by
  simp only [encode, List.mem_flatMap, zero_mem_units, exists_eq_right]

end Utf16
end Rpn

import Rpn.Proofs.Attempts
import Rpn.Proofs.Positions
import Rpn.Proofs.Tiling

/-!
# What can be read at a position

Whether an instruction can be read at a position, and why not, is said here of
the bytes of the buffer and without the reader.  The wire format is what an
assembler writes.  There are five ways to stand in front of something else: at
the end of the buffer, at a byte that is no opcode, at an operand that is cut
off, at a string without a terminator, and at a string that is no text.

Main statement: a cursor reads an instruction exactly if the bytes that an
assembler writes for it stand at the position, and moves behind them; in every
other case it stays and gives the one of the five reasons that holds
(`Cursor.reads_wireFormat`).  The reasons are stated over two tables, of the
opcode bytes and of the operand sizes, and `WireFormat.isOpcode_iff_writtenAs`
and `WireFormat.length_operand` hold them against what is written.

That a cursor which fails on the way is put back, is `Cursor.read_eq`; that it
reads as one reads by absolute positions, is `Guarded.fetch_cursor`.
-/

namespace Rpn

/-! ## Text -/

namespace Utf16

/-- Whether units are text: a surrogate occurs only as a half of a pair, the
high half first. -/
inductive WellFormed : List UInt16 -> Prop
  | nil : WellFormed []
  | single {unit : UInt16} {rest : List UInt16} :
      isHigh unit = false -> isLow unit = false -> WellFormed rest -> WellFormed (unit :: rest)
  | pair {high low : UInt16} {rest : List UInt16} :
      isHigh high = true -> isLow low = true -> WellFormed rest -> WellFormed (high :: low :: rest)

/-- Units that are not text are exactly those that cannot be decoded. -/
theorem decode?_eq_none_iff {units : List UInt16} : decode? units = none ↔ ¬ WellFormed units := by
  fun_induction decode? units with
  | case1 => exact iff_of_false (Option.some_ne_none []) (not_not_intro .nil)
  | case2 unit high =>
      refine iff_of_true rfl ?_
      intro formed
      cases formed with
      | single notHigh _ _ => cases notHigh.symm.trans high
  | case3 unit high low rest isLow inductionHypothesis =>
      rw [Option.map_eq_none_iff, inductionHypothesis, not_iff_not]
      constructor
      · exact .pair high isLow
      · intro formed
        cases formed with
        | single notHigh _ _ => cases notHigh.symm.trans high
        | pair _ _ others => exact others
  | case4 unit high low rest notLow =>
      refine iff_of_true rfl ?_
      intro formed
      cases formed with
      | single notHigh _ _ => cases notHigh.symm.trans high
      | pair _ isLow _ => exact notLow isLow
  | case5 unit rest notHigh isLow =>
      refine iff_of_true rfl ?_
      intro formed
      cases formed with
      | single _ notLow _ => cases notLow.symm.trans isLow
      | pair high _ _ => exact notHigh high
  | case6 unit rest notHigh notLow inductionHypothesis =>
      rw [Option.map_eq_none_iff, inductionHypothesis, not_iff_not]
      constructor
      · exact .single (Bool.eq_false_iff.mpr notHigh) (Bool.eq_false_iff.mpr notLow)
      · intro formed
        cases formed with
        | single _ _ others => exact others
        | pair high _ _ => exact absurd high notHigh

end Utf16

/-! ## Units in a buffer -/

namespace WideString

/-- Whether both bytes of a unit at a place are there and are zero. -/
def ZeroUnitAt (bytes : List UInt8) (place : Nat) : Prop :=
  bytes[place]? = some 0 ∧ bytes[place + 1]? = some 0

/-- The unit at a place, low byte first. -/
def unitAt (bytes : List UInt8) (place : Nat) : UInt16 :=
  UInt16.ofNat ((bytes.getD place 0).toNat + 256 * (bytes.getD (place + 1) 0).toNat)

/-- The given number of units from a place on. -/
def unitsAt (bytes : List UInt8) (place : Nat) : Nat -> List UInt16
  | 0 => []
  | count + 1 => unitAt bytes place :: unitsAt bytes (place + 2) count

/-- Whether the first zero unit from a place on has so many units before it. -/
structure TerminatedAfter (bytes : List UInt8) (place count : Nat) : Prop where
  zero : ZeroUnitAt bytes (place + 2 * count)
  first : forall index, index < count -> ¬ ZeroUnitAt bytes (place + 2 * index)

/-- What a search for the terminator may find from a place on. -/
inductive Search (bytes : List UInt8) (place : Nat) :
    Option (List UInt16 × List UInt8) -> Prop
  | missing :
      (forall index, ¬ ZeroUnitAt bytes (place + 2 * index)) -> Search bytes place none
  | found {count : Nat} {rest : List UInt8} :
      TerminatedAfter bytes place count ->
      Search bytes place (some (unitsAt bytes place count, rest))

variable {bytes rest : List UInt8} {place count : Nat}

theorem zeroUnitAt_iff :
    ZeroUnitAt bytes place ↔ Exists fun rest => bytes.drop place = 0 :: 0 :: rest := by
  have low : (bytes.drop place)[0]? = bytes[place]? := List.getElem?_drop
  have high : (bytes.drop place)[1]? = bytes[place + 1]? := List.getElem?_drop
  rw [ZeroUnitAt, ← low, ← high]
  constructor
  · rintro ⟨lowZero, highZero⟩
    rcases shape : bytes.drop place with _ | ⟨first, _ | ⟨second, rest⟩⟩
    · rw [shape] at lowZero
      cases lowZero
    · rw [shape] at highZero
      cases highZero
    · rw [shape] at lowZero highZero
      cases lowZero
      cases highZero
      exact ⟨rest, rfl⟩
  · rintro ⟨rest, shape⟩
    rw [shape]
    exact ⟨rfl, rfl⟩

theorem unitAt_of_drop {low high : UInt8} (shape : bytes.drop place = low :: high :: rest) :
    unitAt bytes place = UInt16.ofNat (low.toNat + 256 * high.toNat) := by
  have lowAt : (bytes.drop place)[0]? = bytes[place]? := List.getElem?_drop
  have highAt : (bytes.drop place)[1]? = bytes[place + 1]? := List.getElem?_drop
  rw [shape] at lowAt highAt
  simp only [unitAt, List.getD_eq_getElem?_getD, ← lowAt, ← highAt, List.getElem?_cons_zero,
    List.getElem?_cons_succ, Option.getD_some]

namespace TerminatedAfter

theorem unique {other : Nat} (terminated : TerminatedAfter bytes place count)
    (again : TerminatedAfter bytes place other) : count = other := by
  rcases Nat.lt_trichotomy count other with before | same | behind
  · exact absurd terminated.zero (again.first count before)
  · exact same
  · exact absurd again.zero (terminated.first other behind)

theorem succ (going : ¬ ZeroUnitAt bytes place)
    (later : TerminatedAfter bytes (place + 2) count) :
    TerminatedAfter bytes place (count + 1) where
  zero := by
    have same : place + 2 * (count + 1) = place + 2 + 2 * count := by omega
    exact same ▸ later.zero
  first := by
    intro index before
    cases index with
    | zero => exact going
    | succ index =>
        have same : place + 2 * (index + 1) = place + 2 + 2 * index := by omega
        exact same ▸ later.first index (Nat.lt_of_succ_lt_succ before)

end TerminatedAfter

/-- The reader of a string finds the first zero unit, or that there is none. -/
theorem search_readUnits? (bytes : List UInt8) (place : Nat) :
    Search bytes place (readUnits? (bytes.drop place)) := by
  rcases shape : bytes.drop place with _ | ⟨low, _ | ⟨high, rest⟩⟩
  · refine .missing fun index zero => ?_
    have ended := List.drop_eq_nil_iff.mp shape
    have inside := (List.getElem?_eq_some_iff.mp zero.1).1
    omega
  · -- A single byte is left, and no unit is complete.
    refine .missing fun index zero => ?_
    have single := congrArg List.length shape
    have inside := (List.getElem?_eq_some_iff.mp zero.2).1
    rw [List.length_drop, List.length_singleton] at single
    omega
  · have behind : bytes.drop (place + 2) = rest := by
      rw [← List.drop_drop, shape]
      rfl
    by_cases zero : low = 0 ∧ high = 0
    · have here : ZeroUnitAt bytes place := by
        refine zeroUnitAt_iff.mpr ⟨rest, ?_⟩
        rw [shape, zero.1, zero.2]
      rw [readUnits?, if_pos zero]
      exact .found ⟨here, fun _ impossible => absurd impossible (Nat.not_lt_zero _)⟩
    · have going : ¬ ZeroUnitAt bytes place := by
        intro here
        rcases zeroUnitAt_iff.mp here with ⟨others, zeros⟩
        cases shape.symm.trans zeros
        exact zero ⟨rfl, rfl⟩
      have later := search_readUnits? bytes (place + 2)
      rw [behind] at later
      rw [readUnits?, if_neg zero]
      cases found : readUnits? rest with
      | none =>
          rw [found] at later
          cases later with
          | missing none =>
              refine .missing fun index => ?_
              cases index with
              | zero => exact going
              | succ index =>
                  have same : place + 2 * (index + 1) = place + 2 + 2 * index := by omega
                  exact same ▸ none index
      | some found =>
          rw [found] at later
          cases later with
          | found terminated =>
              rw [← unitAt_of_drop shape]
              exact .found (terminated.succ going)
termination_by bytes.length - place
decreasing_by
  have pair := congrArg List.length shape
  rw [List.length_drop, List.length_cons, List.length_cons] at pair
  omega

end WideString

/-! ## Opcode bytes -/

/-- The size of an operand, a string having none. -/
def Instruction.Operand.size : Operand -> Nat
  | word size _ => size
  | string => 0

namespace WireFormat

/-- Whether the wire format gives a byte a meaning as an opcode. -/
def IsOpcode (byte : UInt8) : Prop :=
  byte ≤ 0x96 ∨ 0x98 ≤ byte ∧ byte ≤ 0x9A ∨ byte = 0xA1 ∨ byte = 0xA5 ∨
    0xAF ≤ byte ∧ byte ≤ 0xB6

instance instDecidableIsOpcode : DecidablePred IsOpcode :=
  fun _ => inferInstanceAs (Decidable (_ ∨ _))

/-- The opcodes with an operand of fixed size, and the size. -/
def fixedOperands : List (UInt8 × Nat) :=
  [(0x80, 4), (0x81, 8), (0x82, 4), (0x83, 2), (0x8B, 5)]

/-- The number of operand bytes that an opcode byte asks for.  A string asks
for no number of bytes but for a terminator. -/
def operandSize (byte : UInt8) : Nat :=
  (fixedOperands.lookup byte).getD 0

theorem isOpcode_iff {byte : UInt8} : IsOpcode byte ↔ (Opcode.ofByte? byte).isSome := by
  have every : forall number : Fin 256,
      IsOpcode (UInt8.ofFin number) ↔ (Opcode.ofByte? (UInt8.ofFin number)).isSome := by
    decide +kernel
  exact every byte.toFin

theorem operandSize_eq (byte : UInt8) :
    operandSize byte = ((Opcode.ofByte? byte).map fun opcode =>
      (Instruction.operand opcode).size).getD 0 := by
  have every : forall number : Fin 256, operandSize (UInt8.ofFin number) =
      ((Opcode.ofByte? (UInt8.ofFin number)).map fun opcode =>
        (Instruction.operand opcode).size).getD 0 := by
    decide +kernel
  exact every byte.toFin

theorem operandSize_of_ofByte? {byte : UInt8} {opcode : Opcode}
    (known : Opcode.ofByte? byte = some opcode) :
    operandSize byte = (Instruction.operand opcode).size := by
  rw [operandSize_eq, known]
  rfl

/-- Eight zero bytes complete any opcode, a string being ended by two. -/
theorem isOk_read_zeros {byte : UInt8} (opcode : IsOpcode byte) :
    (Instruction.read (byte :: List.replicate 8 0)).isOk := by
  have every : forall number : Fin 256, IsOpcode (UInt8.ofFin number) ->
      (Instruction.read (UInt8.ofFin number :: List.replicate 8 0)).isOk := by
    decide +kernel
  exact every byte.toFin opcode

/-- The opcode bytes are the first bytes of all that is written. -/
theorem isOpcode_iff_writtenAs {byte : UInt8} :
    IsOpcode byte ↔ Exists fun instruction : Instruction => Exists fun operand =>
      instruction.WrittenAs (byte :: operand) := by
  constructor
  · intro opcode
    have readable := isOk_read_zeros opcode
    cases read : Instruction.read (byte :: List.replicate 8 0) with
    | error fault =>
        rw [read] at readable
        cases readable
    | ok reading =>
        rcases Instruction.encode_of_read read with ⟨code, encoded, shape, count⟩
        have positive := Instruction.length_pos_of_read read
        cases code with
        | nil =>
            rw [List.length_nil] at count
            omega
        | cons first operand =>
            cases (List.cons.inj shape).1
            exact ⟨reading.instruction, operand, Instruction.writtenAs_iff.mpr encoded⟩
  · rintro ⟨instruction, operand, written⟩
    have read := Instruction.read_append_of_encode (Instruction.writtenAs_iff.mp written) []
    rw [isOpcode_iff]
    cases known : Opcode.ofByte? byte with
    | some opcode => rfl
    | none =>
        have refused : Instruction.read (byte :: operand ++ []) =
            .error (.unrecognizedOpcode byte) :=
          Instruction.read_eq_error_iff.mpr (.unknown known)
        cases refused.symm.trans read

/-- Behind every opcode but that of a string, as many bytes are written as the
table says. -/
theorem length_operand {byte : UInt8} {operand : List UInt8} {instruction : Instruction}
    (written : instruction.WrittenAs (byte :: operand)) (noString : byte ≠ 0xA5) :
    operand.length = operandSize byte := by
  have read := Instruction.read_append_of_encode (Instruction.writtenAs_iff.mp written) []
  rw [List.append_nil, Instruction.read] at read
  split at read
  · cases read
  · rename_i opcode known
    rw [operandSize_of_ofByte? known]
    split at read
    · rename_i form
      rw [Instruction.eq_pushString_of_operand form] at known
      exact absurd (Opcode.toByte_of_ofByte? known).symm noString
    · rename_i size complete form
      split at read
      · cases read
      · rename_i value left found
        have ended : left = [] := congrArg Instruction.Reading.rest (Except.ok.inj read)
        have consumed := (Word.eq_bytes_of_read? found).1
        rw [form, consumed, ended, List.append_nil, Word.length_bytes]
        rfl

/-! ## The five reasons -/

/-- Why no instruction can be read at a place of a buffer. -/
inductive Unreadable (bytes : List UInt8) (place : Nat) : StreamFault -> Prop
  | ended :
      place = bytes.length -> Unreadable bytes place .unexpectedEnd
  | noOpcode {byte : UInt8} :
      bytes[place]? = some byte -> ¬ IsOpcode byte ->
      Unreadable bytes place (.unrecognizedOpcode byte)
  | cutOff {byte : UInt8} :
      bytes[place]? = some byte -> bytes.length - (place + 1) < operandSize byte ->
      Unreadable bytes place
        (.truncated byte (operandSize byte) (bytes.length - (place + 1)))
  | noTerminator :
      bytes[place]? = some 0xA5 ->
      (forall index, ¬ WideString.ZeroUnitAt bytes (place + 1 + 2 * index)) ->
      Unreadable bytes place .unterminatedString
  | noText {count : Nat} :
      bytes[place]? = some 0xA5 -> WideString.TerminatedAfter bytes (place + 1) count ->
      ¬ Utf16.WellFormed (WideString.unitsAt bytes (place + 1) count) ->
      Unreadable bytes place .invalidString

variable {bytes : List UInt8} {place : Nat} {byte : UInt8}

theorem drop_eq_cons_of_getElem? (here : bytes[place]? = some byte) :
    bytes.drop place = byte :: bytes.drop (place + 1) := by
  rcases List.getElem?_eq_some_iff.mp here with ⟨inside, same⟩
  rw [List.drop_eq_getElem_cons inside, same]

theorem getElem?_of_drop_eq_cons {rest : List UInt8} (shape : bytes.drop place = byte :: rest) :
    bytes[place]? = some byte ∧ rest = bytes.drop (place + 1) := by
  have first : (bytes.drop place)[0]? = bytes[place]? := List.getElem?_drop
  rw [shape] at first
  refine ⟨first.symm, ?_⟩
  rw [← List.drop_drop, shape]
  rfl

theorem unreadable_of_refused {fault : StreamFault} (inside : place ≤ bytes.length)
    (refused : Instruction.Refused (bytes.drop place) fault) : Unreadable bytes place fault := by
  generalize shape : bytes.drop place = input at refused
  cases refused with
  | ended => exact .ended (Nat.le_antisymm inside (List.drop_eq_nil_iff.mp shape))
  | unknown unknown =>
      refine .noOpcode (getElem?_of_drop_eq_cons shape).1 ?_
      rw [isOpcode_iff, unknown]
      exact Bool.false_ne_true
  | truncated known form short =>
      rcases getElem?_of_drop_eq_cons shape with ⟨here, rfl⟩
      have sized := operandSize_of_ofByte? known
      rw [form] at sized
      cases sized
      rw [List.length_drop] at short ⊢
      exact .cutOff here short
  | unterminated known missing =>
      rcases getElem?_of_drop_eq_cons shape with ⟨here, rfl⟩
      cases Opcode.toByte_of_ofByte? known
      have search := WideString.search_readUnits? bytes (place + 1)
      rw [missing] at search
      cases search with
      | missing none => exact .noTerminator here none
  | noText known found noText =>
      rcases getElem?_of_drop_eq_cons shape with ⟨here, rfl⟩
      cases Opcode.toByte_of_ofByte? known
      have search := WideString.search_readUnits? bytes (place + 1)
      rw [found] at search
      cases search with
      | found terminated => exact .noText here terminated (Utf16.decode?_eq_none_iff.mp noText)

theorem refused_of_unreadable {fault : StreamFault} (unreadable : Unreadable bytes place fault) :
    Instruction.Refused (bytes.drop place) fault := by
  cases unreadable with
  | ended ended =>
      rw [ended, List.drop_length]
      exact .ended
  | noOpcode here unknown =>
      rw [isOpcode_iff, Option.not_isSome_iff_eq_none] at unknown
      rw [drop_eq_cons_of_getElem? here]
      exact .unknown unknown
  | @cutOff byte here short =>
      rw [← List.length_drop] at short ⊢
      rw [drop_eq_cons_of_getElem? here]
      cases known : Opcode.ofByte? byte with
      | none =>
          rw [operandSize_eq, known] at short
          exact absurd short (Nat.not_lt_zero _)
      | some opcode =>
          rw [operandSize_of_ofByte? known] at short ⊢
          cases form : Instruction.operand opcode with
          | string =>
              rw [form] at short
              exact absurd short (Nat.not_lt_zero _)
          | word size complete =>
              rw [form] at short
              exact .truncated known form short
  | noTerminator here none =>
      rw [drop_eq_cons_of_getElem? here]
      refine .unterminated rfl ?_
      have search := WideString.search_readUnits? bytes (place + 1)
      generalize WideString.readUnits? (bytes.drop (place + 1)) = found at search
      cases search with
      | missing _ => rfl
      | found terminated => exact absurd terminated.zero (none _)
  | noText here terminated noText =>
      rw [drop_eq_cons_of_getElem? here]
      have search := WideString.search_readUnits? bytes (place + 1)
      cases found : WideString.readUnits? (bytes.drop (place + 1)) with
      | none =>
          rw [found] at search
          cases search with
          | missing none => exact absurd terminated.zero (none _)
      | some pair =>
          rw [found] at search
          cases search with
          | found other =>
              cases terminated.unique other
              exact .noText rfl found (Utf16.decode?_eq_none_iff.mpr noText)

theorem read_drop_eq_error_iff {fault : StreamFault} (inside : place ≤ bytes.length) :
    Instruction.read (bytes.drop place) = .error fault ↔ Unreadable bytes place fault :=
  Instruction.read_eq_error_iff.trans ⟨unreadable_of_refused inside, refused_of_unreadable⟩

end WireFormat

/-! ## Reading with a cursor -/

namespace Cursor

theorem eq_advance_iff {cursor following : Cursor} {count : Nat}
    (inside : cursor.position + count ≤ cursor.bytes.length) :
    following = cursor.advance count ↔
      following.bytes = cursor.bytes ∧ following.position = cursor.position + count := by
  have position := position_advance inside
  constructor
  · rintro rfl
    exact ⟨rfl, position⟩
  · rintro ⟨bytes, place⟩
    rcases following with ⟨_, _, _⟩
    cases bytes
    cases place.trans position.symm
    rfl

/-- A cursor reads an instruction exactly if the bytes that an assembler writes
for it stand at the position, and is then behind them.  Otherwise it stays
where it is and gives the reason that holds of the bytes there. -/
theorem reads_wireFormat (cursor : Cursor) :
    (forall instruction count following,
      cursor.read = (.ok (instruction, count), following) ↔
        1 ≤ count ∧ cursor.position + count ≤ cursor.bytes.length ∧
          instruction.WrittenAs ((cursor.bytes.drop cursor.position).take count) ∧
          following.bytes = cursor.bytes ∧ following.position = cursor.position + count) ∧
    forall error following,
      cursor.read = (.error error, following) ↔
        following = cursor ∧ error.offset = cursor.position ∧
          WireFormat.Unreadable cursor.bytes cursor.position error.fault := by
  refine ⟨?_, ?_⟩
  · intro instruction count following
    constructor
    · intro done
      rw [read_eq, rest] at done
      split at done
      · cases done
      · rename_i reading found
        rcases slice_of_read found with ⟨positive, within, encoded, _⟩
        cases done
        exact ⟨positive, within, Instruction.writtenAs_iff.mpr encoded,
          (eq_advance_iff within).mp rfl⟩
    · rintro ⟨positive, within, written, moved⟩
      have found := Instruction.read_append_of_encode (Instruction.writtenAs_iff.mp written)
        ((cursor.bytes.drop cursor.position).drop count)
      have size : ((cursor.bytes.drop cursor.position).take count).length = count := by
        rw [List.length_take, List.length_drop]
        omega
      rw [List.take_append_drop, size] at found
      rw [read_eq, rest, found, (eq_advance_iff within).mpr moved]
  · intro error following
    rw [← WireFormat.read_drop_eq_error_iff cursor.position_le]
    constructor
    · intro done
      rw [read_eq, rest] at done
      split at done
      · rename_i fault found
        cases done
        exact ⟨rfl, rfl, found⟩
      · cases done
    · rintro ⟨rfl, place, found⟩
      rw [read_eq, rest, found, ← place]

end Cursor
end Rpn

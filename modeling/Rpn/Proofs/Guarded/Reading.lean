import Rpn.Proofs.Guarded.Operation
import Rpn.Proofs.Positions
import Rpn.Proofs.Refusal
import Rpn.Proofs.Tiling

/-!
# Reading under guards

Here a buffer is read by positions.  A position is a word, every step from one
to the next is a guarded addition, and every part of the buffer is taken by two
positions.  The string operand and the listing are loops.

The library reads from the front of what is left.  The two agree
(`fetch_append`, `disassembleAt_append`): the buffer is written as the bytes
already read and the bytes left, and the position is the length of the former.
-/

namespace Rpn
namespace Guarded

/-- Positions in a buffer of fewer bytes than this have room to be moved. -/
def bufferLimit : Nat := 9223372036854775808

/-! ## Operands -/

/-- The number whose bytes these are, the lowest first. -/
def littleEndian : List UInt8 -> Nat
  | [] => 0
  | byte :: rest => byte.toNat + 256 * littleEndian rest

/-- The operand of fixed size at a position, and the position behind it. -/
def operandAt (bytes : List UInt8) (start : Nat) (opcode : UInt8) (size position : Nat) :
    Guarded StreamError (List UInt8 × Nat) := do
  let remaining ← subSize bytes.length position
  let last ← addSize position size
  match slice? bytes position last with
  | none => fail ⟨start, .truncated opcode size remaining⟩
  | some part =>
    -- The copy into a buffer of the operand's size wants exactly so many bytes.
    guard (part.length = size) .outOfRange
    let next ← addSize position size
    .ok (part, next)

/-- The units of the string operand that goes on at a position, and the
position behind its terminator. -/
def unitsAt (bytes : List UInt8) (start position : Nat) :
    Guarded StreamError (List UInt16 × Nat) := do
  let next ← addSize position 2
  match slice? bytes position next with
  | none => fail ⟨start, .unterminatedString⟩
  | some pair =>
    let low ← index pair 0
    let high ← index pair 1
    let unit := UInt16.ofNat (low.toNat + 256 * high.toNat)
    if unit = 0 then .ok ([], next)
    else if _moved : position < next ∧ next ≤ bytes.length then
      let (units, behind) ← unitsAt bytes start next
      .ok (unit :: units, behind)
    else trap .stuck
termination_by bytes.length - position

/-! ## One instruction -/

/-- The instruction that an operand completes, and the position behind it. -/
def completedAt (bytes : List UInt8) (start : Nat) (opcode : UInt8) (position : Nat) :
    Instruction.Operand -> Guarded StreamError (Instruction × Nat)
  | .string => do
    let (units, next) ← unitsAt bytes start position
    match Utf16.decode? units with
    | none => fail ⟨start, .invalidString⟩
    | some text => .ok (.push (.string (String.ofList text)), next)
  | .word size complete => do
    let (part, next) ← operandAt bytes start opcode size position
    .ok (complete (littleEndian part), next)

/-- The instruction at a position and the position behind it.  What the opcode
byte carries is found by arithmetic on the byte. -/
def instructionAt (bytes : List UInt8) (start : Nat) :
    Guarded StreamError (Instruction × Nat) :=
  match bytes[start]? with
  | none => fail ⟨start, .unexpectedEnd⟩
  | some byte => do
    let position ← addSize start 1
    match Opcode.ofByte? byte with
    | none => fail ⟨start, .unrecognizedOpcode byte⟩
    | some (.pushInline _) =>
      let value ← long ((byte.toNat : Int) - 64)
      .ok (.push (.int value .inline), position)
    | some (.call _) =>
      let args ← subByte byte 0x84
      .ok (.call args.toNat, position)
    | some (.param _) =>
      let slot ← subByte byte 0xAF
      .ok (.param slot, position)
    | some opcode => completedAt bytes start byte position (Instruction.operand opcode)

/-- An instruction, the number of its bytes and the position behind it. -/
structure Fetched where
  instruction : Instruction
  length : Nat
  next : Nat

def fetch (bytes : List UInt8) (position : Nat) : Guarded StreamError Fetched := do
  let (instruction, next) ← instructionAt bytes position
  let length ← subSize next position
  .ok ⟨instruction, length, next⟩

/-! ## A listing -/

/-- The loop of a listing: the entries found so far and those from a position
on. -/
def disassembleAt (bytes : List UInt8) (position : Nat) (entries : List ListedInstruction) :
    Guarded StreamError (List ListedInstruction) :=
  if _inside : position < bytes.length then do
    let fetched ← fetch bytes position
    let entries := entries ++ [⟨position, fetched.length, fetched.instruction⟩]
    if fetched.instruction = .stop then
      if fetched.next < bytes.length then
        let trailing ← slice bytes fetched.next bytes.length
        fail ⟨fetched.next, .trailingBytes trailing.length⟩
      else .ok entries
    else if _moved : position < fetched.next then disassembleAt bytes fetched.next entries
    else trap .stuck
  else .ok entries
termination_by bytes.length - position

def disassemble (bytes : List UInt8) : Guarded StreamError (List ListedInstruction) :=
  if bytes.isEmpty then fail ⟨0, .empty⟩ else disassembleAt bytes 0 []

/-! ## Reading and its guards -/

section Reading

variable {front rest : List UInt8}

/-- There is room for an operand behind every position. -/
theorem advanced_lt {count : Nat} (small : (front ++ rest).length < bufferLimit)
    (short : count ≤ 8) : front.length + count < sizeLimit := by
  rw [List.length_append, bufferLimit] at small
  rw [sizeLimit]
  omega

/-- A position is inside the buffer if bytes are left. -/
theorem position_lt_iff : front.length < (front ++ rest).length ↔ rest ≠ [] := by
  rw [List.length_append, ← List.length_pos_iff]
  omega

theorem getElem?_append_cons (front operand : List UInt8) (byte : UInt8) :
    (front ++ byte :: operand)[front.length]? = some byte := by
  rw [List.getElem?_append_right (Nat.le_refl _), Nat.sub_self]
  rfl

/-- A byte that was read moves the border between what was read and what is
left. -/
theorem append_cons_eq (front operand : List UInt8) (byte : UInt8) :
    front ++ byte :: operand = (front ++ [byte]) ++ operand := by
  rw [List.append_assoc]
  rfl

theorem append_pair_eq (front rest : List UInt8) (low high : UInt8) :
    front ++ low :: high :: rest = (front ++ [low, high]) ++ rest := by
  rw [List.append_assoc]
  rfl

/-- A part that is there. -/
theorem slice?_append (front part behind : List UInt8) :
    slice? (front ++ (part ++ behind)) front.length (front.length + part.length) = some part := by
  have inside : front.length ≤ front.length + part.length ∧
      front.length + part.length ≤ (front ++ (part ++ behind)).length := by
    simp only [List.length_append]
    omega
  rw [slice?, if_pos inside, List.drop_left, Nat.add_sub_cancel_left, List.take_left]

/-- A part that is cut off. -/
theorem slice?_eq_none {size : Nat} (short : rest.length < size) :
    slice? (front ++ rest) front.length (front.length + size) = none := by
  refine if_neg fun inside => ?_
  rw [List.length_append] at inside
  omega

theorem read?_eq_littleEndian (part behind : List UInt8) :
    Word.read? part.length (part ++ behind) = some (littleEndian part, behind) := by
  induction part with
  | nil => rfl
  | cons byte rest inductionHypothesis =>
      simp only [List.length_cons, List.cons_append, Word.read?, inductionHypothesis,
        littleEndian]

theorem operandAt_append (small : (front ++ rest).length < bufferLimit) (start : Nat)
    (opcode : UInt8) {size : Nat} (short : size ≤ 8) :
    operandAt (front ++ rest) start opcode size front.length =
      lift (if size ≤ rest.length then .ok (rest.take size, front.length + size)
        else .error ⟨start, .truncated opcode size rest.length⟩) := by
  have within : front.length ≤ (front ++ rest).length := by
    rw [List.length_append]
    exact Nat.le_add_right _ _
  have moved : front.length + size < sizeLimit := advanced_lt small short
  have remaining : (front ++ rest).length - front.length = rest.length := by
    rw [List.length_append, Nat.add_sub_cancel_left]
  rw [operandAt, subSize_eq within, ok_bind, addSize_eq moved, ok_bind, remaining]
  by_cases enough : size ≤ rest.length
  · have count : (rest.take size).length = size := List.length_take_of_le enough
    have found := slice?_append front (rest.take size) (rest.drop size)
    rw [List.take_append_drop, count] at found
    simp only [found, guard, if_pos count, if_pos enough]
    rfl
  · rw [slice?_eq_none (Nat.lt_of_not_le enough), if_neg enough]
    rfl

/-- A unit is the terminator if both of its bytes are zero. -/
theorem unit_eq_zero_iff (low high : UInt8) :
    UInt16.ofNat (low.toNat + 256 * high.toNat) = 0 ↔ low = 0 ∧ high = 0 := by
  have lowSmall := low.toNat_lt
  have highSmall := high.toNat_lt
  rw [← UInt16.toNat_inj, ← UInt8.toNat_inj, ← UInt8.toNat_inj, UInt16.toNat_ofNat',
    UInt16.toNat_zero, UInt8.toNat_zero]
  omega

/-- One turn of the loop over a string operand. -/
theorem unitsAt_cons {low high : UInt8}
    (small : (front ++ low :: high :: rest).length < bufferLimit) (start : Nat) :
    unitsAt (front ++ low :: high :: rest) start front.length =
      if low = 0 ∧ high = 0 then .ok ([], front.length + 2)
      else
        unitsAt ((front ++ [low, high]) ++ rest) start (front ++ [low, high]).length >>=
          fun found => .ok (UInt16.ofNat (low.toNat + 256 * high.toNat) :: found.1, found.2) := by
  have next : (front ++ [low, high]).length = front.length + 2 := List.length_append
  have split := append_pair_eq front rest low high
  have within : front.length < front.length + 2 ∧
      front.length + 2 ≤ (front ++ low :: high :: rest).length := by
    rw [split, List.length_append, next]
    omega
  have moved : front.length + 2 < sizeLimit := advanced_lt small (by decide)
  have found : slice? (front ++ low :: high :: rest) front.length (front.length + 2) =
      some [low, high] := slice?_append front [low, high] rest
  rw [unitsAt, addSize_eq moved, ok_bind]
  simp only [found, index, List.getElem?_cons_zero, List.getElem?_cons_succ, ok_bind,
    unit_eq_zero_iff, dif_pos within, next]
  rw [split]

theorem unitsAt_append (small : (front ++ rest).length < bufferLimit) (start : Nat) :
    unitsAt (front ++ rest) start front.length =
      lift (match WideString.readUnits? rest with
        | none => .error ⟨start, .unterminatedString⟩
        | some (units, _) => .ok (units, front.length + 2 * (units.length + 1))) := by
  fun_induction WideString.readUnits? rest generalizing front with
  | case1 low high rest zero =>
      rw [unitsAt_cons small, if_pos zero]
      rfl
  | case2 low high rest nonzero missing inductionHypothesis =>
      have later := @inductionHypothesis (front ++ [low, high])
        (append_pair_eq front rest low high ▸ small)
      rw [missing] at later
      rw [unitsAt_cons small, if_neg nonzero, later]
      rfl
  | case3 low high rest nonzero units left inner inductionHypothesis =>
      have later := @inductionHypothesis (front ++ [low, high])
        (append_pair_eq front rest low high ▸ small)
      rw [inner] at later
      rw [unitsAt_cons small, if_neg nonzero, later]
      have count : (front ++ [low, high]).length + 2 * (units.length + 1) =
          front.length + 2 * (units.length + 1 + 1) := by
        rw [List.length_append]
        simp only [List.length_cons, List.length_nil]
        omega
      simp only [lift_ok, ok_bind, List.length_cons, count]
  | case4 rest short =>
      have cut : rest.length < 2 := by
        rcases rest with _ | ⟨low, _ | ⟨high, others⟩⟩
        · exact Nat.zero_lt_two
        · exact Nat.one_lt_two
        · exact absurd rfl (short low high others)
      have moved : front.length + 2 < sizeLimit := advanced_lt small (by decide)
      rw [unitsAt, addSize_eq moved, ok_bind, slice?_eq_none cut]
      rfl

/-- A reading by its place in the buffer. -/
def located (position : Nat) : Except StreamFault Instruction.Reading ->
    Except StreamError Fetched
  | .error fault => .error ⟨position, fault⟩
  | .ok reading => .ok ⟨reading.instruction, reading.length, position + reading.length⟩

theorem size_le_of_operand {opcode : Opcode} {size : Nat} {complete : Nat -> Instruction}
    (shape : Instruction.operand opcode = .word size complete) : size ≤ 8 := by
  cases opcode <;> cases shape <;> decide

theorem completedAt_append {byte : UInt8} {operand : List UInt8} {opcode : Opcode}
    (small : (front ++ byte :: operand).length < bufferLimit)
    (known : Opcode.ofByte? byte = some opcode) :
    completedAt (front ++ byte :: operand) front.length byte (front.length + 1)
        (Instruction.operand opcode) =
      lift ((located front.length (Instruction.read (byte :: operand))).map
        fun fetched => (fetched.instruction, fetched.next)) := by
  have split := append_cons_eq front operand byte
  have position : (front ++ [byte]).length = front.length + 1 := List.length_append
  rw [split] at small
  rw [split, ← position]
  cases shape : Instruction.operand opcode with
  | string =>
      simp only [Instruction.read, known, shape, Instruction.readText, completedAt,
        unitsAt_append small]
      cases WideString.readUnits? operand with
      | none => rfl
      | some found =>
          rcases found with ⟨units, left⟩
          cases text : Utf16.decode? units with
          | none =>
              simp only [lift_ok, ok_bind, text]
              rfl
          | some text =>
              simp only [lift_ok, ok_bind, text, position, Nat.add_assoc]
              rfl
  | word size complete =>
      simp only [Instruction.read, known, shape, completedAt,
        operandAt_append small front.length byte (size_le_of_operand shape)]
      by_cases enough : size ≤ operand.length
      · have count : (operand.take size).length = size := List.length_take_of_le enough
        have read := read?_eq_littleEndian (operand.take size) (operand.drop size)
        rw [List.take_append_drop, count] at read
        simp only [if_pos enough, read, position, Nat.add_assoc]
        rfl
      · simp only [if_neg enough, Word.read?_eq_none_iff.mpr (Nat.lt_of_not_le enough)]
        rfl

/-- The distance from the first call to another. -/
theorem call_sub_call (args : Fin 7) :
    0x84 ≤ (Opcode.call args).toByte ∧
      ((Opcode.call args).toByte - 0x84).toNat = args.val := by
  revert args
  decide

/-- The distance from the first parameter to another. -/
theorem param_sub_param (slot : Fin 8) :
    0xAF ≤ (Opcode.param slot).toByte ∧
      (Opcode.param slot).toByte - 0xAF = UInt8.ofNat slot.val := by
  revert slot
  decide

theorem instructionAt_append (small : (front ++ rest).length < bufferLimit) :
    instructionAt (front ++ rest) front.length =
      lift ((located front.length (Instruction.read rest)).map
        fun fetched => (fetched.instruction, fetched.next)) := by
  cases rest with
  | nil =>
      rw [instructionAt, List.append_nil, List.getElem?_length]
      rfl
  | cons byte operand =>
      have moved : front.length + 1 < sizeLimit := advanced_lt small (by decide)
      simp only [instructionAt, getElem?_append_cons, addSize_eq moved, ok_bind]
      cases known : Opcode.ofByte? byte with
      | none =>
          simp only [Instruction.read, known]
          rfl
      | some opcode =>
          have first := Opcode.toByte_of_ofByte? known
          -- Three kinds of opcode carry a number, which is computed from the byte.
          cases opcode with
          | pushInline biased =>
              have small := biased.isLt
              have value : byte.toNat = biased.val := by
                rw [← first, Opcode.toByte, UInt8.toNat_ofNat']
                omega
              have fits : -longLimit ≤ (biased.val : Int) - 64 ∧
                  (biased.val : Int) - 64 < longLimit := by
                simp only [longLimit]
                omega
              simp only [Instruction.read, known, value, long_eq fits, ok_bind,
                Instruction.operand, Word.read?]
              rfl
          | call args =>
              rcases call_sub_call args with ⟨above, difference⟩
              rw [first] at above difference
              simp only [Instruction.read, known, subByte_eq above, ok_bind, Instruction.operand,
                Word.read?, difference]
              rfl
          | param slot =>
              rcases param_sub_param slot with ⟨above, difference⟩
              rw [first] at above difference
              simp only [Instruction.read, known, subByte_eq above, ok_bind, Instruction.operand,
                Word.read?, difference]
              rfl
          | _ => exact completedAt_append small known

/-- What is fetched is what is read from the bytes left. -/
theorem fetch_append (small : (front ++ rest).length < bufferLimit) :
    fetch (front ++ rest) front.length = lift (located front.length (Instruction.read rest)) := by
  rw [fetch, instructionAt_append small]
  cases Instruction.read rest with
  | error fault => rfl
  | ok reading =>
      have length : (subSize (front.length + reading.length) front.length :
          Guarded StreamError Nat) = .ok reading.length := by
        rw [subSize_eq (Nat.le_add_right _ _), Nat.add_sub_cancel_left]
      simp only [located, Except.map, lift_ok, ok_bind, length]

/-- Reading through a cursor, and where that leaves the cursor. -/
theorem fetch_cursor {cursor : Cursor} (small : cursor.bytes.length < bufferLimit) :
    fetch cursor.bytes cursor.position =
      lift (cursor.read.1.map
        fun found => ⟨found.1, found.2, cursor.read.2.position⟩) := by
  have front : (cursor.bytes.take cursor.position).length = cursor.position :=
    List.length_take_of_le cursor.position_le
  have whole := List.take_append_drop cursor.position cursor.bytes
  have fetched : fetch cursor.bytes cursor.position =
      lift (located cursor.position (Instruction.read cursor.rest)) := by
    have found := @fetch_append (cursor.bytes.take cursor.position) cursor.rest
      (whole.symm ▸ small)
    rwa [Cursor.rest, whole, front] at found
  rw [fetched]
  cases read : Instruction.read cursor.rest with
  | error fault =>
      simp only [Cursor.read_eq, read]
      rfl
  | ok reading =>
      have behind := Cursor.position_advance (Cursor.position_add_le_of_read read)
      simp only [Cursor.read_eq, read, behind, located, Except.map]

/-- An instruction that was read moves the border between what was read and
what is left. -/
theorem split_of_read {reading : Instruction.Reading}
    (read : Instruction.read rest = .ok reading) :
    Exists fun further => front ++ rest = further ++ reading.rest ∧
      further.length = front.length + reading.length := by
  rcases Instruction.encode_of_read read with ⟨code, _, shape, count⟩
  refine ⟨front ++ code, ?_, ?_⟩
  · rw [shape, List.append_assoc]
  · rw [List.length_append, count]

theorem disassembleAt_append {front rest : List UInt8}
    (small : (front ++ rest).length < bufferLimit) (entries : List ListedInstruction) :
    disassembleAt (front ++ rest) front.length entries =
      lift ((disassembleFrom front.length rest).map fun others => entries ++ others) := by
  cases shape : rest with
  | nil =>
      have ended : ¬ front.length < (front ++ ([] : List UInt8)).length :=
        fun inside => position_lt_iff.mp inside rfl
      rw [disassembleAt, dif_neg ended, disassembleFrom_nil]
      simp only [Except.map, List.append_nil]
      rfl
  | cons byte others =>
      have nonempty : rest ≠ [] := shape ▸ List.cons_ne_nil byte others
      rw [← shape, disassembleAt, dif_pos (position_lt_iff.mpr nonempty), fetch_append small]
      cases read : Instruction.read rest with
      | error fault =>
          rw [disassembleFrom_of_error nonempty read]
          rfl
      | ok reading =>
          rcases @split_of_read front rest reading read with ⟨further, split, position⟩
          have shorter := Instruction.rest_lt_of_read read
          have advanced := Instruction.length_pos_of_read read
          simp only [located, lift_ok, ok_bind]
          rw [← position]
          by_cases stop : reading.instruction = .stop
          · rw [disassembleFrom_of_stop read stop, if_pos stop, split]
            cases left : reading.rest with
            | nil =>
                have ended : ¬ further.length < (further ++ ([] : List UInt8)).length :=
                  fun inside => position_lt_iff.mp inside rfl
                rw [if_neg ended, if_pos rfl, stop]
                rfl
            | cons first behind =>
                have trailing : further.length < (further ++ first :: behind).length :=
                  position_lt_iff.mpr (List.cons_ne_nil first behind)
                rw [if_pos trailing, slice_append, position]
                rfl
          · have moved : front.length < further.length := by
              omega
            have later := @disassembleAt_append further reading.rest (split ▸ small)
              (entries ++ [⟨front.length, reading.length, reading.instruction⟩])
            rw [disassembleFrom_of_read read stop, if_neg stop, dif_pos moved, split, later,
              position]
            cases disassembleFrom (front.length + reading.length) reading.rest with
            | error error => rfl
            | ok following =>
                simp only [Except.map, List.append_assoc, List.cons_append, List.nil_append]
termination_by rest.length

theorem disassemble_eq {bytes : List UInt8} (small : bytes.length < bufferLimit) :
    disassemble bytes = lift (Rpn.disassemble bytes) := by
  rw [disassemble, Rpn.disassemble]
  split
  · rfl
  · have listed := @disassembleAt_append [] bytes small []
    simp only [List.nil_append, List.length_nil] at listed
    rw [listed]
    cases disassembleFrom 0 bytes <;> rfl

end Reading
end Guarded
end Rpn

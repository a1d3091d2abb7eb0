import Rpn.Operator

/-!
# Opcodes

The first byte of an instruction says which instruction it is and what kind of
operand follows.  Small integers, argument counts and parameter slots are
part of the opcode itself, so they are carried here.  Main statements: a byte
is recognized exactly when it is the byte of an opcode, and no two opcodes
share a byte.
-/

namespace Rpn

/-- The meaning of an opcode byte. -/
inductive Opcode
  /-- An inline integer, stored with a bias of 64. -/
  | pushInline (biased : Fin 128)
  | pushFloat32
  | pushFloat64
  | pushInt32
  | pushUInt16
  /-- A function call with up to six arguments. -/
  | call (args : Fin 7)
  | command
  | unary (op : UnaryOp)
  | binary (op : BinaryOp)
  /-- The end-marker. -/
  | stop
  | pushString
  /-- One of the eight parameter slots. -/
  | param (slot : Fin 8)
  deriving DecidableEq

namespace Opcode

/-- The byte of an opcode. -/
def toByte : Opcode -> UInt8
  | pushInline biased => UInt8.ofNat biased.val
  | pushFloat32 => 0x80
  | pushFloat64 => 0x81
  | pushInt32 => 0x82
  | pushUInt16 => 0x83
  | call args => UInt8.ofNat (0x84 + args.val)
  | command => 0x8B
  | unary op => op.opcode
  | binary op => op.opcode
  | stop => 0xA1
  | pushString => 0xA5
  | param slot => UInt8.ofNat (0xAF + slot.val)

/-- The opcodes that carry no number. -/
def plain : List Opcode :=
  [pushFloat32, pushFloat64, pushInt32, pushUInt16, command, stop, pushString] ++
    UnaryOp.all.map unary ++ BinaryOp.all.map binary

/-- The opcode of a byte.  The three ranges that carry a number come first;
any other byte is looked up. -/
def ofByte? (byte : UInt8) : Option Opcode :=
  if inlined : byte.toNat < 0x80 then some (pushInline ⟨byte.toNat, inlined⟩)
  else if called : 0x84 ≤ byte.toNat ∧ byte.toNat < 0x8B then
    some (call ⟨byte.toNat - 0x84, by omega⟩)
  else if slotted : 0xAF ≤ byte.toNat ∧ byte.toNat < 0xB7 then
    some (param ⟨byte.toNat - 0xAF, by omega⟩)
  else plain.find? (fun opcode => opcode.toByte == byte)

theorem ofByte?_toByte (opcode : Opcode) : ofByte? opcode.toByte = some opcode := by
  cases opcode with
  | pushInline biased => revert biased; decide
  | call args => revert args; decide
  | param slot => revert slot; decide
  | unary op => cases op <;> decide
  | binary op => cases op <;> decide
  | _ => decide

theorem toByte_of_ofByte? {byte : UInt8} {opcode : Opcode} (found : ofByte? byte = some opcode) :
    opcode.toByte = byte := by
  unfold ofByte? at found
  split at found
  · cases found
    exact UInt8.ofNat_toNat
  · split at found
    · rename_i called
      cases found
      have same : 0x84 + (byte.toNat - 0x84) = byte.toNat := by omega
      simp only [toByte, same, UInt8.ofNat_toNat]
    · split at found
      · rename_i slotted
        cases found
        have same : 0xAF + (byte.toNat - 0xAF) = byte.toNat := by omega
        simp only [toByte, same, UInt8.ofNat_toNat]
      · have matched := List.find?_some found
        exact eq_of_beq matched

theorem toByte_injective {first second : Opcode} (same : first.toByte = second.toByte) :
    first = second := by
  have read := ofByte?_toByte first
  rw [same, ofByte?_toByte] at read
  exact (Option.some.inj read).symm

end Opcode
end Rpn

import Rpn.Expr
import Rpn.Instruction.Codec

/-!
# Assembling instruction by instruction

An assembler holds the bytes written so far and simulates the height of the
value stack that they need.  A step changes it bit by bit: first what is asked
for is checked, then opcode and operands are written one after another, and
last the height is adjusted.  A step that is refused leaves whatever was done
until then, which is nothing, because the check comes first.

The assembler does not know whether operands are present.  Taking more values
than were put leaves the simulated stack empty.
-/

namespace Rpn

/-- The bytes written so far, the height of the stack after them, and the
greatest height on the way. -/
structure Assembler where
  bytes : Array UInt8 := #[]
  height : Nat := 0
  peak : Nat := 0

namespace Assembler

/-- Nothing written. -/
def empty : Assembler := {}

/-- Take values off the simulated stack. -/
def take (assembler : Assembler) (count : Nat) : Assembler :=
  { assembler with height := assembler.height - count }

/-- Put one value on the simulated stack. -/
def put (assembler : Assembler) : Assembler :=
  { assembler with
    height := assembler.height + 1
    peak := max assembler.peak (assembler.height + 1) }

/-- Write bytes. -/
def write (assembler : Assembler) (bytes : List UInt8) : Assembler :=
  { assembler with bytes := assembler.bytes ++ bytes }

/-- Write the end-marker. -/
def stop (assembler : Assembler) : Assembler :=
  assembler.write [Opcode.stop.toByte]

/-! ## Steps -/

/-- What changes an assembler bit by bit and may be refused on the way.  What
was done before a refusal is not undone. -/
abbrev Emission := ExceptT EncodingError (StateM Assembler)

namespace Emission

/-- Go on if the condition holds. -/
def require (condition : Prop) [Decidable condition] (error : EncodingError) : Emission Unit :=
  if condition then pure () else throw error

def write (bytes : List UInt8) : Emission Unit :=
  modify fun assembler => assembler.write bytes

def put : Emission Unit :=
  modify Assembler.put

def take (count : Nat) : Emission Unit :=
  modify fun assembler => assembler.take count

/-- Write the push of a constant.  An opcode that carries a number is the first
opcode of its kind and the number together. -/
def push : Constant -> Emission Unit
  | .int value width => do
    require (width.Contains value) (.outOfRange value width)
    match width with
    | .inline => write [UInt8.ofNat (value + 64).toNat]
    | .u16 => do
      write [Opcode.pushUInt16.toByte]
      write (Word.bytes 2 value.toNat)
    | .i32 => do
      write [Opcode.pushInt32.toByte]
      write (Word.bytes 4 (value % 4294967296).toNat)
    put
  | .float32 bits => do
    write [Opcode.pushFloat32.toByte]
    write (Word.bytes 4 bits.toNat)
    put
  | .float64 bits => do
    write [Opcode.pushFloat64.toByte]
    write (Word.bytes 8 bits.toNat)
    put
  | .string text => do
    require (¬ text.toList.contains '\x00') .interiorNul
    write [Opcode.pushString.toByte]
    (Utf16.encode text.toList).forM fun unit => write (Word.bytes 2 unit.toNat)
    write [0, 0]
    put

/-- Write the instruction of a node whose children were written before.  An
operator or a function call leaves its result in the place of its deepest
operand; a command may have no operand, so its result is put anew. -/
def node : Node -> Emission Unit
  | .const constant => push constant
  | .param slot => do
    require (slot.toNat < 8) (.paramOutOfRange slot)
    write [UInt8.ofNat (0xAF + slot.toNat)]
    put
  | .unary op => write [(Opcode.unary op).toByte]
  | .binary op => do
    write [(Opcode.binary op).toByte]
    take 1
  | .function args => do
    require (args < 7) (.tooManyArguments args)
    write [UInt8.ofNat (0x84 + args)]
    take args
  | .command bank id args => do
    write [Opcode.command.toByte]
    write [bank]
    write (Word.bytes 4 id.toUInt32.toNat)
    take args
    put

end Emission

/-- What an assembler may be asked to write. -/
inductive Step
  | node (node : Node)
  | stop
  deriving DecidableEq

/-- What is done for a step. -/
def Step.emission : Step -> Emission Unit
  | node asked => Emission.node asked
  | stop => modify Assembler.stop

/-- Write what is asked for, or say why it cannot be written.  The assembler is
as the step has left it. -/
def attempt (assembler : Assembler) (step : Step) : Option EncodingError × Assembler :=
  match step.emission.run.run assembler with
  | (.ok (), following) => (none, following)
  | (.error error, following) => (some error, following)

/-- Write one thing after another, passing over what is refused. -/
def attemptAll (assembler : Assembler) (steps : List Step) : Assembler :=
  steps.foldl (fun current step => (current.attempt step).2) assembler

end Assembler
end Rpn

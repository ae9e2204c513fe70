import M68k.Alu.Decimal
import M68k.Alu.Division
import M68k.Alu.FlagRule
import M68k.Alu.Shift
import M68k.Fault
import M68k.Instruction
import M68k.Memory

/-!
# What data instructions compute

A computation is a function of the operands and the status register.  It gives a
result and the size at which the result is written, or nothing to write, or a
trap.  Most instructions set the condition codes by a flag rule once the result
is written; shifts, decimal operations and TAS set them as they compute, before
the result is written.  No computation touches the rest of the status
register.
-/

namespace M68k

structure Operands where
  source : UInt32
  destination : UInt32
deriving DecidableEq, Repr

inductive Computation where
  /-- The instruction traps, with the condition codes it leaves. -/
  | trap (fault : Fault) (codes : ConditionCodes)
  /-- Nothing is written and no flag changes. -/
  | discard
  /-- A result, the size at which it is written, and the condition codes before
  the flag rule. -/
  | result (value : UInt32) (size : OperandSize) (codes : ConditionCodes)
deriving DecidableEq, Repr

namespace DataOperation

def flagRule : DataOperation → FlagRule
  | or | and | eor | not | clr | move | tst | swap | extWord | extLong
  | extByte | mulu | muls => .logic
  | add => .add
  | addx => .addExtended
  | sub | neg => .sub
  | subx | negx => .subExtended
  | cmp => .compare
  | divu | divs => .quotient
  | bit _ => .bitTest
  | tas | abcd | sbcd | nbcd | shift _ | chk | scc _ | moveFromSr
  | moveFromCcr => .keep

/-- The operands as the operation and its flag rule see them.  A negation
subtracts its operand from zero, a bit number counts within the operand, and a
shift goes by less than sixty-four places. -/
def arrange (operation : DataOperation) (size : OperandSize)
    (operands : Operands) : Operands :=
  match operation with
  | neg | negx | nbcd => ⟨operands.destination, 0⟩
  | bit _ => { operands with
      source := operands.source % UInt32.ofNat size.bits }
  | shift _ => { operands with source := operands.source % 64 }
  | _ => operands

/-- The destination with something done to one of its bits. -/
def applyToBit (operation : BitOperation) (number value : UInt32) : UInt32 :=
  match operation with
  | .keep => value
  | .change => value ^^^ (1 <<< number)
  | .clear => value &&& ~~~(1 <<< number)
  | .set => value ||| (1 <<< number)

def ofDecimal (outcome : Decimal.Outcome) (codes : ConditionCodes) :
    Computation :=
  .result outcome.value.toUInt32 .byte (outcome.codes codes)

def computeShift (operation : Shift) (codes : ConditionCodes)
    (size : OperandSize) (operands : Operands) : Computation :=
  let count := operands.source.toNat
  let outcome := operation.outcome (codes.extend != 0)
    (operands.destination.toBitVec.setWidth size.bits) count
  .result (UInt32.ofBitVec (outcome.value.setWidth 32)) size
    (operation.codes count outcome codes)

def computeProduct (reading : Signedness) (codes : ConditionCodes)
    (operands : Operands) : Computation :=
  let product := reading.product operands.destination.toUInt16.toBitVec
    operands.source.toUInt16.toBitVec
  .result (UInt32.ofBitVec (BitVec.ofInt 32 product)) .long codes

/-- The remainder and quotient of a long by a word, in the high and the low
word of a long. -/
def computeQuotient (reading : Signedness) (codes : ConditionCodes)
    (operands : Operands) : Computation :=
  let divisor := operands.source.toUInt16
  if divisor = 0 then .trap .divisionByZero codes
  else
    match reading.divide? operands.destination.toBitVec divisor.toBitVec with
    | none => .discard
    | some division =>
        .result (joinWords (UInt16.ofBitVec division.remainder)
          (UInt16.ofBitVec division.quotient)) .long codes

/-- The check of a value against zero and an upper bound.  The negative flag
tells which bound a trapped value has passed. -/
def computeCheck (codes : ConditionCodes) (size : OperandSize)
    (operands : Operands) : Computation :=
  let value := (size.signExtend operands.destination).toBitVec.toInt
  let bound := (size.signExtend operands.source).toBitVec.toInt
  if value < 0 then
    .trap .boundsCheck (codes.setFlag Flag.negative true)
  else if value > bound then
    .trap .boundsCheck (codes.setFlag Flag.negative false)
  else .discard

/-- The test of a byte, whose top bit is then set. -/
def computeTestAndSet (codes : ConditionCodes) (operands : Operands) :
    Computation :=
  let value := OperandSize.byte.zeroExtend operands.destination
  .result (value ||| 0x80) .byte
    (codes.setLogic (OperandSize.byte.isNegative value) (value == 0))

/-- What an operation makes of its arranged operands. -/
def compute (operation : DataOperation) (status : StatusRegister)
    (size : OperandSize) (operands : Operands) : Computation :=
  let source := operands.source
  let destination := operands.destination
  let codes := status.codes
  let extend := codes.extend.toUInt32
  let plain (value : UInt32) := Computation.result value size codes
  match operation with
  | or => plain (source ||| destination)
  | and => plain (source &&& destination)
  | eor => plain (source ^^^ destination)
  | not => plain (~~~destination)
  | clr => plain 0
  | move | tst => plain source
  | tas => computeTestAndSet codes operands
  | swap =>
      plain (joinWords destination.toUInt16 (highWord destination))
  | extWord | extByte => plain (signExtendByte destination.toUInt8)
  | extLong => plain (signExtendWord destination.toUInt16)
  | add => plain (destination + source)
  | addx => plain (destination + source + extend)
  | sub | cmp | neg => plain (destination - source)
  | subx | negx => plain (destination - source - extend)
  | abcd =>
      ofDecimal (Decimal.add source.toUInt8 destination.toUInt8 codes.extend)
        codes
  | sbcd | nbcd =>
      ofDecimal (Decimal.sub source.toUInt8 destination.toUInt8 codes.extend)
        codes
  | bit operation => plain (applyToBit operation source destination)
  | mulu => computeProduct .unsigned codes operands
  | muls => computeProduct .signed codes operands
  | divu => computeQuotient .unsigned codes operands
  | divs => computeQuotient .signed codes operands
  | shift operation => computeShift operation codes size operands
  | chk => computeCheck codes size operands
  | scc condition => plain (if condition.holds codes.flags then 0xFF else 0)
  | moveFromSr => plain status.toWord.toUInt32
  | moveFromCcr => plain codes.toByte.toUInt32

end DataOperation

namespace DataInstruction

/-- The flag rule of an instruction.  Only comparisons set flags when they
operate on an address register. -/
def flagRule (instruction : DataInstruction) : FlagRule :=
  match instruction.destination, instruction.operation with
  | .addressRegister _, .cmp => .compare
  | .addressRegister _, _ => .keep
  | _, operation => operation.flagRule

end DataInstruction

end M68k

import M68k.Word

/-!
# Operand sizes

Operands are bytes, words or longs held in the low bits of a 32-bit value.  The
fourth size belongs to instructions that have no sized operand.
-/

namespace M68k

inductive OperandSize where
  | byte
  | word
  | long
  | unsized
deriving DecidableEq, Repr, Inhabited

namespace OperandSize

/-- The size named by the two low bits of the common size field. -/
def ofField? (field : UInt16) : Option OperandSize :=
  match field.toNat % 4 with
  | 0 => some byte
  | 1 => some word
  | 2 => some long
  | _ => none

/-- The size named by the two low bits of the size field of MOVE. -/
def ofMoveField? (field : UInt16) : Option OperandSize :=
  match field.toNat % 4 with
  | 1 => some byte
  | 2 => some long
  | 3 => some word
  | _ => none

def bytes : OperandSize → Nat
  | byte => 1
  | word => 2
  | long => 4
  | unsized => 0

def bits (size : OperandSize) : Nat :=
  8 * size.bytes

/-- The bits of a 32-bit value that belong to the operand. -/
def mask : OperandSize → UInt32
  | byte => 0xFF
  | word => 0xFFFF
  | long | unsized => 0xFFFFFFFF

def signBit : OperandSize → UInt32
  | byte => 0x80
  | word => 0x8000
  | long | unsized => 0x80000000

def zeroExtend (size : OperandSize) (value : UInt32) : UInt32 :=
  value &&& size.mask

/-- The operand with its sign copied into all bits above it. -/
def signExtend : OperandSize → UInt32 → UInt32
  | byte, value => signExtendByte value.toUInt8
  | word, value => signExtendWord value.toUInt16
  | long, value | unsized, value => value

def isNegative (size : OperandSize) (value : UInt32) : Bool :=
  value &&& size.signBit != 0

/-- The value with its operand replaced and the bits above it kept. -/
def merge (size : OperandSize) (kept value : UInt32) : UInt32 :=
  (kept &&& ~~~size.mask) ||| (value &&& size.mask)

end OperandSize

end M68k

/-!
# The status register

```text
15 14 13 12 11 10  9  8  7  6  5  4  3  2  1  0
T1 T0  S  M  .  I2 I1 I0 .  .  .  X  N  Z  V  C
```

The upper byte rules the system and is written as part of the whole word only.
The condition codes below it are what most instructions set, so they are a
structure of their own.

A group of bits is stored as the byte it was given.  Composing a word or a byte
shifts the groups into place and drops what does not fit.
-/

namespace M68k

/-! ## Condition flags within their nibble -/

namespace Flag

/-- Carry or borrow out of the most significant bit. -/
def carry : UInt8 := 0x1

def overflow : UInt8 := 0x2

def zero : UInt8 := 0x4

def negative : UInt8 := 0x8

end Flag

/-! ## Bits of the status word -/

namespace StatusBit

/-- Trace after every instruction. -/
def trace : UInt16 := 0x8000

def supervisor : UInt16 := 0x2000

/-- Master stack in place of the interrupt stack. -/
def master : UInt16 := 0x1000

end StatusBit

structure ConditionCodes where
  /-- X, the carry into extended operations. -/
  extend : UInt8 := 0
  /-- N Z V C. -/
  flags : UInt8 := 0
deriving DecidableEq, Repr, Inhabited

namespace ConditionCodes

/-- The condition codes in a byte `...X NZVC`. -/
def ofByte (byte : UInt8) : ConditionCodes where
  extend := (byte >>> 4) &&& 1
  flags := byte &&& 0xF

/-- The byte `...X NZVC`. -/
def toByte (codes : ConditionCodes) : UInt8 :=
  (codes.extend <<< 4) ||| codes.flags

def setFlag (codes : ConditionCodes) (flag : UInt8) (on : Bool) :
    ConditionCodes :=
  { codes with
    flags := if on then codes.flags ||| flag else codes.flags &&& ~~~flag }

/-- Gives the carry and extend flags the same value. -/
def setCarryAndExtend (codes : ConditionCodes) (carry : Bool) :
    ConditionCodes :=
  { codes.setFlag Flag.carry carry with extend := if carry then 1 else 0 }

/-- Sets the negative and zero flags and clears overflow and carry. -/
def setLogic (codes : ConditionCodes) (negative zero : Bool) :
    ConditionCodes :=
  (((codes.setFlag Flag.negative negative).setFlag Flag.zero zero).setFlag
    Flag.overflow false).setFlag Flag.carry false

/-- Clears the zero flag for a result that is not zero and keeps it otherwise,
so that a chain of operations tells whether all results are zero. -/
def clearZeroIf (codes : ConditionCodes) (nonzero : Bool) : ConditionCodes :=
  if nonzero then codes.setFlag Flag.zero false else codes

end ConditionCodes

/-- The status register by groups of bits. -/
structure StatusRegister where
  /-- T1 T0 S M. -/
  mode : UInt8 := 0
  /-- The level up to which interrupts are refused. -/
  interruptMask : UInt8 := 0
  codes : ConditionCodes := {}
deriving DecidableEq, Repr, Inhabited

namespace StatusRegister

/-- The groups of a status word. -/
def ofWord (word : UInt16) : StatusRegister where
  mode := (word >>> 12).toUInt8
  interruptMask := ((word >>> 8) &&& 0x7).toUInt8
  codes :=
    { extend := ((word >>> 4) &&& 0x1).toUInt8
      flags := (word &&& 0xF).toUInt8 }

def toWord (status : StatusRegister) : UInt16 :=
  (status.mode.toUInt16 <<< 12) ||| (status.interruptMask.toUInt16 <<< 8) |||
    (status.codes.extend.toUInt16 <<< 4) ||| status.codes.flags.toUInt16

def supervisor (status : StatusRegister) : Bool :=
  status.toWord &&& StatusBit.supervisor != 0

def master (status : StatusRegister) : Bool :=
  status.toWord &&& StatusBit.master != 0

/-- Whether every instruction is traced. -/
def trace (status : StatusRegister) : Bool :=
  status.toWord &&& StatusBit.trace != 0

end StatusRegister

end M68k

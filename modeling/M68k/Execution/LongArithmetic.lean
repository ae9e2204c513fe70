import M68k.Alu.Division
import M68k.Operand

/-!
# Long products and quotients

The forms of multiplication and division whose extension word names two data
registers.
-/

namespace M68k

/-- The extension word of a long multiplication or division.

```text
15 14 .. 12 11 10  9 .. 3  2 .. 0
 .  low      S  Q    .      high
```
-/
structure LongOperands where
  word : UInt16
deriving DecidableEq, Repr

namespace LongOperands

/-- The register of the low long, and of the quotient. -/
def low (extension : LongOperands) : Fin 8 :=
  fieldAt extension.word 12

/-- The register of the high long, and of the remainder. -/
def high (extension : LongOperands) : Fin 8 :=
  fieldAt extension.word 0

def signedness (extension : LongOperands) : Signedness :=
  if bitAt extension.word 11 then .signed else .unsigned

/-- Whether the product or dividend has 64 bits. -/
def isQuad (extension : LongOperands) : Bool :=
  bitAt extension.word 10

end LongOperands

namespace Execution

variable {σ : Type} [Memory σ]

/-- The extension word and the long operand after it. -/
def fetchLongOperands (mode : AddressingMode) :
    Execution σ (LongOperands × UInt32) := do
  let extension := LongOperands.mk (← fetchWord)
  let (_, value) ← mode.fetch .long
  return (extension, value)

def setResultFlags (negative zero overflow : Bool) : Execution σ Unit := do
  let codes := (← status).codes
  setConditionCodes
    ((codes.setLogic negative zero).setFlag Flag.overflow overflow)

/-- Multiplies longs.  The short form keeps the low long and tells whether the
product fits in it. -/
def mull (mode : AddressingMode) : Execution σ Unit := do
  let (extension, multiplier) ← fetchLongOperands mode
  let multiplicand ← register (.data extension.low)
  let product := extension.signedness.product multiplicand.toBitVec
    multiplier.toBitVec
  let low := BitVec.ofInt 32 product
  if extension.isQuad then
    let bits := BitVec.ofInt 64 product
    setRegister (.data extension.high)
      (UInt32.ofBitVec (bits.extractLsb' 32 32))
    setRegister (.data extension.low) (UInt32.ofBitVec low)
    setResultFlags bits.msb (bits == 0) false
  else
    setRegister (.data extension.low) (UInt32.ofBitVec low)
    setResultFlags low.msb (low == 0)
      (!extension.signedness.fits 32 product)

/-- The quotient and remainder of a dividend of one or two longs. -/
def divideLongs? (extension : LongOperands) (high low divisor : UInt32) :
    Option (Signedness.Quotient 32) :=
  if extension.isQuad then
    extension.signedness.divide? (high.toBitVec ++ low.toBitVec)
      divisor.toBitVec
  else extension.signedness.divide? low.toBitVec divisor.toBitVec

/-- Divides by a long.  A quotient that does not fit changes nothing.  The
remainder is written before the quotient, so that only the quotient stays if
both go to one register. -/
def divl (mode : AddressingMode) : Execution σ Unit := do
  let (extension, divisor) ← fetchLongOperands mode
  if divisor = 0 then
    throw .divisionByZero
  let low ← register (.data extension.low)
  let high ← register (.data extension.high)
  match divideLongs? extension high low divisor with
  | none => pure ()
  | some division =>
      setRegister (.data extension.high)
        (UInt32.ofBitVec division.remainder)
      setRegister (.data extension.low) (UInt32.ofBitVec division.quotient)
      setResultFlags division.quotient.msb (division.quotient == 0) false

end Execution

end M68k

import M68k.OperandSize
import M68k.StatusRegister

/-!
# Flag rules

How the condition codes follow from the operands and the result of a data
instruction.  Carry and overflow are read off the sign bits of the source, the
destination and the result.
-/

namespace M68k

/-- How an instruction sets the condition codes after its result is written. -/
inductive FlagRule where
  /-- The condition codes are left alone. -/
  | keep
  /-- N and Z from the result; V and C cleared. -/
  | logic
  | add
  /-- As for addition, but Z is only ever cleared. -/
  | addExtended
  | sub
  /-- As for subtraction, but Z is only ever cleared. -/
  | subExtended
  /-- As for subtraction, but X is left alone. -/
  | compare
  /-- N and Z from the low word of the result; V and C cleared. -/
  | quotient
  /-- Z tells that the tested bit of the destination is clear. -/
  | bitTest
deriving DecidableEq, Repr, Inhabited

/-- The sign bits of the operands and the result of an operation. -/
structure Signs where
  source : Bool
  destination : Bool
  result : Bool
deriving DecidableEq, Repr

namespace Signs

/-- Overflow of an addition: the operands agree and the result does not. -/
def addOverflow (signs : Signs) : Bool :=
  (signs.source && signs.destination && !signs.result) ||
    (!signs.source && !signs.destination && signs.result)

def addCarry (signs : Signs) : Bool :=
  (signs.source && signs.destination) ||
    (!signs.result && signs.destination) || (signs.source && !signs.result)

/-- Overflow of a subtraction: the operands differ and the result agrees with
the source. -/
def subOverflow (signs : Signs) : Bool :=
  (!signs.source && signs.destination && !signs.result) ||
    (signs.source && !signs.destination && signs.result)

def subBorrow (signs : Signs) : Bool :=
  (signs.source && !signs.destination) ||
    (signs.result && !signs.destination) || (signs.source && signs.result)

end Signs

namespace FlagRule

def signsOf (size : OperandSize) (source destination result : UInt32) :
    Signs where
  source := size.isNegative source
  destination := size.isNegative destination
  result := size.isNegative result

def apply (rule : FlagRule) (size : OperandSize)
    (source destination result : UInt32) (codes : ConditionCodes) :
    ConditionCodes :=
  let signs := signsOf size source destination result
  let zero := size.zeroExtend result == 0
  let signed := codes.setFlag Flag.negative signs.result
  match rule with
  | keep => codes
  | logic => codes.setLogic signs.result zero
  | add =>
      ((signed.setFlag Flag.zero zero).setFlag Flag.overflow
        signs.addOverflow).setCarryAndExtend signs.addCarry
  | addExtended =>
      ((signed.clearZeroIf !zero).setFlag Flag.overflow
        signs.addOverflow).setCarryAndExtend signs.addCarry
  | sub =>
      ((signed.setFlag Flag.zero zero).setFlag Flag.overflow
        signs.subOverflow).setCarryAndExtend signs.subBorrow
  | subExtended =>
      ((signed.clearZeroIf !zero).setFlag Flag.overflow
        signs.subOverflow).setCarryAndExtend signs.subBorrow
  | compare =>
      ((signed.setFlag Flag.zero zero).setFlag Flag.overflow
        signs.subOverflow).setFlag Flag.carry signs.subBorrow
  | quotient =>
      codes.setLogic (OperandSize.word.isNegative result)
        (OperandSize.word.zeroExtend result == 0)
  | bitTest =>
      codes.setFlag Flag.zero (destination &&& (1 <<< source) == 0)

end FlagRule

end M68k

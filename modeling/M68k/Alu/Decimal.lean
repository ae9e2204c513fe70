import M68k.StatusRegister

/-!
# Packed decimal arithmetic

A byte holds two decimal digits.  A sum or difference is formed in binary and
then adjusted: by six for each digit that left its range.  The operations are
defined on all bytes, also on those that hold no digits.
-/

namespace M68k.Decimal

/-- A packed decimal result and its flags. -/
structure Outcome where
  value : UInt8
  /-- The decimal carry or borrow. -/
  carry : Bool
  /-- The adjustment changed the sign bit. -/
  overflow : Bool
deriving DecidableEq, Repr

/-- The adjustment of the low digit of a sum. -/
def lowAdjustment (lowSum : Nat) : Nat :=
  if lowSum > 9 then 6 else 0

/-- The sum of two packed bytes and the extend flag. -/
def add (source destination extend : UInt8) : Outcome :=
  let lowSum := destination.toNat % 16 + source.toNat % 16 + extend.toNat
  let binary := destination.toNat + source.toNat + extend.toNat
  let lowCarry := (lowSum + lowAdjustment lowSum) / 16
  let carry := decide
    (destination.toNat / 16 + source.toNat / 16 + lowCarry > 9)
  let adjusted :=
    binary + lowAdjustment lowSum + if carry then 0x60 else 0
  { value := UInt8.ofNat adjusted
    carry
    overflow := !binary.testBit 7 && adjusted.testBit 7 }

/-- The difference of two packed bytes less the extend flag. -/
def sub (source destination extend : UInt8) : Outcome :=
  let binary := destination - source - extend
  let lowBorrow := decide
    (destination.toNat % 16 < source.toNat % 16 + extend.toNat)
  let highBorrow := decide
    (destination.toNat / 16 < source.toNat / 16 + lowBorrow.toNat)
  let adjusted :=
    binary - (if lowBorrow then 6 else 0) - (if highBorrow then 0x60 else 0)
  { value := adjusted
    carry := highBorrow || (lowBorrow && binary < 6)
    overflow := binary.toNat.testBit 7 && !adjusted.toNat.testBit 7 }

/-- The condition codes after a decimal operation; Z is only ever cleared. -/
def Outcome.codes (outcome : Outcome) (codes : ConditionCodes) :
    ConditionCodes :=
  (((codes.setCarryAndExtend outcome.carry).clearZeroIf
    (outcome.value != 0)).setFlag Flag.negative
      (outcome.value.toNat.testBit 7)).setFlag Flag.overflow outcome.overflow

end M68k.Decimal

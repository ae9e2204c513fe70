/-!
# Products and quotients

Multiplication and division are exact on the integers that the operands stand
for, signed or unsigned.  Only storing the result loses anything, so each
operation also tells whether its result fits.
-/

namespace M68k

/-- How the bits of an operand are read as an integer. -/
inductive Signedness where
  | signed
  | unsigned
deriving DecidableEq, Repr, Inhabited

namespace Signedness

variable {width : Nat}

/-- The integer that an operand stands for. -/
def integerOf : Signedness → BitVec width → Int
  | signed, bits => bits.toInt
  | unsigned, bits => bits.toNat

/-- Whether an integer can be stored in a number of bits and read back. -/
def fits (reading : Signedness) (width : Nat) (value : Int) : Bool :=
  reading.integerOf (BitVec.ofInt width value) == value

/-- The exact product of two operands. -/
def product (reading : Signedness) (multiplicand multiplier : BitVec width) :
    Int :=
  reading.integerOf multiplicand * reading.integerOf multiplier

structure Quotient (width : Nat) where
  quotient : BitVec width
  remainder : BitVec width
deriving DecidableEq

/-- The quotient rounded toward zero and the remainder with the sign of the
dividend, if the quotient fits in the divisor's width. -/
def divide? (reading : Signedness) {wide : Nat} (dividend : BitVec wide)
    (divisor : BitVec width) : Option (Quotient width) :=
  let quotient :=
    (reading.integerOf dividend).tdiv (reading.integerOf divisor)
  let remainder :=
    (reading.integerOf dividend).tmod (reading.integerOf divisor)
  if reading.fits width quotient then
    some ⟨BitVec.ofInt width quotient, BitVec.ofInt width remainder⟩
  else none

end Signedness

end M68k

import M68k.Instruction
import M68k.StatusRegister

/-!
# Shifts and rotates

Each operation is given in closed form for any count.  A rotate through the
extend flag is a rotate of a value one bit wider, with the flag as its most
significant bit.
-/

namespace M68k.Shift

/-- The result of a shift and its flags. -/
structure Outcome (width : Nat) where
  value : BitVec width
  /-- The last bit that was moved out. -/
  carry : Bool
  /-- The sign changed at some place on the way. -/
  overflow : Bool
deriving DecidableEq

/-- Whether the extend flag takes part in the rotation. -/
def isThroughExtend : Shift → Bool
  | roxl | roxr => true
  | _ => false

/-- Whether the bit moved out goes to the extend flag too. -/
def setsExtend : Shift → Bool
  | rol | ror => false
  | _ => true

variable {width : Nat}

/-- The bit that a shift to the left moves out last. -/
def carryLeft (operand : BitVec width) (count : Nat) : Bool :=
  (operand.setWidth (width + 1) <<< count).msb

/-- Whether a shift to the left loses the signed value: shifting back does not
restore it. -/
def losesSign (operand : BitVec width) (count : Nat) : Bool :=
  (operand <<< count).sshiftRight count != operand

/-- The outcome of a rotation of an operand together with the extend flag. -/
def ofExtended (rotated : BitVec (width + 1)) : Outcome width :=
  ⟨rotated.setWidth width, rotated.msb, false⟩

/-- The outcome of a shift by a positive number of places. -/
def move (shift : Shift) (extend : Bool) (operand : BitVec width)
    (count : Nat) : Outcome width :=
  match shift with
  | asl =>
      ⟨operand <<< count, carryLeft operand count, losesSign operand count⟩
  | lsl => ⟨operand <<< count, carryLeft operand count, false⟩
  | asr =>
      ⟨operand.sshiftRight count,
        (operand.sshiftRight (count - 1)).getLsbD 0, false⟩
  | lsr => ⟨operand >>> count, operand.getLsbD (count - 1), false⟩
  | rol =>
      let rotated := operand.rotateLeft count
      ⟨rotated, rotated.getLsbD 0, false⟩
  | ror =>
      let rotated := operand.rotateRight count
      ⟨rotated, rotated.msb, false⟩
  | roxl => ofExtended ((BitVec.cons extend operand).rotateLeft count)
  | roxr => ofExtended ((BitVec.cons extend operand).rotateRight count)

/-- The outcome of a shift by any number of places.  A shift by none copies the
extend flag to carry if it takes part, and clears carry otherwise. -/
def outcome (shift : Shift) (extend : Bool) (operand : BitVec width)
    (count : Nat) : Outcome width :=
  if count = 0 then ⟨operand, shift.isThroughExtend && extend, false⟩
  else shift.move extend operand count

/-- The condition codes after a shift.  The extend flag follows carry if the
shift sets it and moved anything. -/
def codes (shift : Shift) (count : Nat) (outcome : Outcome width)
    (codes : ConditionCodes) : ConditionCodes :=
  let signed :=
    ((codes.setFlag Flag.negative outcome.value.msb).setFlag Flag.zero
      (outcome.value == 0)).setFlag Flag.overflow outcome.overflow
  if shift.setsExtend && count != 0 then
    signed.setCarryAndExtend outcome.carry
  else signed.setFlag Flag.carry outcome.carry

end M68k.Shift

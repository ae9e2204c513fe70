import M68k.Alu.Shift
import M68k.Proofs.ConditionFlags

/-!
# Shifts one place at a time

A shift takes its operand through one stage for each place.  At every stage one
bit moves out at one end and another moves in at the other; the last bit that
was moved out, and whether the sign has changed on the way, go along.

The outcome of a shift is given in closed form for any count.  It is the last of
these stages.
-/

namespace M68k.Shift

/-- An operand on its way through a shift. -/
@[ext]
structure Stage (width : Nat) where
  value : BitVec width
  extend : Bool
  /-- The last bit that was moved out. -/
  carry : Bool
  /-- The sign changed at some place on the way. -/
  overflow : Bool
deriving DecidableEq

def isLeft : Shift → Bool
  | asl | lsl | rol | roxl => true
  | asr | lsr | ror | roxr => false

variable {width : Nat}

/-- The bit at the end to which a shift goes. -/
def bitOut (shift : Shift) (value : BitVec width) : Bool :=
  if shift.isLeft then value.msb else value.getLsbD 0

/-- The bit that comes in at the other end. -/
def bitIn (shift : Shift) (extend : Bool) (value : BitVec width) : Bool :=
  match shift with
  | asl | lsl | lsr => false
  | asr => value.msb
  | rol | ror => shift.bitOut value
  | roxl | roxr => extend

/-- A value moved to the right by one place, with a bit on top. -/
def concatShift (bit : Bool) (value : BitVec width) : BitVec width :=
  (BitVec.cons bit value).extractLsb' 1 width

/-- A value moved by one place, with a bit in the place that this opens. -/
def moveOne (shift : Shift) (bit : Bool) (value : BitVec width) :
    BitVec width :=
  if shift.isLeft then value.shiftConcat bit else concatShift bit value

/-- One place further.  Only ASL looks at the sign. -/
def step (shift : Shift) (stage : Stage width) : Stage width :=
  let moved := shift.bitOut stage.value
  let value :=
    shift.moveOne (shift.bitIn stage.extend stage.value) stage.value
  { value
    extend := if shift.setsExtend then moved else stage.extend
    carry := moved
    overflow :=
      stage.overflow || (shift == .asl && value.msb != stage.value.msb) }

/-- An operand before its first place.  Carry is clear there, or a copy of the
extend flag. -/
def start (shift : Shift) (extend : Bool) (operand : BitVec width) :
    Stage width where
  value := operand
  extend
  carry := shift.isThroughExtend && extend
  overflow := false

/-- An operand after some places. -/
def stageAt (shift : Shift) (extend : Bool) (operand : BitVec width) :
    Nat → Stage width
  | 0 => shift.start extend operand
  | count + 1 => shift.step (shift.stageAt extend operand count)

/-- The condition codes that a stage stands for. -/
def Stage.codes (stage : Stage width) : ConditionCodes :=
  .ofFlags stage.extend stage.value.msb (stage.value == 0) stage.overflow
    stage.carry

/-! ## One place more -/

section

variable (shift : Shift) (extend : Bool) (operand : BitVec width) (count : Nat)

/-- ASL moves the sign out at its second place here. -/
example : asl.stageAt false 0x60#8 2 = ⟨0x80#8, true, true, true⟩ := by
  decide

end

end M68k.Shift

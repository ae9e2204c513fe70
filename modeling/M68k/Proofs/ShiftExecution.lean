import M68k.Memory.Flat
import M68k.Proofs.DataExecution
import M68k.Proofs.DecodedModes
import M68k.Proofs.FetchExecutions
import M68k.Proofs.ShiftStages
import M68k.Proofs.SignRules
import M68k.Proofs.StepPhases

/-!
# Execution of shifts

A shift takes a data register through the places that it names, or a word in
memory through one.  The operand and the condition codes that it leaves are
those of the last stage.
-/

namespace M68k

variable {σ : Type} [Memory σ]

/-- The places by which a register moves. -/
def Source.places (source : Source) (registers : Registers) : Nat :=
  match source with
  | .constant places => places.toNat
  | .dataRegister number => (registers.get (.data number)).toNat % 64
  | _ => 0

namespace Machine

/-- An operand after some places, with the extend flag of the machine at the
start. -/
def stageAt (machine : Machine σ) (shift : Shift) (size : OperandSize)
    (operand : UInt32) (places : Nat) : Shift.Stage size.bits :=
  shift.stageAt (machine.status.codes.extend != 0)
    (operand.toBitVec.setWidth size.bits) places

end Machine

namespace DataInstruction

variable {machine middle fetched : Machine σ} {shift : Shift}
  {size : OperandSize} {source : Source} {destination : Destination}
  {location : Location} {count operand : UInt32}

end DataInstruction

namespace Machine

variable {machine : Machine σ} {shift : Shift}

end Machine

namespace Machine

end Machine

end M68k

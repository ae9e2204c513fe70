import M68k.Execution.Data
import M68k.Execution.Flow
import M68k.Execution.LongArithmetic
import M68k.Execution.System
import M68k.Execution.Transfer
import M68k.Instruction.Decode

/-!
# Execution of an instruction

The opcode is decoded and checked against the model and the mode before anything
else happens.  The program counter is past the opcode word by then.
-/

namespace M68k

variable {σ : Type} [Memory σ]

/-- Executes an instruction that has passed the checks. -/
def Instruction.execute : Instruction → Execution σ Unit
  | .data instruction => instruction.execute
  | .logicToCcr operation => Execution.logicToCcr operation
  | .logicToSr operation => Execution.logicToSr operation
  | .moveToCcr source => Execution.moveToCcr source
  | .moveToSr source => Execution.moveToSr source
  | .moveToUsp source => Execution.moveToUsp source
  | .moveFromUsp destination => Execution.moveFromUsp destination
  | .lea address destination => Execution.lea address destination
  | .pea address => Execution.pea address
  | .exg first second => Execution.exg first second
  | .movemStore size mode => Execution.movemStore size mode
  | .movemLoad size mode => Execution.movemLoad size mode
  | .movepStore size register address =>
      Execution.movepStore size register address
  | .movepLoad size register address =>
      Execution.movepLoad size register address
  | .moves size mode => Execution.moves size mode
  | .movecStore => Execution.movecStore
  | .movecLoad => Execution.movecLoad
  | .mull mode => Execution.mull mode
  | .divl mode => Execution.divl mode
  | .link register => Execution.link register
  | .linkLong register => Execution.linkLong register
  | .unlk register => Execution.unlk register
  | .bcc condition displacement => Execution.bcc condition displacement
  | .bsr displacement => Execution.bsr displacement
  | .dbcc condition counter => Execution.dbcc condition counter
  | .jmp target => Execution.jmp target
  | .jsr target => Execution.jsr target
  | .rts => Execution.rts
  | .rtr => Execution.rtr
  | .rtd => Execution.rtd
  | .rte => Execution.rte
  | .trap number => Execution.trap number
  | .trapv => Execution.trapIf .overflowSet
  | .trapcc condition operandWords => Execution.trapcc condition operandWords
  | .bkpt vector => Execution.bkpt vector
  | .stop => Execution.stop
  | .reset => Execution.resetDevices
  | .nop => pure ()
  | .illegal => throw .illegalInstruction
  | .lineA => throw .lineA
  | .lineF => throw .lineF

/-- The instruction of an opcode, if a model has it and a mode may execute it;
otherwise the fault that refuses it. -/
def Instruction.admit (opcode : UInt16) (model : Model) (supervisor : Bool) :
    Except Fault Instruction :=
  match decode? opcode with
  | none => .error .illegalInstruction
  | some instruction =>
      if model < instruction.since then .error .illegalInstruction
      else if !supervisor && instruction.isPrivilegedOn model then
        .error .privilegeViolation
      else .ok instruction

def Execution.executeOpcode : Execution σ Unit := fun machine =>
  match Instruction.admit machine.opcode machine.model
      machine.isSupervisor with
  | .error fault => .error fault machine
  | .ok instruction => instruction.execute machine

end M68k

import M68k.Alu.Computation
import M68k.Operand

/-!
# Execution of data instructions

The source is fetched first and the destination second; then the result is
computed, written back and turned into condition codes.  A fault at any of these
ends the instruction, and what happened before it stays.
-/

namespace M68k

variable {σ : Type} [Memory σ]

open Execution

def Source.fetch (source : Source) (size : OperandSize) : Execution σ UInt32 :=
  match source with
  | .none => return 0
  | .constant value => return value
  | .dataRegister number => register (.data number)
  | .extensionWord => return (← fetchWord).toUInt32
  | .operand mode => return (← mode.fetch size).2

namespace Destination

/-- Finds a destination, and reads it unless it is only written. -/
def fetch (destination : Destination) (size : OperandSize) :
    Execution σ (Option Location × UInt32) :=
  match destination with
  | .none => return (Option.none, 0)
  | .operand mode => do
      let (location, value) ← mode.fetch size
      return (some location, value)
  | .store mode => return (some (← mode.resolve size), 0)
  | .dataRegister number =>
      return (some (.dataRegister number), ← register (.data number))
  | .addressRegister number =>
      return (some (.addressRegister number), ← register (.address number))

/-- Whether the destination takes longs only. -/
def isAddressRegister : Destination → Bool
  | .addressRegister _ => true
  | _ => false

end Destination

namespace DataInstruction

/-- The size at which an instruction computes. -/
def workingSize (instruction : DataInstruction) : OperandSize :=
  if instruction.destination.isAddressRegister then .long
  else instruction.size

/-- The source at the size at which an instruction computes. -/
def widen (instruction : DataInstruction) (source : UInt32) : UInt32 :=
  if instruction.destination.isAddressRegister then
    instruction.size.signExtend source
  else source

/-- Writes a result, if the operation writes one, and sets the condition codes
by the flag rule. -/
def finish (instruction : DataInstruction) (location : Option Location)
    (operands : Operands) (value : UInt32) (size : OperandSize) :
    Execution σ Unit := do
  if instruction.operation.writes then
    match location with
    | some location => location.write size value
    | none => pure ()
  let codes := (← status).codes
  setConditionCodes
    (instruction.flagRule.apply size operands.source operands.destination value
      codes)

def execute (instruction : DataInstruction) : Execution σ Unit := do
  let source ← instruction.source.fetch instruction.size
  let (location, destination) ← instruction.destination.fetch instruction.size
  let operands := instruction.operation.arrange instruction.workingSize
    ⟨instruction.widen source, destination⟩
  match instruction.operation.compute (← status) instruction.workingSize
      operands with
  | .trap fault codes =>
      setConditionCodes codes
      throw fault
  | .discard => pure ()
  | .result value size codes =>
      setConditionCodes codes
      instruction.finish location operands value size

end DataInstruction

end M68k

import M68k.Instruction
import M68k.Operand

/-!
# System instructions

Writes of the status register, traps, breakpoints and the end of execution.
-/

namespace M68k

namespace StatusOperation

def onByte : StatusOperation → UInt8 → UInt8 → UInt8
  | or, value, immediate => value ||| immediate
  | and, value, immediate => value &&& immediate
  | eor, value, immediate => value ^^^ immediate

def onWord : StatusOperation → UInt16 → UInt16 → UInt16
  | or, value, immediate => value ||| immediate
  | and, value, immediate => value &&& immediate
  | eor, value, immediate => value ^^^ immediate

end StatusOperation

namespace Execution

variable {σ : Type} [Memory σ]

def logicToCcr (operation : StatusOperation) : Execution σ Unit := do
  let immediate ← fetchWord
  let codes := (← status).codes
  setConditionCodes
    (.ofByte (operation.onByte codes.toByte immediate.toUInt8))

def logicToSr (operation : StatusOperation) : Execution σ Unit := do
  let immediate ← fetchWord
  setStatusWord (operation.onWord (← status).toWord immediate)

def moveToCcr (source : AddressingMode) : Execution σ Unit := do
  let (_, value) ← source.fetch .word
  setConditionCodes (.ofByte value.toUInt8)

def moveToSr (source : AddressingMode) : Execution σ Unit := do
  let (_, value) ← source.fetch .word
  setStatusWord value.toUInt16

def trap (number : Fin 16) : Execution σ Unit :=
  throw (.trap (UInt8.ofNat number.val))

def trapIf (condition : Condition) : Execution σ Unit := do
  if ← test condition then
    throw .conditionalTrap

def skipWords : Nat → Execution σ Unit
  | 0 => pure ()
  | count + 1 => do
      let _ ← fetchWord
      skipWords count

/-- Passes its operand words and traps if a condition holds. -/
def trapcc (condition : Condition) (operandWords : Nat) :
    Execution σ Unit := do
  skipWords operandWords
  trapIf condition

/-- The opcode that runs in place of a breakpoint without a handler. -/
def illegalOpcode : UInt16 := 0x4AFC

def askHandler (vector : Fin 8) : Execution σ (Option UInt16) := fun machine =>
  let (reply, left) := machine.askHandler vector
  .ok reply left

/-- Goes back to the breakpoint and puts the handler's reply in place of its
opcode. -/
def bkpt (vector : Fin 8) : Execution σ Unit := do
  setPc ((← pc) - 2)
  setOpcode illegalOpcode
  match ← askHandler vector with
  | some opcode => setOpcode opcode
  | none => pure ()
  throw .breakpoint

/-- Stops until an interrupt, or ends the run if the immediate is 0xFFFF. -/
def stop : Execution σ Unit := do
  let immediate ← fetchWord
  if immediate = 0xFFFF then
    setCondition .finished
  else
    setStatusWord immediate
    setCondition .stopped

def resetDevices : Execution σ Unit :=
  update fun machine =>
    { machine with memory := Memory.resetDevices machine.memory }

end Execution

end M68k

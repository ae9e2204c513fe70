import M68k.Instruction
import M68k.Operand

/-!
# Flow of control

Branches, jumps, subroutines, stack frames and returns.  Displacements count
from the address after the opcode word.
-/

namespace M68k.Execution

variable {σ : Type} [Memory σ]

/-- The target of a branch.  A displacement byte of zero stands for a word that
follows, and from the 68020 on one of 0xFF for a long. -/
def branchTarget (displacement : UInt8) : Execution σ UInt32 := do
  let base ← pc
  if displacement = 0 then
    return base + (← fetchDisplacement)
  else if displacement = 0xFF && (← supports Model.hasLongBranches) then
    return base + (← fetchLong)
  else
    return base + signExtendByte displacement

def bcc (condition : Condition) (displacement : UInt8) : Execution σ Unit := do
  let target ← branchTarget displacement
  if ← test condition then
    setPc target

/-- Stacks the return address and continues at a target. -/
def callSubroutine (target : UInt32) : Execution σ Unit := do
  push .long (← pc)
  setPc target

def bsr (displacement : UInt8) : Execution σ Unit := do
  callSubroutine (← branchTarget displacement)

/-- Counts a data register down and branches until a condition holds or the
counter's low word has passed zero. -/
def dbcc (condition : Condition) (counter : Fin 8) : Execution σ Unit := do
  let base ← pc
  let target := base + (← fetchDisplacement)
  unless ← test condition do
    let value ← register (.data counter)
    let count := value.toUInt16 - 1
    setRegister (.data counter) (OperandSize.word.merge value count.toUInt32)
    if count ≠ 0xFFFF then
      setPc target

def jmp (target : AddressingMode) : Execution σ Unit := do
  setPc (← target.resolveAddress .long)

def jsr (target : AddressingMode) : Execution σ Unit := do
  callSubroutine (← target.resolveAddress .long)

def rts : Execution σ Unit := do
  setPc (← pop .long)

/-- Restores the condition codes and returns.  They are restored before the
return address is read. -/
def rtr : Execution σ Unit := do
  let codes ← pop .word
  setConditionCodes (.ofByte codes.toUInt8)
  setPc (← pop .long)

/-- Returns and drops arguments from the stack. -/
def rtd : Execution σ Unit := do
  let displacement ← fetchDisplacement
  setPc (← pop .long)
  setRegister .stackPointer ((← register .stackPointer) + displacement)

/-- The bytes of an exception frame by the number in its format word. -/
def frameSize? (format : UInt16) : Option UInt32 :=
  if format = 0 then some 8 else if format = 2 then some 12 else none

/-- Returns from an exception.  The format word is read first; the status word
is written last, when the stack pointer has passed the frame. -/
def rte : Execution σ Unit := do
  let pointer ← register .stackPointer
  let format ← readData (pointer + 6) .word
  match frameSize? (format.toUInt16 >>> 12) with
  | none => throw .formatError
  | some size =>
      let status ← readData pointer .word
      let returnAddress ← readData (pointer + 2) .long
      setRegister .stackPointer (pointer + size)
      setPc returnAddress
      setStatusWord status.toUInt16

/-- Stacks an address register, lets it point there, and moves the stack
pointer by a displacement. -/
def linkBy (number : Fin 8) (displacement : UInt32) : Execution σ Unit := do
  push .long (← register (.address number))
  let pointer ← register .stackPointer
  setRegister (.address number) pointer
  setRegister .stackPointer ((← register .stackPointer) + displacement)

def link (number : Fin 8) : Execution σ Unit := do
  linkBy number (← fetchDisplacement)

def linkLong (number : Fin 8) : Execution σ Unit := do
  linkBy number (← fetchLong)

/-- Closes a stack frame.  The stack pointer moves to the frame before the
saved register is read. -/
def unlk (number : Fin 8) : Execution σ Unit := do
  setRegister .stackPointer (← register (.address number))
  let saved ← pop .long
  setRegister (.address number) saved

end M68k.Execution

import M68k.Machine
import M68k.Memory

/-!
# Executions and memory accesses

An execution changes the machine and ends with a value or a fault; after a fault
the machine is as the instruction left it.  Executions are made of few kinds of
steps: observing a part of the machine, updating it, and asking the memory.

A data access at an odd address is an address error on the models that need
alignment, and so is an instruction fetch on every model; the memory is not
asked then.  A refused access is a bus error.
-/

namespace M68k

/-- A change of the machine that may end with a fault. -/
abbrev Execution (σ : Type) := EStateM Fault (Machine σ)

namespace Execution

variable {σ : Type}

/-! ## Steps that executions are made of -/

def observe {α : Type} (view : Machine σ → α) : Execution σ α :=
  fun machine => .ok (view machine) machine

def update (change : Machine σ → Machine σ) : Execution σ Unit :=
  fun machine => .ok () (change machine)

/-- A transaction of the memory; a refusal is a bus error. -/
def onBus {α : Type} (transaction : Bus σ α) : Execution σ α :=
  fun machine =>
    match transaction machine.memory with
    | .ok value memory => .ok value { machine with memory }
    | .error _ memory => .error .busError { machine with memory }

/-- A transaction of the memory whose refusal is only reported. -/
def attempt (transaction : Bus σ Unit) : Execution σ Bool := fun machine =>
  match transaction machine.memory with
  | .ok _ memory => .ok true { machine with memory }
  | .error _ memory => .ok false { machine with memory }

/-! ## Observations -/

def register (register : Register) : Execution σ UInt32 :=
  observe (·.registers.get register)

def control (register : ControlRegister) : Execution σ UInt32 :=
  observe (·.registers.control register)

def banked (bank : StackBank) : Execution σ UInt32 :=
  observe (·.registers.banked bank)

def pc : Execution σ UInt32 :=
  observe (·.registers.pc)

def status : Execution σ StatusRegister :=
  observe (·.status)

def test (condition : Condition) : Execution σ Bool :=
  observe fun machine => condition.holds machine.status.codes.flags

def supports (property : Model → Bool) : Execution σ Bool :=
  observe fun machine => property machine.model

def misaligned (address : UInt32) : Execution σ Bool :=
  observe (·.misaligned address)

def dataSpace : Execution σ FunctionCode :=
  observe (·.dataSpace)

def programSpace : Execution σ FunctionCode :=
  observe (·.programSpace)

/-! ## Updates -/

def setRegister (register : Register) (value : UInt32) : Execution σ Unit :=
  update fun machine =>
    { machine with registers := machine.registers.set register value }

def setControl (register : ControlRegister) (value : UInt32) :
    Execution σ Unit :=
  update fun machine =>
    { machine with registers := machine.registers.setControl register value }

def setBanked (bank : StackBank) (value : UInt32) : Execution σ Unit :=
  update fun machine =>
    { machine with registers := machine.registers.setBanked bank value }

def setPc (address : UInt32) : Execution σ Unit :=
  update (·.withPc address)

/-- Puts a word in place of the opcode. -/
def setOpcode (opcode : UInt16) : Execution σ Unit :=
  update ({ · with opcode })

def setConditionCodes (codes : ConditionCodes) : Execution σ Unit :=
  update (·.setConditionCodes codes)

/-- Writes the status word and exchanges stack pointers. -/
def setStatusWord (word : UInt16) : Execution σ Unit :=
  update (·.setStatusWord word)

def setCondition (condition : RunCondition) : Execution σ Unit :=
  update ({ · with condition })

/-! ## Data accesses -/

variable [Memory σ]

/-- Ends with an address error if an operand cannot be at an address. -/
def checkAlignment (address : UInt32) (size : OperandSize) :
    Execution σ Unit := do
  if size ≠ .byte && (← misaligned address) then
    throw .addressError

def readIn (space : FunctionCode) (address : UInt32) (size : OperandSize) :
    Execution σ UInt32 := do
  checkAlignment address size
  match size with
  | .byte => return (← onBus (Memory.readByte address space)).toUInt32
  | .word => return (← onBus (Memory.readWord address space)).toUInt32
  | .long => onBus (Memory.readLong address space)
  | .unsized => return 0

def writeIn (space : FunctionCode) (address : UInt32) (size : OperandSize)
    (value : UInt32) : Execution σ Unit := do
  checkAlignment address size
  match size with
  | .byte => onBus (Memory.writeByte address value.toUInt8 space)
  | .word => onBus (Memory.writeWord address value.toUInt16 space)
  | .long => onBus (Memory.writeLong address value space)
  | .unsized => return ()

def readData (address : UInt32) (size : OperandSize) : Execution σ UInt32 := do
  readIn (← dataSpace) address size

def writeData (address : UInt32) (size : OperandSize) (value : UInt32) :
    Execution σ Unit := do
  writeIn (← dataSpace) address size value

/-! ## Instruction words -/

def instructionWordAt (address : UInt32) : Execution σ UInt16 := do
  if address % 2 ≠ 0 then
    throw .addressError
  onBus (Memory.fetchWord address (← programSpace))

/-- Reads the next opcode without passing it. -/
def prefetch : Execution σ Unit := do
  setOpcode (← instructionWordAt (← pc))

/-- Reads the next extension word and passes it. -/
def fetchWord : Execution σ UInt16 := do
  let address ← pc
  let word ← instructionWordAt address
  setPc (address + 2)
  return word

def fetchLong : Execution σ UInt32 := do
  let high ← fetchWord
  let low ← fetchWord
  return joinWords high low

def fetchDisplacement : Execution σ UInt32 :=
  return signExtendWord (← fetchWord)

/-! ## The stack -/

def push (size : OperandSize) (value : UInt32) : Execution σ Unit := do
  let pointer := (← register .stackPointer) - UInt32.ofNat size.bytes
  writeData pointer size value
  setRegister .stackPointer pointer

def pop (size : OperandSize) : Execution σ UInt32 := do
  let pointer ← register .stackPointer
  let value ← readData pointer size
  setRegister .stackPointer (pointer + UInt32.ofNat size.bytes)
  return value

end Execution

end M68k

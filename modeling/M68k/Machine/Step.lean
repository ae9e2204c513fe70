import M68k.Execution
import M68k.Machine.Exception

/-!
# Steps of the machine

A step executes the instruction whose opcode is held, and then fetches the next
opcode.  A fault of the instruction or of that fetch is delivered as an
exception; a fault of the delivery halts the machine.  Interrupts and resets
also end with the fetch of an opcode.
-/

namespace M68k.Machine

variable {σ : Type}

/-- The machine that an exception entry leaves.  A failed entry halts it. -/
def haltOnFault : EStateM.Result Fault (Machine σ) Unit → Machine σ
  | .ok _ machine => machine
  | .error _ machine => { machine with condition := .halted }

variable [Memory σ] (machine : Machine σ)

/-- Delivers a fault of the instruction at an address. -/
def deliver (fault : Fault) (instruction : UInt32) : Machine σ :=
  match fault.vectorOffset? with
  | none => machine
  | some offset =>
      let entered :=
        if fault.restartsInstruction then machine.withPc instruction
        else machine
      haltOnFault
        (Execution.enterException
          (.ofFormat fault.frameFormat instruction) offset entered)

/-- Fetches the next opcode.  A fault is delivered as one of the instruction
that could not be fetched. -/
def fetchNext : Machine σ :=
  match Execution.prefetch machine with
  | .ok _ fetched => fetched
  | .error fault fetched => fetched.deliver fault fetched.registers.pc

/-- Enters the trace exception for the instruction at an address. -/
def enterTrace (instruction : UInt32) : Machine σ :=
  haltOnFault
    (Execution.enterException (.sixWord instruction)
      (vectorTableOffset traceVector) machine)

/-- Executes one instruction.  A breakpoint leaves its substitute as the opcode.
An instruction is traced if tracing was on before it. -/
def step : Machine σ :=
  let instruction := machine.registers.pc
  match Execution.executeOpcode (machine.withPc (instruction + 2)) with
  | .error .breakpoint left => left
  | .error fault left => left.deliver fault instruction
  | .ok _ left =>
      if left.condition ≠ .running then left
      else if machine.status.trace then left.enterTrace instruction
      else left.fetchNext

/-- Whether an interrupt at a level is taken. -/
def acceptsInterrupt (level : UInt8) : Bool :=
  level != 0 &&
    (machine.condition == .running || machine.condition == .stopped) &&
    (level == 7 || machine.status.interruptMask < level)

/-- Presents an interrupt at a level, of which the low three bits count, and
tells whether it was taken.  A taken interrupt raises the mask to its level and
wakes a stopped machine. -/
def interrupt (level : UInt8) : Bool × Machine σ :=
  let level := level &&& 7
  if machine.acceptsInterrupt level then
    let awake := { machine with condition := .running }
    match Execution.enterException .short
        (vectorTableOffset (autovectorBase + level)) awake with
    | .ok _ entered =>
        (true,
          { entered with
            status := { entered.status with interruptMask := level } })
    | .error _ entered => (false, { entered with condition := .halted })
  else (false, machine)

/-- Loads the stack pointer and the program counter from the first two entries
of the vector table and fetches the first opcode. -/
def loadResetVectors : Execution σ Unit := do
  let pointer ← Execution.onBus (Memory.readLong 0 .supervisorProgram)
  let start ← Execution.onBus (Memory.readLong 4 .supervisorProgram)
  Execution.setRegister .stackPointer pointer
  Execution.setPc start
  Execution.prefetch

/-- The machine with cleared registers in supervisor mode, interrupts masked. -/
def cleared : Machine σ :=
  setStatusWord
    { machine with registers := {}, status := {}, opcode := 0 } 0x2700

/-- Resets the machine.  It runs unless a fault stopped the loading of its
vectors. -/
def reset : Machine σ :=
  match loadResetVectors machine.cleared with
  | .ok _ started => { started with condition := .running }
  | .error _ left => { left with condition := .halted }

end M68k.Machine

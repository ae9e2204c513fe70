import M68k.Breakpoint
import M68k.Condition
import M68k.Fault
import M68k.FunctionCode
import M68k.OperandSize

/-!
# The machine

A processor wired to a memory.  The stack pointer in use is the last address
register; which banked stack pointer it stands for depends on the supervisor and
master bits.  The status word is therefore only written together with an
exchange of stack pointers.
-/

namespace M68k

/-- What the instruction loop is doing. -/
inductive RunCondition where
  | startup
  | running
  /-- Stopped by a failed exception; only a reset ends this. -/
  | halted
  /-- Waiting for an interrupt. -/
  | stopped
  /-- The program asked for the end of the run. -/
  | finished
deriving DecidableEq, Repr, Inhabited

/-- A processor and its memory. -/
structure Machine (σ : Type) where
  registers : Registers := {}
  status : StatusRegister := {}
  model : Model
  condition : RunCondition := .startup
  /-- The word of the instruction that executes next. -/
  opcode : UInt16 := 0
  memory : σ
  handler : Option BreakpointHandler := none
  /-- The visits to breakpoint handlers, the latest first. -/
  visits : List BreakpointVisit := []

namespace Machine

variable {σ : Type} (machine : Machine σ)

def isSupervisor : Bool :=
  machine.status.supervisor

def dataSpace : FunctionCode :=
  .data machine.isSupervisor

def programSpace : FunctionCode :=
  .program machine.isSupervisor

/-- The bank that the stack pointer in use stands for. -/
def activeBank : StackBank :=
  if machine.isSupervisor then
    if machine.model.hasMasterStack && machine.status.master then .master
    else .interrupt
  else .user

def saveStackPointer : Machine σ :=
  { machine with
    registers := machine.registers.setBanked machine.activeBank
      machine.registers.stackPointer }

def loadStackPointer : Machine σ :=
  { machine with
    registers := machine.registers.setStackPointer
      (machine.registers.banked machine.activeBank) }

/-- The machine with a new status word.  Bits that the model lacks are dropped,
and the stack pointer is exchanged if the word selects another bank. -/
def setStatusWord (word : UInt16) : Machine σ :=
  loadStackPointer
    { machine.saveStackPointer with
      status := .ofWord (word &&& machine.model.statusMask) }

def setConditionCodes (codes : ConditionCodes) : Machine σ :=
  { machine with status := { machine.status with codes } }

/-- Whether a word or long cannot be at an address. -/
def misaligned (address : UInt32) : Bool :=
  machine.model.needsAlignedData && address % 2 != 0

def withPc (pc : UInt32) : Machine σ :=
  { machine with registers := { machine.registers with pc } }

def withHandler (handler : Option BreakpointHandler) : Machine σ :=
  { machine with handler }

def perform : HostAction → Machine σ
  | .writeRegister register value =>
      { machine with registers := machine.registers.set register value }
  | .writeStatus word => machine.setStatusWord word
  | .writePc address => machine.withPc address
  | .writeOpcode opcode => { machine with opcode }
  | .attach replies actions => machine.withHandler (some ⟨replies, actions⟩)
  | .detach => machine.withHandler none

def recordVisit (vector : Fin 8) : Machine σ :=
  { machine with
    visits :=
      { vector
        pc := machine.registers.pc
        opcode := machine.opcode
        attached := machine.handler.isSome } :: machine.visits }

/-- Asks the attached handler for a substitute.  The handler is detached while
it is asked, and attached again unless it has attached another. -/
def askHandler (vector : Fin 8) : Option UInt16 × Machine σ :=
  match machine.handler with
  | none => (none, machine)
  | some handler =>
      let asked := (machine.withHandler none).recordVisit vector
      let left := handler.actions.foldl perform asked
      (some (handler.replies.get vector),
        if left.handler.isSome then left
        else left.withHandler (some handler))

end Machine

end M68k

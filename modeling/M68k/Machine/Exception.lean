import M68k.Machine.Access

/-!
# Exception entry

Entering an exception switches to supervisor mode with tracing off, builds a
frame on the supervisor stack and continues at the address in the vector table.

```text
short frame              six-word frame
+0 status word           +0 status word
+2 program counter       +2 program counter
+6 0, vector offset      +6 2, vector offset
                         +8 address of the instruction
```
-/

namespace M68k

/-- What a stack frame holds beside the status word and program counter. -/
inductive ExceptionFrame where
  | short
  | sixWord (instruction : UInt32)
deriving DecidableEq, Repr

namespace ExceptionFrame

/-- The number in the high digit of the format word. -/
def format : ExceptionFrame → UInt16
  | short => 0
  | sixWord _ => 2

def size : ExceptionFrame → UInt32
  | short => 8
  | sixWord _ => 12

/-- The frame for a fault of the instruction at an address. -/
def ofFormat (format : FrameFormat) (instruction : UInt32) : ExceptionFrame :=
  match format with
  | .short => short
  | .sixWord => sixWord instruction

end ExceptionFrame

namespace Execution

variable {σ : Type} [Memory σ]

/-- Writes a frame and tells whether all of it was written.  Every part is
tried, also after another was refused. -/
def writeFrame (frame : ExceptionFrame) (vectorOffset status : UInt16)
    (pointer : UInt32) : Execution σ Bool := do
  let returnAddress ← pc
  let statusWritten ←
    attempt (Memory.writeWord pointer status .supervisorData)
  let pcWritten ←
    attempt (Memory.writeLong (pointer + 2) returnAddress .supervisorData)
  let formatWritten ←
    attempt (Memory.writeWord (pointer + 6)
      ((frame.format <<< 12) ||| vectorOffset) .supervisorData)
  let instructionWritten ←
    match frame with
    | .short => pure true
    | .sixWord instruction =>
        attempt (Memory.writeLong (pointer + 8) instruction .supervisorData)
  return statusWritten && pcWritten && formatWritten && instructionWritten

/-- Enters the exception whose vector is at an offset in the table.  The program
counter changes only when the vector has been read. -/
def enterException (frame : ExceptionFrame) (vectorOffset : UInt16) :
    Execution σ Unit := do
  let status := (← status).toWord
  setStatusWord ((status &&& 0x3FFF) ||| StatusBit.supervisor)
  let top ← register .stackPointer
  if ← misaligned top then
    throw .addressError
  let pointer := top - frame.size
  setRegister .stackPointer pointer
  let written ← writeFrame frame vectorOffset status pointer
  unless written do
    throw .busError
  let base ← control .vbr
  if ← misaligned base then
    throw .addressError
  let entry ←
    onBus (Memory.readLong (base + vectorOffset.toUInt32) .supervisorData)
  setPc entry
  prefetch

end Execution

end M68k

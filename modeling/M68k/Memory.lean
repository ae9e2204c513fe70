import M68k.FunctionCode
import M68k.Word

/-!
# Memory as the processor sees it

A memory answers accesses of bytes, words, longs and runs of bytes.  An access
either succeeds or is refused; in both cases it leaves a memory, because a
refused access may have had effects of its own, such as the first bytes of a
long write or an entry in a record.

Words and longs are big-endian.  A memory that says nothing about them gets them
composed from bytes; the composition stops at the first refused byte.  Alignment
is no concern of the memory: the processor checks it before it asks.
-/

namespace M68k

/-- A memory transaction, which may be refused without a reason. -/
abbrev Bus (σ : Type) := EStateM Unit σ

namespace Bus

variable {σ : Type}

def readWordBytewise (readByte : UInt32 → Bus σ UInt8) (address : UInt32) :
    Bus σ UInt16 := do
  let high ← readByte address
  let low ← readByte (address + 1)
  return joinBytes high low

def readLongWordwise (readWord : UInt32 → Bus σ UInt16) (address : UInt32) :
    Bus σ UInt32 := do
  let high ← readWord address
  let low ← readWord (address + 2)
  return joinWords high low

def writeWordBytewise (writeByte : UInt32 → UInt8 → Bus σ Unit)
    (address : UInt32) (value : UInt16) : Bus σ Unit := do
  writeByte address (highByte value)
  writeByte (address + 1) value.toUInt8

def writeLongWordwise (writeWord : UInt32 → UInt16 → Bus σ Unit)
    (address : UInt32) (value : UInt32) : Bus σ Unit := do
  writeWord address (highWord value)
  writeWord (address + 2) value.toUInt16

/-- A transaction that is refused and leaves the memory alone. -/
def refuse {α : Type} : Bus σ α :=
  throw ()

end Bus

/-- Something that answers memory accesses tagged with a function code. -/
class Memory (σ : Type) where
  readByte : UInt32 → FunctionCode → Bus σ UInt8
  writeByte : UInt32 → UInt8 → FunctionCode → Bus σ Unit
  /-- The bytes of a run, all of them or none. -/
  readRun : UInt32 → Nat → FunctionCode → Bus σ (List UInt8)
  /-- Writes the given bytes of a run and keeps the others.  The access covers
  the whole run. -/
  writeRun : UInt32 → List (Option UInt8) → FunctionCode → Bus σ Unit
  readWord : UInt32 → FunctionCode → Bus σ UInt16 := fun address space =>
    Bus.readWordBytewise (readByte · space) address
  readLong : UInt32 → FunctionCode → Bus σ UInt32 := fun address space =>
    Bus.readLongWordwise (readWord · space) address
  writeWord : UInt32 → UInt16 → FunctionCode → Bus σ Unit :=
    fun address value space =>
      Bus.writeWordBytewise (writeByte · · space) address value
  writeLong : UInt32 → UInt32 → FunctionCode → Bus σ Unit :=
    fun address value space =>
      Bus.writeLongWordwise (writeWord · · space) address value
  /-- The fetch of an opcode or extension word, apart from data reads so that
  the instruction stream can be watched. -/
  fetchWord : UInt32 → FunctionCode → Bus σ UInt16 := fun address space =>
    readWord address space
  /-- What the RESET instruction does to the devices on the bus. -/
  resetDevices : σ → σ := id

end M68k

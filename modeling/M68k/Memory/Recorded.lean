import M68k.Memory.Watched

/-!
# Recorded memory

A watched memory in which words and longs are composed of bytes, as they are on
the bus.  Its record is a list of events, whether granted or refused.
-/

namespace M68k

inductive BusEvent where
  | readByte (space : FunctionCode) (address : UInt32)
  | writeByte (space : FunctionCode) (address : UInt32) (value : UInt8)
  | readRun (space : FunctionCode) (address : UInt32) (length : Nat)
  | writeRun (space : FunctionCode) (address : UInt32) (length : Nat)
  | fetchWord (space : FunctionCode) (address : UInt32)
  | resetDevices
deriving DecidableEq, Repr

/-- The event of a request.  Data words and longs have none but those of their
bytes. -/
def MemoryRequest.event? : MemoryRequest → Option BusEvent
  | .access space (.readByte address) => some (.readByte space address)
  | .access space (.writeByte address value) =>
      some (.writeByte space address value)
  | .access space (.readRun address length) =>
      some (.readRun space address length)
  | .access space (.writeRun address bytes) =>
      some (.writeRun space address bytes.length)
  | .access space (.fetchWord address) => some (.fetchWord space address)
  | .access _ (.readWord _) | .access _ (.readLong _)
  | .access _ (.writeWord _ _) | .access _ (.writeLong _ _) => none
  | .reset => some .resetDevices

/-- A watched memory that is asked for bytes and runs only. -/
structure RecordedMemory (σ : Type) extends WatchedMemory σ

namespace RecordedMemory

variable {σ : Type}

/-- The recorded events in the order in which they happened. -/
def events (recorded : RecordedMemory σ) : List BusEvent :=
  recorded.requests.reverse.filterMap MemoryRequest.event?

/-- The same memory with an empty record. -/
def forget (recorded : RecordedMemory σ) : RecordedMemory σ :=
  { recorded with requests := [] }

def note (request : MemoryRequest) : Bus (RecordedMemory σ) Unit :=
  modify fun recorded =>
    { recorded with requests := request :: recorded.requests }

variable [Memory σ]

/-- An access of the watched memory. -/
def watch (space : FunctionCode) (access : Access) :
    Bus (RecordedMemory σ) access.Answer := fun recorded =>
  match WatchedMemory.watch space access recorded.toWatchedMemory with
  | .ok answer watched => .ok answer ⟨watched⟩
  | .error refusal watched => .error refusal ⟨watched⟩

/-- Reads a word from recorded bytes. -/
def readWord (address : UInt32) (space : FunctionCode) :
    Bus (RecordedMemory σ) UInt16 :=
  Bus.readWordBytewise (fun address => watch space (.readByte address)) address

instance : Memory (RecordedMemory σ) where
  readByte address space := watch space (.readByte address)
  writeByte address value space := watch space (.writeByte address value)
  readRun address length space := watch space (.readRun address length)
  writeRun address bytes space := watch space (.writeRun address bytes)
  fetchWord address space := do
    note (.access space (.fetchWord address))
    readWord address space
  resetDevices recorded := ⟨Memory.resetDevices recorded.toWatchedMemory⟩

end RecordedMemory

end M68k

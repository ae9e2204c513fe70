import M68k.Memory

/-!
# Watched memory

A memory that keeps a record of everything asked of it, granted or refused, and
otherwise behaves as the memory it watches.
-/

namespace M68k

/-! ## Accesses as data -/

/-- An access to a memory, apart from its space. -/
inductive Access where
  | readByte (address : UInt32)
  | readWord (address : UInt32)
  | readLong (address : UInt32)
  | writeByte (address : UInt32) (value : UInt8)
  | writeWord (address : UInt32) (value : UInt16)
  | writeLong (address : UInt32) (value : UInt32)
  | readRun (address : UInt32) (length : Nat)
  | writeRun (address : UInt32) (bytes : List (Option UInt8))
  | fetchWord (address : UInt32)
deriving DecidableEq, Repr

namespace Access

/-- What a granted access answers. -/
def Answer : Access → Type
  | readByte _ => UInt8
  | readWord _ | fetchWord _ => UInt16
  | readLong _ => UInt32
  | readRun _ _ => List UInt8
  | writeByte _ _ | writeWord _ _ | writeLong _ _ | writeRun _ _ => Unit

/-- Makes an access in a space. -/
def ask {σ : Type} [Memory σ] (space : FunctionCode) :
    (access : Access) → Bus σ access.Answer
  | readByte address => Memory.readByte address space
  | readWord address => Memory.readWord address space
  | readLong address => Memory.readLong address space
  | writeByte address value => Memory.writeByte address value space
  | writeWord address value => Memory.writeWord address value space
  | writeLong address value => Memory.writeLong address value space
  | readRun address length => Memory.readRun address length space
  | writeRun address bytes => Memory.writeRun address bytes space
  | fetchWord address => Memory.fetchWord address space

end Access

/-! ## Records -/

/-- Something asked of a memory. -/
inductive MemoryRequest where
  | access (space : FunctionCode) (access : Access)
  | reset
deriving DecidableEq, Repr

/-- A memory and what was asked of it, the latest first. -/
structure WatchedMemory (σ : Type) where
  memory : σ
  requests : List MemoryRequest := []

namespace WatchedMemory

variable {σ : Type} [Memory σ]

/-- Makes an access and records it. -/
def watch (space : FunctionCode) (access : Access) :
    Bus (WatchedMemory σ) access.Answer := fun watched =>
  match access.ask space watched.memory with
  | .ok answer memory =>
      .ok answer ⟨memory, .access space access :: watched.requests⟩
  | .error refusal memory =>
      .error refusal ⟨memory, .access space access :: watched.requests⟩

instance : Memory (WatchedMemory σ) where
  readByte address space := watch space (.readByte address)
  writeByte address value space := watch space (.writeByte address value)
  readRun address length space := watch space (.readRun address length)
  writeRun address bytes space := watch space (.writeRun address bytes)
  readWord address space := watch space (.readWord address)
  readLong address space := watch space (.readLong address)
  writeWord address value space := watch space (.writeWord address value)
  writeLong address value space := watch space (.writeLong address value)
  fetchWord address space := watch space (.fetchWord address)
  resetDevices watched :=
    ⟨Memory.resetDevices watched.memory, .reset :: watched.requests⟩

end WatchedMemory

end M68k

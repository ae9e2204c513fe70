import M68k.Memory

/-!
# Flat memory

Bytes from address zero up, the same in every space.  An access that reaches
past the end is refused and changes nothing, whatever its width.
-/

namespace M68k

/-- Memory without spaces, from address zero up. -/
structure FlatMemory where
  bytes : Array UInt8
deriving DecidableEq, Repr, Inhabited

namespace FlatMemory

def ofSize (size : Nat) : FlatMemory where
  bytes := Array.replicate size 0

def size (memory : FlatMemory) : Nat :=
  memory.bytes.size

def covers (memory : FlatMemory) (address : UInt32) (length : Nat) : Bool :=
  address.toNat + length ≤ memory.size

/-- The bytes of a run that lies in the memory. -/
def run (memory : FlatMemory) (address : UInt32) (length : Nat) : List UInt8 :=
  (memory.bytes.extract address.toNat (address.toNat + length)).toList

/-- The memory with the given bytes of a run that lies in it. -/
def overwrite (memory : FlatMemory) (address : UInt32)
    (bytes : List (Option UInt8)) : FlatMemory where
  bytes := go memory.bytes address.toNat bytes
where
  /-- Writes the bytes from an index on. -/
  go (contents : Array UInt8) (index : Nat) :
      List (Option UInt8) → Array UInt8
    | [] => contents
    | none :: rest => go contents (index + 1) rest
    | some byte :: rest =>
        go (contents.setIfInBounds index byte) (index + 1) rest

def run? (memory : FlatMemory) (address : UInt32) (length : Nat) :
    Option (List UInt8) :=
  if memory.covers address length then some (memory.run address length)
  else none

/-- The memory with the given bytes of a run, if it lies in the memory. -/
def overwrite? (memory : FlatMemory) (address : UInt32)
    (bytes : List (Option UInt8)) : Option FlatMemory :=
  if memory.covers address bytes.length then
    some (memory.overwrite address bytes)
  else none

/-- The memory with an image copied in, if it fits. -/
def load? (memory : FlatMemory) (address : UInt32) (image : List UInt8) :
    Option FlatMemory :=
  memory.overwrite? address (image.map some)

def readRun (address : UInt32) (length : Nat) : Bus FlatMemory (List UInt8) :=
  fun memory =>
    match memory.run? address length with
    | some bytes => .ok bytes memory
    | none => .error () memory

def writeRun (address : UInt32) (bytes : List (Option UInt8)) :
    Bus FlatMemory Unit := fun memory =>
  match memory.overwrite? address bytes with
  | some written => .ok () written
  | none => .error () memory

def readByte (address : UInt32) : Bus FlatMemory UInt8 := fun memory =>
  match memory.bytes[address.toNat]? with
  | some byte => .ok byte memory
  | none => .error () memory

def writeByte (address : UInt32) (value : UInt8) : Bus FlatMemory Unit :=
  writeRun address [some value]

def readWord (address : UInt32) : Bus FlatMemory UInt16 := do
  match ← readRun address 2 with
  | [high, low] => return joinBytes high low
  | _ => Bus.refuse

def readLong (address : UInt32) : Bus FlatMemory UInt32 := do
  match ← readRun address 4 with
  | [first, second, third, fourth] =>
      return joinWords (joinBytes first second) (joinBytes third fourth)
  | _ => Bus.refuse

def writeWord (address : UInt32) (value : UInt16) : Bus FlatMemory Unit :=
  writeRun address ((bytesOfWord value).map some)

def writeLong (address : UInt32) (value : UInt32) : Bus FlatMemory Unit :=
  writeRun address ((bytesOfLong value).map some)

instance : Memory FlatMemory where
  readByte address _ := readByte address
  writeByte address value _ := writeByte address value
  readRun address length _ := readRun address length
  writeRun address bytes _ := writeRun address bytes
  readWord address _ := readWord address
  readLong address _ := readLong address
  writeWord address value _ := writeWord address value
  writeLong address value _ := writeLong address value

end FlatMemory

end M68k

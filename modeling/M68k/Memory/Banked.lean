import M68k.Memory

/-!
# Banked memory

Each space has a bank of its own, shares one with other spaces, or has none.
Banks begin at a common base address, and ranges of addresses can be
write-protected in all of them.
-/

namespace M68k

/-- Memory whose bank is selected by the function code. -/
structure BankedMemory where
  banks : Array (Array UInt8)
  /-- The bank of each function code. -/
  bankOf : Vector (Option Nat) 8
  /-- The address of the first byte of every bank. -/
  base : UInt32
  /-- Protected ranges, each from its first address up to but without its
  second. -/
  readOnly : List (UInt32 × UInt32)
deriving DecidableEq, Repr

namespace BankedMemory

def isReadOnly (memory : BankedMemory) (address : UInt32) : Bool :=
  memory.readOnly.any fun range => range.1 ≤ address && address < range.2

def offset (memory : BankedMemory) (address : UInt32) : Nat :=
  (address - memory.base).toNat

def bank? (memory : BankedMemory) (space : FunctionCode) :
    Option (Array UInt8) :=
  memory.bankOf[space.code].bind (memory.banks[·]?)

def readByte (address : UInt32) (space : FunctionCode) :
    Bus BankedMemory UInt8 := fun memory =>
  match (memory.bank? space).bind (·[memory.offset address]?) with
  | some byte => .ok byte memory
  | none => .error () memory

/-- The run that an access covers, if it lies in one piece in a bank. -/
def run? (memory : BankedMemory) (address : UInt32) (length : Nat)
    (space : FunctionCode) : Option (List UInt8) := do
  let contents ← memory.bank? space
  let start := memory.offset address
  guard (start + length ≤ contents.size)
  return (contents.extract start (start + length)).toList

/-- Whether a write may touch each of a number of addresses. -/
def isWritable (memory : BankedMemory) (address : UInt32) :
    (length : Nat) → Bool
  | 0 => true
  | length + 1 =>
      !memory.isReadOnly address && memory.isWritable (address + 1) length

/-- The memory with a byte of a bank replaced. -/
def poke (memory : BankedMemory) (bank index : Nat) (value : UInt8) :
    BankedMemory :=
  { memory with
    banks := memory.banks.modify bank (·.setIfInBounds index value) }

/-- The memory with the given bytes of a bank from an index on. -/
def pokeRun (memory : BankedMemory) (bank index : Nat) :
    List (Option UInt8) → BankedMemory
  | [] => memory
  | none :: rest => memory.pokeRun bank (index + 1) rest
  | some byte :: rest =>
      (memory.poke bank index byte).pokeRun bank (index + 1) rest

def readRun (address : UInt32) (length : Nat) (space : FunctionCode) :
    Bus BankedMemory (List UInt8) := fun memory =>
  match memory.run? address length space with
  | some bytes => .ok bytes memory
  | none => .error () memory

def writeRun (address : UInt32) (bytes : List (Option UInt8))
    (space : FunctionCode) : Bus BankedMemory Unit := fun memory =>
  match memory.bankOf[space.code], memory.run? address bytes.length space with
  | some bank, some _ =>
      if memory.isWritable address bytes.length then
        .ok () (memory.pokeRun bank (memory.offset address) bytes)
      else .error () memory
  | _, _ => .error () memory

def writeByte (address : UInt32) (value : UInt8) (space : FunctionCode) :
    Bus BankedMemory Unit :=
  writeRun address [some value] space

instance : Memory BankedMemory where
  readByte := readByte
  writeByte := writeByte
  readRun := readRun
  writeRun := writeRun

/-- The memory with an image copied into a bank, if it fits. -/
def loadBank? (memory : BankedMemory) (bank : Nat) (address : UInt32)
    (image : List UInt8) : Option BankedMemory := do
  let contents ← memory.banks[bank]?
  guard (memory.offset address + image.length ≤ contents.size)
  return memory.pokeRun bank (memory.offset address) (image.map some)

end BankedMemory

end M68k

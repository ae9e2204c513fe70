import M68k.AddressingMode
import M68k.Machine.Access

/-!
# Operands

Resolving an addressing mode reads the extension words it needs, moves the
address registers of `(An)+` and `-(An)`, and gives a location.  Reading and
writing the location is separate, so that an instruction that reads and writes
one operand resolves it once.

Operands relative to the program counter are read from program space, all other
memory operands from data space.
-/

namespace M68k

/-- Where a resolved operand is. -/
inductive Location where
  | dataRegister (number : Fin 8)
  | addressRegister (number : Fin 8)
  /-- In data space. -/
  | memory (address : UInt32)
  /-- In program space, relative to the program counter. -/
  | program (address : UInt32)
  /-- In the instruction. -/
  | immediate (value : UInt32)
deriving DecidableEq, Repr

def Location.address? : Location → Option UInt32
  | memory address | program address => some address
  | _ => none

/-- The first extension word of an indexed mode.

```text
15 14 .. 12 11 10  9  8  7  6  5  4  3  2 .. 0
A  register L  scale  0  displacement
A  register L  scale  1  BS IS BD size  0  selection
```
-/
structure IndexWord where
  word : UInt16
deriving DecidableEq, Repr

namespace IndexWord

def register (extension : IndexWord) : Register :=
  .ofIndex (extension.word >>> 12).toNat

/-- Whether the whole index register counts, and not its signed low word. -/
def isLong (extension : IndexWord) : Bool :=
  bitAt extension.word 11

/-- The places by which the index is shifted to the left. -/
def scale (extension : IndexWord) : Fin 4 :=
  pairAt extension.word 9

/-- Whether the word starts a full extension. -/
def isFull (extension : IndexWord) : Bool :=
  bitAt extension.word 8

/-- The signed displacement of a brief extension. -/
def displacement (extension : IndexWord) : UInt32 :=
  signExtendByte extension.word.toUInt8

/-- Whether a full extension leaves out the base. -/
def suppressesBase (extension : IndexWord) : Bool :=
  bitAt extension.word 7

/-- Whether a full extension leaves out the index. -/
def suppressesIndex (extension : IndexWord) : Bool :=
  bitAt extension.word 6

/-- The size field of the base displacement. -/
def baseDisplacementSize (extension : IndexWord) : Fin 4 :=
  pairAt extension.word 4

/-- The choice between direct and memory indirect addressing. -/
def selection (extension : IndexWord) : Fin 8 :=
  fieldAt extension.word 0

/-- Selections that no model defines. -/
def isReserved (extension : IndexWord) : Bool :=
  extension.selection == 4 ||
    (extension.suppressesIndex && 4 < extension.selection)

/-- The index in the value of the index register, scaled where the model
scales. -/
def index (extension : IndexWord) (whole : UInt32) (scaled : Bool) : UInt32 :=
  let value :=
    if extension.isLong then whole else OperandSize.word.signExtend whole
  if scaled then value <<< UInt32.ofNat extension.scale.val else value

end IndexWord

namespace Execution

variable {σ : Type} [Memory σ]

/-- A displacement of the size that two bits of a full extension name. -/
def fetchSizedDisplacement (size : Fin 4) : Execution σ UInt32 :=
  match size with
  | 2 => fetchDisplacement
  | 3 => fetchLong
  | _ => return 0

/-- The address of a full extension with the given base and index. -/
def fullIndexedAddress (extension : IndexWord) (base index : UInt32) :
    Execution σ UInt32 := do
  let base := if extension.suppressesBase then 0 else base
  let index := if extension.suppressesIndex then 0 else index
  if extension.baseDisplacementSize = 0 then
    throw .illegalInstruction
  let baseDisplacement ←
    fetchSizedDisplacement extension.baseDisplacementSize
  if extension.isReserved then
    throw .illegalInstruction
  let outerDisplacement ← fetchSizedDisplacement (pairAt extension.word 0)
  let address := base + baseDisplacement
  if extension.selection = 0 then
    return address + index
  else if extension.selection < 4 then
    let pointer ← readData (address + index) .long
    return pointer + outerDisplacement
  else
    let pointer ← readData address .long
    return pointer + index + outerDisplacement

/-- The address of an indexed operand.  Scales and full extensions came with the
68020; before it their bits have no meaning. -/
def indexedAddress (base : UInt32) : Execution σ UInt32 := do
  let extension := IndexWord.mk (← fetchWord)
  let extended ← supports Model.hasFullExtensions
  let index := extension.index (← register extension.register) extended
  if extended && extension.isFull then
    fullIndexedAddress extension base index
  else
    return base + extension.displacement + index

end Execution

namespace AddressingMode

/-- How far an operand moves the address register of its mode.  Bytes move the
stack pointer by two, so that it stays even. -/
def step (number : Fin 8) (size : OperandSize) : UInt32 :=
  if number = 7 ∧ size = .byte then 2 else UInt32.ofNat size.bytes

variable {σ : Type} [Memory σ]

open Execution

/-- Finds the operand of a mode. -/
def resolve (mode : AddressingMode) (size : OperandSize) :
    Execution σ Location :=
  match mode with
  | .dataRegister number => return .dataRegister number
  | .addressRegister number => return .addressRegister number
  | .indirect number => return .memory (← register (.address number))
  | .postincrement number => do
      let address ← register (.address number)
      setRegister (.address number) (address + step number size)
      return .memory address
  | .predecrement number => do
      let address := (← register (.address number)) - step number size
      setRegister (.address number) address
      return .memory address
  | .displacement number => do
      let displacement ← fetchDisplacement
      return .memory ((← register (.address number)) + displacement)
  | .indexed number => do
      let base ← register (.address number)
      return .memory (← indexedAddress base)
  | .absoluteShort => return .memory (← fetchDisplacement)
  | .absoluteLong => return .memory (← fetchLong)
  | .pcDisplacement => do
      let base ← pc
      let displacement ← fetchDisplacement
      return .program (base + displacement)
  | .pcIndexed => do
      let base ← pc
      return .program (← indexedAddress base)
  | .immediate =>
      match size with
      | .byte => return .immediate (size.zeroExtend (← fetchWord).toUInt32)
      | .word => return .immediate (← fetchWord).toUInt32
      | .long | .unsized => return .immediate (← fetchLong)

/-- The address of an operand that is not read. -/
def resolveAddress (mode : AddressingMode) (size : OperandSize) :
    Execution σ UInt32 := do
  match (← mode.resolve size).address? with
  | some address => return address
  | none => throw .illegalInstruction

end AddressingMode

namespace Location

variable {σ : Type} [Memory σ]

open Execution

/-- Reads an operand.  Registers are read whole. -/
def read (location : Location) (size : OperandSize) : Execution σ UInt32 :=
  match location with
  | .dataRegister number => register (.data number)
  | .addressRegister number => register (.address number)
  | .memory address => readData address size
  | .program address => do readIn (← programSpace) address size
  | .immediate value => return value

/-- Writes an operand.  Data registers keep the bits above it; address registers
take its sign extension. -/
def write (location : Location) (size : OperandSize) (value : UInt32) :
    Execution σ Unit :=
  match location with
  | .dataRegister number => do
      let kept ← register (.data number)
      setRegister (.data number) (size.merge kept value)
  | .addressRegister number =>
      setRegister (.address number) (size.signExtend value)
  | .memory address => writeData address size value
  | .program _ | .immediate _ => throw .illegalInstruction

end Location

namespace AddressingMode

variable {σ : Type} [Memory σ]

/-- Finds an operand and reads it, without the bits above its size. -/
def fetch (mode : AddressingMode) (size : OperandSize) :
    Execution σ (Location × UInt32) := do
  let location ← mode.resolve size
  let value ← location.read size
  return (location, size.zeroExtend value)

end AddressingMode

end M68k

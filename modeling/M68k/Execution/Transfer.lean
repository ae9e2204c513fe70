import M68k.Instruction
import M68k.Operand

/-!
# Register transfers

Addresses, register lists, alternate bytes, alternate spaces, control registers
and the exchange of registers.
-/

namespace M68k.Execution

variable {σ : Type} [Memory σ]

def lea (address : AddressingMode) (destination : Fin 8) :
    Execution σ Unit := do
  setRegister (.address destination) (← address.resolveAddress .long)

def pea (address : AddressingMode) : Execution σ Unit := do
  push .long (← address.resolveAddress .long)

def exg (first second : Register) : Execution σ Unit := do
  let firstValue ← register first
  let secondValue ← register second
  setRegister first secondValue
  setRegister second firstValue

/-! ## Register lists -/

/-- The positions of the bits that are set in a mask, in ascending order. -/
def listedPositions (mask : UInt16) : List Nat :=
  (List.range 16).filter (bitAt mask)

/-- The registers in the list of a mask, from the first data register up. -/
def listAscending (mask : UInt16) : List Register :=
  (listedPositions mask).map Register.ofIndex

/-- The registers in the list of a reversed mask, from the last address register
down. -/
def listDescending (mask : UInt16) : List Register :=
  (listedPositions mask).map fun position => Register.ofIndex (15 - position)

def storeAscending (size : OperandSize) (address : UInt32) :
    List Register → Execution σ Unit
  | [] => pure ()
  | first :: rest => do
      writeData address size (← register first)
      storeAscending size (address + UInt32.ofNat size.bytes) rest

/-- Stores registers at descending addresses below an address and gives the
address of the last.  One register is stored with a value of its own. -/
def storeDescending (size : OperandSize) (special : Register)
    (specialValue : UInt32) (address : UInt32) :
    List Register → Execution σ UInt32
  | [] => return address
  | first :: rest => do
      let address := address - UInt32.ofNat size.bytes
      let value ←
        if first = special then pure specialValue else register first
      writeData address size value
      storeDescending size special specialValue address rest

/-- Loads registers from ascending addresses and gives the address after the
last.  Words are sign-extended.  A fault keeps what was loaded before it. -/
def loadAscending (size : OperandSize) (address : UInt32) :
    List Register → Execution σ UInt32
  | [] => return address
  | first :: rest => do
      let value ← readData address size
      setRegister first (size.signExtend value)
      loadAscending size (address + UInt32.ofNat size.bytes) rest

/-- What MOVEM stores for its own predecremented register: the final value from
the 68020 on, the initial one before. -/
def storedPointer (size : OperandSize) (initial : UInt32) (count : Nat) :
    Execution σ UInt32 := do
  if ← supports Model.storesFinalPointer then
    return initial - UInt32.ofNat (size.bytes * count)
  else return initial

def movemStore (size : OperandSize) (mode : AddressingMode) :
    Execution σ Unit := do
  let mask ← fetchWord
  match mode with
  | .predecrement number =>
      let initial ← register (.address number)
      let registers := listDescending mask
      let stored ← storedPointer size initial registers.length
      let final ←
        storeDescending size (.address number) stored initial registers
      setRegister (.address number) final
  | _ =>
      let address ← mode.resolveAddress size
      storeAscending size address (listAscending mask)

/-- Loads a register list.  A postincremented register ends after the last
operand, also if it is in the list. -/
def movemLoad (size : OperandSize) (mode : AddressingMode) :
    Execution σ Unit := do
  let mask ← fetchWord
  match mode with
  | .postincrement number =>
      let initial ← register (.address number)
      let final ← loadAscending size initial (listAscending mask)
      setRegister (.address number) final
  | _ =>
      let address ← mode.resolveAddress size
      let _ ← loadAscending size address (listAscending mask)

/-! ## Alternate bytes -/

def operandBytes (size : OperandSize) (value : UInt32) : List UInt8 :=
  match size with
  | .byte => [value.toUInt8]
  | .word => bytesOfWord value.toUInt16
  | .long => bytesOfLong value
  | .unsized => []

/-- Every second element of a list, beginning with the first. -/
def everySecond {α : Type} : List α → List α
  | first :: _ :: rest => first :: everySecond rest
  | rest => rest

/-- The address after the displacement word of an address register. -/
def displacedAddress (number : Fin 8) : Execution σ UInt32 := do
  let displacement ← fetchDisplacement
  return (← register (.address number)) + displacement

/-- Stores a data register to alternate bytes of one run. -/
def movepStore (size : OperandSize) (data address : Fin 8) :
    Execution σ Unit := do
  let start ← displacedAddress address
  let bytes := operandBytes size (← register (.data data))
  onBus (Memory.writeRun start ((bytes.map some).intersperse none)
    (← dataSpace))

/-- Loads a data register from alternate bytes of one run. -/
def movepLoad (size : OperandSize) (data address : Fin 8) :
    Execution σ Unit := do
  let start ← displacedAddress address
  let run ←
    onBus (Memory.readRun start (2 * size.bytes - 1) (← dataSpace))
  Location.write (.dataRegister data) size (longOfBytes (everySecond run))

/-! ## Alternate spaces and control registers -/

/-- The place of a general register as an operand. -/
def registerLocation : Register → Location
  | .data number => .dataRegister number
  | .address number => .addressRegister number

/-- Moves an operand between a general register and the space that a function
code register names. -/
def moves (size : OperandSize) (mode : AddressingMode) :
    Execution σ Unit := do
  let extension ← fetchWord
  let address ← mode.resolveAddress size
  let general := Register.ofIndex (extension >>> 12).toNat
  if bitAt extension 11 then
    writeIn (.ofBits (← control .dfc)) address size (← register general)
  else
    let value ← readIn (.ofBits (← control .sfc)) address size
    (registerLocation general).write size value

def controlFor? (id : UInt16) : Execution σ (Option ControlRegister) :=
  observe fun machine => ControlRegister.forModel? id machine.model

/-- The general and the control register that the extension word of MOVEC
names.  If the model lacks the control register, the instruction is illegal and
the program counter is back at the opcode word. -/
def fetchControl : Execution σ (Register × ControlRegister) := do
  let extension ← fetchWord
  match ← controlFor? (extension &&& 0xFFF) with
  | some control => return (.ofIndex (extension >>> 12).toNat, control)
  | none =>
      setPc ((← pc) - 4)
      throw .illegalInstruction

/-- What a control register keeps of a value. -/
def controlValue (control : ControlRegister) (value : UInt32) : UInt32 :=
  if control.keepsThreeBits then value &&& 7 else value

/-- Moves a general register to a control register.  The stack pointer in use is
saved before and loaded after, so that the banked stack pointers can be
written. -/
def movecStore : Execution σ Unit := do
  let (general, register) ← fetchControl
  let value ← Execution.register general
  update (·.saveStackPointer)
  setControl register (controlValue register value)
  update (·.loadStackPointer)

/-- Moves a control register to a general register.  The stack pointer in use is
saved before, so that its bank is current. -/
def movecLoad : Execution σ Unit := do
  let (general, register) ← fetchControl
  update (·.saveStackPointer)
  setRegister general (← control register)

def moveToUsp (source : Fin 8) : Execution σ Unit := do
  setBanked .user (← register (.address source))

def moveFromUsp (destination : Fin 8) : Execution σ Unit := do
  setRegister (.address destination) (← banked .user)

end M68k.Execution

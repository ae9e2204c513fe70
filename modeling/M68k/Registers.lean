import M68k.ControlRegister
import M68k.Word

/-!
# The register file

Eight data and eight address registers, the program counter, and the registers
that only control instructions name.  The last address register is the stack
pointer in use; the copy of it among the three banked stack pointers is stale
until it is saved there.
-/

namespace M68k

inductive Register where
  | data (number : Fin 8)
  | address (number : Fin 8)
deriving DecidableEq, Repr, Inhabited

namespace Register

/-- The register with a four-bit index: data registers first, then address
registers. -/
def ofIndex (index : Nat) : Register :=
  if index % 16 < 8 then .data (Fin.ofNat 8 index)
  else .address (Fin.ofNat 8 index)

/-- The four-bit index of a register. -/
def index : Register → Nat
  | .data number => number.val
  | .address number => 8 + number.val

theorem ofIndex_index (register : Register) :
    ofIndex register.index = register := by
  cases register with
  | data number => revert number; decide
  | address number => revert number; decide

theorem index_lt (register : Register) : register.index < 16 := by
  cases register <;> simp only [index] <;> omega

theorem index_ofIndex {index : Nat} (small : index < 16) :
    (ofIndex index).index = index := by
  rw [ofIndex]
  split
  · exact Nat.mod_eq_of_lt (by omega)
  · show 8 + index % 8 = index
    omega

/-- The address register that is the stack pointer. -/
def stackPointer : Register := .address 7

end Register

inductive StackBank where
  | user
  | interrupt
  | master
deriving DecidableEq, Repr, Inhabited

structure Registers where
  data : Vector UInt32 8 := Vector.replicate 8 0
  address : Vector UInt32 8 := Vector.replicate 8 0
  pc : UInt32 := 0
  usp : UInt32 := 0
  isp : UInt32 := 0
  msp : UInt32 := 0
  sfc : UInt32 := 0
  dfc : UInt32 := 0
  vbr : UInt32 := 0
  cacr : UInt32 := 0
  caar : UInt32 := 0
  tc : UInt32 := 0
  itt0 : UInt32 := 0
  itt1 : UInt32 := 0
  dtt0 : UInt32 := 0
  dtt1 : UInt32 := 0
  mmusr : UInt32 := 0
  urp : UInt32 := 0
  srp : UInt32 := 0
deriving DecidableEq, Repr, Inhabited

namespace Registers

def get (registers : Registers) : Register → UInt32
  | .data number => registers.data[number]
  | .address number => registers.address[number]

def set (registers : Registers) (register : Register) (value : UInt32) :
    Registers :=
  match register with
  | .data number =>
      { registers with data := registers.data.set number value }
  | .address number =>
      { registers with address := registers.address.set number value }

@[simp]
theorem get_set_self (registers : Registers) (register : Register)
    (value : UInt32) :
    (registers.set register value).get register = value := by
  cases register <;> simp [set, get]

@[simp]
theorem set_get_self (registers : Registers) (register : Register) :
    registers.set register (registers.get register) = registers := by
  cases register <;> simp [set, get]

theorem get_set_of_ne (registers : Registers) {written other : Register}
    (value : UInt32) (different : other ≠ written) :
    (registers.set written value).get other = registers.get other := by
  cases written <;> cases other <;> simp only [set, get]
  all_goals
    simp only [Fin.getElem_fin]
    rw [Vector.getElem_set_ne]
    intro same
    exact different (by simp [Fin.ext_iff, same])

/-- The stack pointer in use. -/
def stackPointer (registers : Registers) : UInt32 :=
  registers.get .stackPointer

def setStackPointer (registers : Registers) (value : UInt32) : Registers :=
  registers.set .stackPointer value

def banked (registers : Registers) : StackBank → UInt32
  | .user => registers.usp
  | .interrupt => registers.isp
  | .master => registers.msp

def setBanked (registers : Registers) (bank : StackBank) (value : UInt32) :
    Registers :=
  match bank with
  | .user => { registers with usp := value }
  | .interrupt => { registers with isp := value }
  | .master => { registers with msp := value }

@[simp]
theorem banked_setBanked_self (registers : Registers) (bank : StackBank)
    (value : UInt32) : (registers.setBanked bank value).banked bank = value := by
  cases bank <;> rfl

/-- The value of a control register.  Stack pointers are the saved copies. -/
def control (registers : Registers) : ControlRegister → UInt32
  | .sfc => registers.sfc
  | .dfc => registers.dfc
  | .cacr => registers.cacr
  | .tc => registers.tc
  | .itt0 => registers.itt0
  | .itt1 => registers.itt1
  | .dtt0 => registers.dtt0
  | .dtt1 => registers.dtt1
  | .usp => registers.usp
  | .vbr => registers.vbr
  | .caar => registers.caar
  | .msp => registers.msp
  | .isp => registers.isp
  | .mmusr => registers.mmusr
  | .urp => registers.urp
  | .srp => registers.srp

def setControl (registers : Registers) (register : ControlRegister)
    (value : UInt32) : Registers :=
  match register with
  | .sfc => { registers with sfc := value }
  | .dfc => { registers with dfc := value }
  | .cacr => { registers with cacr := value }
  | .tc => { registers with tc := value }
  | .itt0 => { registers with itt0 := value }
  | .itt1 => { registers with itt1 := value }
  | .dtt0 => { registers with dtt0 := value }
  | .dtt1 => { registers with dtt1 := value }
  | .usp => { registers with usp := value }
  | .vbr => { registers with vbr := value }
  | .caar => { registers with caar := value }
  | .msp => { registers with msp := value }
  | .isp => { registers with isp := value }
  | .mmusr => { registers with mmusr := value }
  | .urp => { registers with urp := value }
  | .srp => { registers with srp := value }

end Registers

end M68k

import M68k.Model

/-!
# Control registers

The sixteen registers that MOVEC reaches by a twelve-bit number.  Each says on
which models it exists and whether only its low three bits are kept.
-/

namespace M68k

/-- A register that MOVEC can name. -/
inductive ControlRegister where
  /-- Source function code. -/
  | sfc
  /-- Destination function code. -/
  | dfc
  /-- Cache control. -/
  | cacr
  /-- Translation control. -/
  | tc
  /-- Transparent translation of instruction accesses. -/
  | itt0
  | itt1
  /-- Transparent translation of data accesses. -/
  | dtt0
  | dtt1
  /-- User stack pointer. -/
  | usp
  /-- Vector base. -/
  | vbr
  /-- Cache address. -/
  | caar
  /-- Master stack pointer. -/
  | msp
  /-- Interrupt stack pointer. -/
  | isp
  /-- Memory management status. -/
  | mmusr
  /-- User root pointer. -/
  | urp
  /-- Supervisor root pointer. -/
  | srp
deriving DecidableEq, Repr, Inhabited

namespace ControlRegister

/-- The register with a number, whatever the model. -/
def ofId? : UInt16 → Option ControlRegister
  | 0x000 => some sfc
  | 0x001 => some dfc
  | 0x002 => some cacr
  | 0x003 => some tc
  | 0x004 => some itt0
  | 0x005 => some itt1
  | 0x006 => some dtt0
  | 0x007 => some dtt1
  | 0x800 => some usp
  | 0x801 => some vbr
  | 0x802 => some caar
  | 0x803 => some msp
  | 0x804 => some isp
  | 0x805 => some mmusr
  | 0x806 => some urp
  | 0x807 => some srp
  | _ => none

/-- The first model with the register.  The user stack pointer and the vector
base have no floor beyond that of MOVEC itself. -/
def since : ControlRegister → Model
  | usp | vbr => .mc68000
  | sfc | dfc => .mc68010
  | cacr | caar | msp | isp => .mc68020
  | tc | itt0 | itt1 | dtt0 | dtt1 | mmusr | urp | srp => .mc68040

/-- The first model that no longer has the register. -/
def removedIn? : ControlRegister → Option Model
  | caar => some .mc68040
  | _ => none

/-- Whether only the low three bits are kept, as in the function codes. -/
def keepsThreeBits : ControlRegister → Bool
  | sfc | dfc => true
  | _ => false

def existsOn (register : ControlRegister) (model : Model) : Bool :=
  register.since ≤ model && register.removedIn?.all (model < ·)

def forModel? (id : UInt16) (model : Model) : Option ControlRegister :=
  (ofId? id).filter (·.existsOn model)

end ControlRegister

end M68k

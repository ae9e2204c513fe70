/-!
# Addressing modes

The twelve ways in which an opcode names an operand by a mode field and a
register field of three bits each, and the classes of modes in terms of which
the instruction set says what it accepts.
-/

namespace M68k

/-- How an operand is found. -/
inductive AddressingMode where
  /-- `Dn` -/
  | dataRegister (number : Fin 8)
  /-- `An` -/
  | addressRegister (number : Fin 8)
  /-- `(An)` -/
  | indirect (number : Fin 8)
  /-- `(An)+` -/
  | postincrement (number : Fin 8)
  /-- `-(An)` -/
  | predecrement (number : Fin 8)
  /-- `(d16,An)` -/
  | displacement (number : Fin 8)
  /-- `(d8,An,Xn)` and the full extension formats -/
  | indexed (number : Fin 8)
  /-- `(xxx).W` -/
  | absoluteShort
  /-- `(xxx).L` -/
  | absoluteLong
  /-- `(d16,PC)` -/
  | pcDisplacement
  /-- `(d8,PC,Xn)` and the full extension formats -/
  | pcIndexed
  /-- `#imm` -/
  | immediate
deriving DecidableEq, Repr, Inhabited

namespace AddressingMode

/-- The mode with the given fields, if there is one. -/
def ofFields? (mode register : Fin 8) : Option AddressingMode :=
  match mode with
  | 0 => some (dataRegister register)
  | 1 => some (addressRegister register)
  | 2 => some (indirect register)
  | 3 => some (postincrement register)
  | 4 => some (predecrement register)
  | 5 => some (displacement register)
  | 6 => some (indexed register)
  | 7 =>
      match register with
      | 0 => some absoluteShort
      | 1 => some absoluteLong
      | 2 => some pcDisplacement
      | 3 => some pcIndexed
      | 4 => some immediate
      | _ => none

/-- Modes of data operands: all but address registers. -/
def isData : AddressingMode → Bool
  | addressRegister _ => false
  | _ => true

/-- Modes of operands that are not in a register. -/
def isMemory : AddressingMode → Bool
  | dataRegister _ | addressRegister _ => false
  | _ => true

/-- Modes that give an address and have no other effect. -/
def isControl : AddressingMode → Bool
  | indirect _ | displacement _ | indexed _ | absoluteShort | absoluteLong
  | pcDisplacement | pcIndexed => true
  | _ => false

def isAlterable : AddressingMode → Bool
  | pcDisplacement | pcIndexed | immediate => false
  | _ => true

def isDataAlterable (mode : AddressingMode) : Bool :=
  mode.isData && mode.isAlterable

def isMemoryAlterable (mode : AddressingMode) : Bool :=
  mode.isMemory && mode.isAlterable

def isControlAlterable (mode : AddressingMode) : Bool :=
  mode.isControl && mode.isAlterable

def isPcRelative : AddressingMode → Bool
  | pcDisplacement | pcIndexed => true
  | _ => false

def isRegister (mode : AddressingMode) : Bool :=
  !mode.isMemory

def isAddressRegister (mode : AddressingMode) : Bool :=
  !mode.isData

def isPredecrement : AddressingMode → Bool
  | predecrement _ => true
  | _ => false

def isPostincrement : AddressingMode → Bool
  | postincrement _ => true
  | _ => false

end AddressingMode

end M68k

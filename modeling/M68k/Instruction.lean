import M68k.AddressingMode
import M68k.Condition
import M68k.Model
import M68k.OperandSize
import M68k.Registers

/-!
# Instructions

An instruction with everything that its opcode word says about it; extension
words are read when it executes.

Most instructions are *data instructions*: they fetch a source, fetch a
destination, compute a result, write it back and set the condition codes.  The
others control the flow, move registers or act on the system.
-/

namespace M68k

/-- Shifts and rotates by one or more places. -/
inductive Shift where
  | asl
  | asr
  | lsl
  | lsr
  | roxl
  | roxr
  | rol
  | ror
deriving DecidableEq, Repr, Inhabited

/-- What is done to the tested bit of an operand. -/
inductive BitOperation where
  | keep
  | change
  | clear
  | set
deriving DecidableEq, Repr, Inhabited

/-- Bitwise operations on the status register. -/
inductive StatusOperation where
  | or
  | and
  | eor
deriving DecidableEq, Repr, Inhabited

inductive DataOperation where
  | or
  | and
  | eor
  | not
  | clr
  | move
  | tst
  | tas
  | swap
  /-- Sign extension of a byte to a word. -/
  | extWord
  /-- Sign extension of a word to a long. -/
  | extLong
  /-- Sign extension of a byte to a long. -/
  | extByte
  | add
  | sub
  | cmp
  | addx
  | subx
  | neg
  | negx
  | abcd
  | sbcd
  | nbcd
  | bit (operation : BitOperation)
  | mulu
  | muls
  | divu
  | divs
  | shift (operation : Shift)
  | chk
  | scc (condition : Condition)
  | moveFromSr
  | moveFromCcr
deriving DecidableEq, Repr, Inhabited

/-- Where a data instruction takes its source from. -/
inductive Source where
  | none
  /-- A value in the opcode word. -/
  | constant (value : UInt32)
  /-- A whole data register. -/
  | dataRegister (number : Fin 8)
  /-- The next word of the instruction. -/
  | extensionWord
  /-- An operand of the instruction's size. -/
  | operand (mode : AddressingMode)
deriving DecidableEq, Repr, Inhabited

/-- What a data instruction operates on, and where its result goes. -/
inductive Destination where
  | none
  /-- An operand that is read and may be written back. -/
  | operand (mode : AddressingMode)
  /-- An operand that is only written. -/
  | store (mode : AddressingMode)
  /-- A whole data register, of which the operand size is written back. -/
  | dataRegister (number : Fin 8)
  /-- A whole address register; the source is sign-extended to a long. -/
  | addressRegister (number : Fin 8)
deriving DecidableEq, Repr, Inhabited

/-- An instruction that computes one result from a source and a destination. -/
structure DataInstruction where
  operation : DataOperation
  size : OperandSize
  source : Source
  destination : Destination
deriving DecidableEq, Repr, Inhabited

inductive Instruction where
  | data (instruction : DataInstruction)
  /-- Immediate operations on the condition codes. -/
  | logicToCcr (operation : StatusOperation)
  /-- Immediate operations on the status word. -/
  | logicToSr (operation : StatusOperation)
  | moveToCcr (source : AddressingMode)
  | moveToSr (source : AddressingMode)
  | moveToUsp (source : Fin 8)
  | moveFromUsp (destination : Fin 8)
  | lea (address : AddressingMode) (destination : Fin 8)
  | pea (address : AddressingMode)
  | exg (first second : Register)
  /-- A register list to memory. -/
  | movemStore (size : OperandSize) (mode : AddressingMode)
  /-- A register list from memory. -/
  | movemLoad (size : OperandSize) (mode : AddressingMode)
  /-- A data register to alternate bytes. -/
  | movepStore (size : OperandSize) (data address : Fin 8)
  /-- A data register from alternate bytes. -/
  | movepLoad (size : OperandSize) (data address : Fin 8)
  | moves (size : OperandSize) (mode : AddressingMode)
  /-- A general register to a control register. -/
  | movecStore
  /-- A general register from a control register. -/
  | movecLoad
  | mull (mode : AddressingMode)
  | divl (mode : AddressingMode)
  | link (register : Fin 8)
  /-- LINK with a long displacement. -/
  | linkLong (register : Fin 8)
  | unlk (register : Fin 8)
  | bcc (condition : Condition) (displacement : UInt8)
  | bsr (displacement : UInt8)
  | dbcc (condition : Condition) (counter : Fin 8)
  | jmp (target : AddressingMode)
  | jsr (target : AddressingMode)
  | rts
  | rtr
  | rtd
  | rte
  | trap (number : Fin 16)
  | trapv
  /-- TRAPcc followed by a number of operand words. -/
  | trapcc (condition : Condition) (operandWords : Nat)
  | bkpt (vector : Fin 8)
  | stop
  | reset
  | nop
  | illegal
  | lineA
  | lineF
deriving DecidableEq, Repr, Inhabited

namespace DataOperation

def writes : DataOperation → Bool
  | tst | cmp | chk | bit .keep => false
  | _ => true

end DataOperation

namespace DataInstruction

/-- The first model with the instruction: some sign extensions, bounds and
operand modes came later than the operation itself. -/
def since (instruction : DataInstruction) : Model :=
  match instruction.operation with
  | .extByte => .mc68020
  | .moveFromCcr => .mc68010
  | .chk => if instruction.size = .long then .mc68020 else .mc68000
  | .cmp =>
      match instruction.destination with
      | .operand mode => if mode.isPcRelative then .mc68020 else .mc68000
      | _ => .mc68000
  | .tst =>
      match instruction.source with
      | .operand mode =>
          if mode.isDataAlterable then .mc68000 else .mc68020
      | _ => .mc68000
  | _ => .mc68000

end DataInstruction

namespace Instruction

def since : Instruction → Model
  | data instruction => instruction.since
  | moves _ _ | movecStore | movecLoad | rtd | bkpt _ => .mc68010
  | linkLong _ | mull _ | divl _ | trapcc _ _ => .mc68020
  | _ => .mc68000

/-- The first model on which the instruction is reserved to supervisor mode. -/
def privilegedSince? : Instruction → Option Model
  | data instruction =>
      if instruction.operation = .moveFromSr then some .mc68010 else none
  | logicToSr _ | moveToSr _ | moveToUsp _ | moveFromUsp _ | moves _ _
  | movecStore | movecLoad | rte | stop | reset => some .mc68000
  | _ => none

def isPrivilegedOn (instruction : Instruction) (model : Model) : Bool :=
  instruction.privilegedSince?.any (· ≤ model)

end Instruction

end M68k

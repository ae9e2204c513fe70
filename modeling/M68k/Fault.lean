/-!
# Faults and exception vectors

Everything that can end an instruction other than normal completion.  All but
the breakpoint are delivered as exceptions: a fault names its vector, the layout
of its stack frame and whether the stacked program counter leads back to the
instruction.
-/

namespace M68k

/-- The reason why an instruction did not complete. -/
inductive Fault where
  | busError
  | addressError
  | illegalInstruction
  | privilegeViolation
  /-- A checked value is outside of its bounds. -/
  | boundsCheck
  | divisionByZero
  /-- TRAPV or TRAPcc found its condition true. -/
  | conditionalTrap
  /-- The frame under RTE has an unknown format. -/
  | formatError
  | lineA
  | lineF
  /-- A breakpoint has put its substitute in place of the opcode. -/
  | breakpoint
  /-- TRAP with its number. -/
  | trap (number : UInt8)
deriving DecidableEq, Repr, Inhabited

inductive FrameFormat where
  /-- Status word, program counter, format word. -/
  | short
  /-- The same, then the address of the instruction. -/
  | sixWord
deriving DecidableEq, Repr, Inhabited

def traceVector : UInt8 := 9

/-- The number below that of the interrupt at level one. -/
def autovectorBase : UInt8 := 24

/-- The number of the exception of TRAP #0. -/
def trapVectorBase : UInt8 := 32

/-- The distance of a vector's table entry from the vector base. -/
def vectorTableOffset (vector : UInt8) : UInt16 :=
  vector.toUInt16 * 4

namespace Fault

/-- The exception vector; a breakpoint has none. -/
def vector? : Fault → Option UInt8
  | busError => some 2
  | addressError => some 3
  | illegalInstruction => some 4
  | divisionByZero => some 5
  | boundsCheck => some 6
  | conditionalTrap => some 7
  | privilegeViolation => some 8
  | lineA => some 10
  | lineF => some 11
  | formatError => some 14
  | trap number => some (trapVectorBase + (number &&& 0xF))
  | breakpoint => none

def vectorOffset? (fault : Fault) : Option UInt16 :=
  fault.vector?.map vectorTableOffset

/-- Traps that come with the completion of an instruction stack its address
too. -/
def frameFormat : Fault → FrameFormat
  | boundsCheck | divisionByZero | conditionalTrap => .sixWord
  | _ => .short

/-- Whether the stacked program counter is the address of the instruction, and
not the one after it. -/
def restartsInstruction : Fault → Bool
  | boundsCheck | divisionByZero | conditionalTrap | trap _
  | breakpoint => false
  | _ => true

def message : Fault → String
  | busError => "bus error"
  | addressError => "address error"
  | illegalInstruction => "illegal instruction"
  | privilegeViolation => "privilege violation"
  | boundsCheck => "CHK out of bounds"
  | divisionByZero => "integer divide by zero"
  | conditionalTrap => "TRAPV / TRAPcc taken"
  | formatError => "RTE stack frame format error"
  | lineA => "line 1010 emulator"
  | lineF => "line 1111 emulator"
  | breakpoint => "breakpoint"
  | trap number => "TRAP #" ++ toString number.toNat

end Fault

end M68k

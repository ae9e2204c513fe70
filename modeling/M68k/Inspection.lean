import M68k.Emulator

/-!
# Inspection

Debuggers ask for the parts of an emulator by path, such as `d0`, `sr` or
`flags.z`.  A probe is a part that can be asked for, and has one path.
-/

namespace M68k

/-- A value shown to a debugger. -/
inductive Value where
  | bool (value : Bool)
  | byte (value : UInt8)
  | word (value : UInt16)
  | long (value : UInt32)
  | count (value : UInt64)
  | text (value : String)
deriving DecidableEq, Repr

namespace Value

def hexDigit (digit : Nat) : Char :=
  if digit < 10 then Char.ofNat ('0'.toNat + digit)
  else Char.ofNat ('A'.toNat + (digit - 10))

/-- The last digits of a number in hexadecimal. -/
def hexDigits : (digits : Nat) → (value : Nat) → List Char
  | 0, _ => []
  | digits + 1, value =>
      hexDigits digits (value / 16) ++ [hexDigit (value % 16)]

/-- A number in hexadecimal with a fixed number of digits. -/
def hexadecimal (count value : Nat) : String :=
  "0x" ++ String.ofList (hexDigits count value)

/-- The text of a value.  Bytes, words and longs are shown in hexadecimal with
all their digits, counts in decimal. -/
def display : Value → String
  | bool true => "true"
  | bool false => "false"
  | byte value => hexadecimal 2 value.toNat
  | word value => hexadecimal 4 value.toNat
  | long value => hexadecimal 8 value.toNat
  | count value => toString value.toNat
  | text value => value

end Value

def RunCondition.name : RunCondition → String
  | startup => "Startup"
  | running => "Running"
  | halted => "Halted"
  | stopped => "Stopped"
  | finished => "Finished"

/-- A part of an emulator that can be asked for. -/
inductive Probe where
  | general (register : Register)
  | stack (bank : StackBank)
  | vbr
  | sfc
  | dfc
  | cacr
  | pc
  | sr
  | ccr
  | extend
  | negative
  | zero
  | overflow
  | carry
  | condition
  | opcode
  | instructions
deriving DecidableEq, Repr

namespace Probe

def path : Probe → String
  | general (.data number) => "d" ++ toString number.val
  | general (.address number) => "a" ++ toString number.val
  | stack .user => "usp"
  | stack .interrupt => "isp"
  | stack .master => "msp"
  | vbr => "vbr"
  | sfc => "sfc"
  | dfc => "dfc"
  | cacr => "cacr"
  | pc => "pc"
  | sr => "sr"
  | ccr => "ccr"
  | extend => "flags.x"
  | negative => "flags.n"
  | zero => "flags.z"
  | overflow => "flags.v"
  | carry => "flags.c"
  | condition => "condition"
  | opcode => "opcode"
  | instructions => "instructions"

/-- Every probe, in the order in which the paths are listed. -/
def all : List Probe :=
  (List.range 16).map (fun index => general (.ofIndex index)) ++
    [stack .user, stack .interrupt, stack .master, vbr, sfc, dfc, cacr, pc, sr,
      ccr, extend, negative, zero, overflow, carry, condition, opcode,
      instructions]

/-- The number of a register by its one digit. -/
def registerNumber? : List Char → Option (Fin 8)
  | [digit] =>
      if '0' ≤ digit ∧ digit ≤ '7' then
        some (Fin.ofNat 8 (digit.toNat - '0'.toNat))
      else none
  | _ => none

/-- The general register that a path names by a letter and a number. -/
def registerOfPath? (path : String) : Option Register :=
  match path.toList with
  | 'd' :: number => (registerNumber? number).map .data
  | 'a' :: number => (registerNumber? number).map .address
  | _ => none

/-- The probe that is known by a name and not by a number. -/
def ofName? : String → Option Probe
  | "usp" => some (stack .user)
  | "isp" => some (stack .interrupt)
  | "msp" => some (stack .master)
  | "vbr" => some vbr
  | "sfc" => some sfc
  | "dfc" => some dfc
  | "cacr" => some cacr
  | "pc" => some pc
  | "sr" => some sr
  | "ccr" => some ccr
  | "flags.x" => some extend
  | "flags.n" => some negative
  | "flags.z" => some zero
  | "flags.v" => some overflow
  | "flags.c" => some carry
  | "condition" => some condition
  | "opcode" => some opcode
  | "instructions" => some instructions
  | _ => none

/-- The probe of a path.  Numbered registers are looked for first; a path that
only begins like one may still be a name. -/
def ofPath? (path : String) : Option Probe :=
  match registerOfPath? path with
  | some register => some (general register)
  | none => ofName? path

end Probe

/-- Whether a bank is the one that the supervisor and master bits select. -/
def StackBank.isSelected (bank : StackBank) (status : StatusRegister) : Bool :=
  match bank with
  | user => !status.supervisor
  | interrupt => status.supervisor && !status.master
  | master => status.supervisor && status.master

namespace Machine

variable {σ : Type} (machine : Machine σ)

/-- The current value of a stack pointer, wherever it is. -/
def logicalStackPointer (bank : StackBank) : UInt32 :=
  if bank.isSelected machine.status then machine.registers.stackPointer
  else machine.registers.banked bank

end Machine

namespace Emulator

variable {σ : Type} (emulator : Emulator σ)

def inspect (probe : Probe) : Value :=
  let machine := emulator.machine
  let flag (mask : UInt8) :=
    Value.bool (machine.status.codes.toByte &&& mask != 0)
  match probe with
  | .general register => .long (machine.registers.get register)
  | .stack bank => .long (machine.logicalStackPointer bank)
  | .vbr => .long machine.registers.vbr
  | .sfc => .long machine.registers.sfc
  | .dfc => .long machine.registers.dfc
  | .cacr => .long machine.registers.cacr
  | .pc => .long machine.registers.pc
  | .sr => .word machine.status.toWord
  | .ccr => .byte machine.status.codes.toByte
  | .extend => flag 0x10
  | .negative => flag Flag.negative
  | .zero => flag Flag.zero
  | .overflow => flag Flag.overflow
  | .carry => flag Flag.carry
  | .condition => .text machine.condition.name
  | .opcode => .word machine.opcode
  | .instructions => .count emulator.retired

/-- The value at a path, if it is the path of a probe. -/
def query (path : String) : Option Value :=
  (Probe.ofPath? path).map emulator.inspect

def queryPaths : List String :=
  Probe.all.map Probe.path

end Emulator

end M68k

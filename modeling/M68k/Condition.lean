import M68k.StatusRegister

/-!
# Condition codes

The sixteen tests that branches, conditional traps and conditional sets make on
the N, Z, V and C flags.
-/

namespace M68k

/-- A test on the condition flags, in the order of its four-bit code. -/
inductive Condition where
  | always
  | never
  | higher
  | lowerOrSame
  | carryClear
  | carrySet
  | notEqual
  | equal
  | overflowClear
  | overflowSet
  | plus
  | minus
  | greaterOrEqual
  | lessThan
  | greaterThan
  | lessOrEqual
deriving DecidableEq, Repr, Inhabited

namespace Condition

/-- The condition named by the four low bits of a code. -/
def ofCode (code : UInt8) : Condition :=
  match code.toNat % 16 with
  | 0x0 => always
  | 0x1 => never
  | 0x2 => higher
  | 0x3 => lowerOrSame
  | 0x4 => carryClear
  | 0x5 => carrySet
  | 0x6 => notEqual
  | 0x7 => equal
  | 0x8 => overflowClear
  | 0x9 => overflowSet
  | 0xA => plus
  | 0xB => minus
  | 0xC => greaterOrEqual
  | 0xD => lessThan
  | 0xE => greaterThan
  | _ => lessOrEqual

/-- Whether the condition holds of the N Z V C nibble. -/
def holds (condition : Condition) (flags : UInt8) : Bool :=
  let negative := flags &&& Flag.negative != 0
  let zero := flags &&& Flag.zero != 0
  let overflow := flags &&& Flag.overflow != 0
  let carry := flags &&& Flag.carry != 0
  match condition with
  | always => true
  | never => false
  | higher => !carry && !zero
  | lowerOrSame => carry || zero
  | carryClear => !carry
  | carrySet => carry
  | notEqual => !zero
  | equal => zero
  | overflowClear => !overflow
  | overflowSet => overflow
  | plus => !negative
  | minus => negative
  | greaterOrEqual => negative == overflow
  | lessThan => negative != overflow
  | greaterThan => !zero && negative == overflow
  | lessOrEqual => zero || negative != overflow

end Condition

end M68k

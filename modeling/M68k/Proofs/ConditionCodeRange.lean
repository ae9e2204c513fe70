import M68k.Alu.Computation

/-!
# The range of condition codes

The extend flag is a bit and the other flags are a nibble.  Every flag rule and
every computation keeps them so, and no computation ends with a breakpoint.
-/

namespace M68k

namespace ConditionCodes

variable {codes : ConditionCodes}

/-- The flags fit in the bits that the status word has for them. -/
structure InRange (codes : ConditionCodes) : Prop where
  extend : codes.extend ≤ 1
  flags : codes.flags ≤ 0xF

theorem inRange_ofByte (byte : UInt8) : (ofByte byte).InRange where
  extend := by
    rw [UInt8.le_iff_toNat_le, ofByte, UInt8.toNat_and]
    exact Nat.and_le_right
  flags := by
    rw [UInt8.le_iff_toNat_le, ofByte, UInt8.toNat_and]
    exact Nat.and_le_right

theorem InRange.setFlag (inRange : codes.InRange) {flag : UInt8}
    (nibble : flag ≤ 0xF) (on : Bool) : (codes.setFlag flag on).InRange := by
  refine ⟨inRange.extend, ?_⟩
  have flagsBound : codes.flags.toNat < 2 ^ 4 :=
    Nat.lt_succ_of_le (UInt8.le_iff_toNat_le.mp inRange.flags)
  have flagBound : flag.toNat < 2 ^ 4 :=
    Nat.lt_succ_of_le (UInt8.le_iff_toNat_le.mp nibble)
  apply UInt8.le_iff_toNat_le.mpr
  cases on with
  | true =>
      have both := Nat.or_lt_two_pow flagsBound flagBound
      simp only [ConditionCodes.setFlag, if_true, UInt8.toNat_or]
      exact Nat.le_of_lt_succ both
  | false =>
      simp only [ConditionCodes.setFlag, Bool.false_eq_true, if_false,
        UInt8.toNat_and]
      exact Nat.le_trans Nat.and_le_left (Nat.le_of_lt_succ flagsBound)

theorem InRange.setCarryAndExtend (inRange : codes.InRange) (carry : Bool) :
    (codes.setCarryAndExtend carry).InRange := by
  refine ⟨?_, (inRange.setFlag (by decide) carry).flags⟩
  cases carry <;> simp [ConditionCodes.setCarryAndExtend]

theorem InRange.setLogic (inRange : codes.InRange) (negative zero : Bool) :
    (codes.setLogic negative zero).InRange :=
  (((inRange.setFlag (by decide) _).setFlag (by decide) _).setFlag
    (by decide) _).setFlag (by decide) _

theorem InRange.clearZeroIf (inRange : codes.InRange) (nonzero : Bool) :
    (codes.clearZeroIf nonzero).InRange := by
  cases nonzero with
  | true => exact inRange.setFlag (by decide) false
  | false => exact inRange

end ConditionCodes

theorem FlagRule.inRange_apply {codes : ConditionCodes}
    (inRange : codes.InRange) (rule : FlagRule) (size : OperandSize)
    (source destination result : UInt32) :
    (rule.apply size source destination result codes).InRange := by
  have signed := inRange.setFlag (show Flag.negative ≤ 0xF by decide)
    (signsOf size source destination result).result
  cases rule with
  | keep => exact inRange
  | logic => exact inRange.setLogic _ _
  | add | sub =>
      exact ((signed.setFlag (by decide) _).setFlag (by decide)
        _).setCarryAndExtend _
  | addExtended | subExtended =>
      exact ((signed.clearZeroIf _).setFlag (by decide) _).setCarryAndExtend _
  | compare =>
      exact ((signed.setFlag (by decide) _).setFlag (by decide) _).setFlag
        (by decide) _
  | quotient => exact inRange.setLogic _ _
  | bitTest => exact inRange.setFlag (by decide) _

theorem Shift.inRange_codes {codes : ConditionCodes}
    (inRange : codes.InRange) (shift : Shift) (count : Nat) {width : Nat}
    (outcome : Outcome width) :
    (shift.codes count outcome codes).InRange := by
  have signed := ((inRange.setFlag (show Flag.negative ≤ 0xF by decide)
    outcome.value.msb).setFlag (show Flag.zero ≤ 0xF by decide)
      (outcome.value == 0)).setFlag (show Flag.overflow ≤ 0xF by decide)
        outcome.overflow
  rw [Shift.codes]
  split
  · exact signed.setCarryAndExtend _
  · exact signed.setFlag (by decide) _

theorem Decimal.Outcome.inRange_codes {codes : ConditionCodes}
    (inRange : codes.InRange) (outcome : Decimal.Outcome) :
    (outcome.codes codes).InRange :=
  (((inRange.setCarryAndExtend _).clearZeroIf _).setFlag (by decide)
    _).setFlag (by decide) _

namespace Computation

/-- The condition codes that a computation leaves fit in the status word. -/
def InRange : Computation → Prop
  | trap _ codes | result _ _ codes => codes.InRange
  | discard => True

end Computation

namespace DataOperation

theorem inRange_computeQuotient {codes : ConditionCodes}
    (inRange : codes.InRange) (reading : Signedness) (operands : Operands) :
    (computeQuotient reading codes operands).InRange := by
  simp only [computeQuotient]
  split
  · exact inRange
  · split
    · trivial
    · exact inRange

theorem inRange_computeCheck {codes : ConditionCodes}
    (inRange : codes.InRange) (size : OperandSize) (operands : Operands) :
    (computeCheck codes size operands).InRange := by
  simp only [computeCheck]
  split
  · exact inRange.setFlag (by decide) true
  · split
    · exact inRange.setFlag (by decide) false
    · trivial

/-- Condition codes stay in range through every computation. -/
theorem inRange_compute {status : StatusRegister}
    (inRange : status.codes.InRange) (operation : DataOperation)
    (size : OperandSize) (operands : Operands) :
    (operation.compute status size operands).InRange := by
  cases operation with
  | tas => exact inRange.setLogic _ _
  | abcd | sbcd | nbcd => exact Decimal.Outcome.inRange_codes inRange _
  | shift operation => exact Shift.inRange_codes inRange _ _ _
  | divu | divs => exact inRange_computeQuotient inRange _ _
  | chk => exact inRange_computeCheck inRange _ _
  | _ => exact inRange

/-- A computation traps on a zero divisor or a bound that is passed. -/
theorem fault_of_compute_eq_trap {operation : DataOperation}
    {status : StatusRegister} {size : OperandSize} {operands : Operands}
    {fault : Fault} {codes : ConditionCodes}
    (trapped : operation.compute status size operands = .trap fault codes) :
    fault = .divisionByZero ∨ fault = .boundsCheck := by
  cases operation with
  | divu | divs =>
      simp only [compute, computeQuotient] at trapped
      split at trapped
      · cases trapped
        exact .inl rfl
      · split at trapped <;> cases trapped
  | chk =>
      simp only [compute, computeCheck] at trapped
      split at trapped
      · cases trapped
        exact .inr rfl
      · split at trapped <;> cases trapped
        exact .inr rfl
  | _ => cases trapped

end DataOperation

end M68k

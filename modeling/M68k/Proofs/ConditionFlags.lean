import M68k.Proofs.ConditionCodeRange

/-!
# Condition codes by their flags

Setting a flag of the condition codes replaces its truth value and no other.
Condition codes in range are no more than five truth values, so every flag rule
can be read off.
-/

namespace M68k.ConditionCodes

/-- Whether a flag of the nibble is set. -/
def has (codes : ConditionCodes) (flag : UInt8) : Bool :=
  codes.flags &&& flag != 0

theorem has_setFlag_self (codes : ConditionCodes) {flag : UInt8}
    (single : flag ≠ 0) (on : Bool) :
    (codes.setFlag flag on).has flag = on := by
  cases on with
  | true =>
      have kept : (codes.flags ||| flag) &&& flag = flag := by
        apply UInt8.toBitVec_inj.mp
        ext place inside
        cases bit : flag.toBitVec[place] <;> simp [bit]
      simp [has, setFlag, kept, single]
  | false =>
      have cleared : codes.flags &&& ~~~flag &&& flag = 0 := by
        rw [UInt8.and_assoc, UInt8.not_and_self, UInt8.and_zero]
      simp [has, setFlag, cleared]

theorem has_setFlag_of_apart (codes : ConditionCodes) {flag other : UInt8}
    (apart : flag &&& other = 0) (on : Bool) :
    (codes.setFlag flag on).has other = codes.has other := by
  have bits (place : Nat) (inside : place < 8) :
      flag.toBitVec[place] = true → other.toBitVec[place] = false := by
    have bit := congrArg (·.toBitVec[place]) apart
    simpa using bit
  have same : (codes.setFlag flag on).flags &&& other =
      codes.flags &&& other := by
    apply UInt8.toBitVec_inj.mp
    ext place inside
    have bit := bits place inside
    cases on with
    | true =>
        simp only [setFlag, if_true, UInt8.toBitVec_and, UInt8.toBitVec_or,
          BitVec.getElem_and, BitVec.getElem_or]
        grind
    | false =>
        simp only [setFlag, Bool.false_eq_true, if_false, UInt8.toBitVec_and,
          UInt8.toBitVec_not, BitVec.getElem_and, BitVec.getElem_not]
        grind
  rw [has, has, same]

/-- The flags of the nibble are the given truth values. -/
structure Shows (codes : ConditionCodes)
    (negative zero overflow carry : Bool) : Prop where
  negative : codes.has Flag.negative = negative
  zero : codes.has Flag.zero = zero
  overflow : codes.has Flag.overflow = overflow
  carry : codes.has Flag.carry = carry

namespace Shows

variable {codes : ConditionCodes} {negative zero overflow carry : Bool}

theorem refl (codes : ConditionCodes) :
    codes.Shows (codes.has Flag.negative) (codes.has Flag.zero)
      (codes.has Flag.overflow) (codes.has Flag.carry) :=
  ⟨rfl, rfl, rfl, rfl⟩

variable (shows : codes.Shows negative zero overflow carry) (on : Bool)

include shows

theorem setNegative :
    (codes.setFlag Flag.negative on).Shows on zero overflow carry where
  negative := has_setFlag_self _ (by decide) on
  zero := (has_setFlag_of_apart _ (by decide) on).trans shows.zero
  overflow := (has_setFlag_of_apart _ (by decide) on).trans shows.overflow
  carry := (has_setFlag_of_apart _ (by decide) on).trans shows.carry

theorem setZero :
    (codes.setFlag Flag.zero on).Shows negative on overflow carry where
  negative := (has_setFlag_of_apart _ (by decide) on).trans shows.negative
  zero := has_setFlag_self _ (by decide) on
  overflow := (has_setFlag_of_apart _ (by decide) on).trans shows.overflow
  carry := (has_setFlag_of_apart _ (by decide) on).trans shows.carry

theorem setOverflow :
    (codes.setFlag Flag.overflow on).Shows negative zero on carry where
  negative := (has_setFlag_of_apart _ (by decide) on).trans shows.negative
  zero := (has_setFlag_of_apart _ (by decide) on).trans shows.zero
  overflow := has_setFlag_self _ (by decide) on
  carry := (has_setFlag_of_apart _ (by decide) on).trans shows.carry

theorem setCarry :
    (codes.setFlag Flag.carry on).Shows negative zero overflow on where
  negative := (has_setFlag_of_apart _ (by decide) on).trans shows.negative
  zero := (has_setFlag_of_apart _ (by decide) on).trans shows.zero
  overflow := (has_setFlag_of_apart _ (by decide) on).trans shows.overflow
  carry := has_setFlag_self _ (by decide) on

/-- The extend flag is none of the nibble. -/
theorem setCarryAndExtend :
    (codes.setCarryAndExtend on).Shows negative zero overflow on :=
  let set := shows.setCarry on
  ⟨set.negative, set.zero, set.overflow, set.carry⟩

end Shows

theorem shows_setLogic (codes : ConditionCodes) (negative zero : Bool) :
    (codes.setLogic negative zero).Shows negative zero false false :=
  ((((Shows.refl codes).setNegative negative).setZero zero).setOverflow
    false).setCarry false

/-- The condition codes with the given flags. -/
def ofFlags (extend negative zero overflow carry : Bool) : ConditionCodes where
  extend := if extend then 1 else 0
  flags :=
    (if negative then Flag.negative else 0) |||
      (if zero then Flag.zero else 0) |||
        (if overflow then Flag.overflow else 0) |||
          (if carry then Flag.carry else 0)

section

variable (extend negative zero overflow carry on : Bool)

@[simp]
theorem toNat_extend_ofFlags :
    (ofFlags extend negative zero overflow carry).extend.toNat =
      extend.toNat := by
  cases extend <;> rfl

@[simp]
theorem has_zero_ofFlags :
    (ofFlags extend negative zero overflow carry).has Flag.zero = zero := by
  revert extend negative zero overflow carry
  decide

@[simp]
theorem setFlag_negative_ofFlags :
    (ofFlags extend negative zero overflow carry).setFlag Flag.negative on =
      ofFlags extend on zero overflow carry := by
  revert extend negative zero overflow carry on
  decide

@[simp]
theorem setFlag_zero_ofFlags :
    (ofFlags extend negative zero overflow carry).setFlag Flag.zero on =
      ofFlags extend negative on overflow carry := by
  revert extend negative zero overflow carry on
  decide

@[simp]
theorem setFlag_overflow_ofFlags :
    (ofFlags extend negative zero overflow carry).setFlag Flag.overflow on =
      ofFlags extend negative zero on carry := by
  revert extend negative zero overflow carry on
  decide

@[simp]
theorem setFlag_carry_ofFlags :
    (ofFlags extend negative zero overflow carry).setFlag Flag.carry on =
      ofFlags extend negative zero overflow on := by
  revert extend negative zero overflow carry on
  decide

@[simp]
theorem setCarryAndExtend_ofFlags :
    (ofFlags extend negative zero overflow carry).setCarryAndExtend on =
      ofFlags on negative zero overflow on := by
  rw [setCarryAndExtend, setFlag_carry_ofFlags]
  rfl

@[simp]
theorem clearZeroIf_ofFlags :
    (ofFlags extend negative zero overflow carry).clearZeroIf on =
      ofFlags extend negative (zero && !on) overflow carry := by
  cases on
  · rw [Bool.not_false, Bool.and_true]
    rfl
  · rw [Bool.not_true, Bool.and_false]
    exact setFlag_zero_ofFlags _ _ _ _ _ false

theorem inRange_ofFlags :
    (ofFlags extend negative zero overflow carry).InRange := by
  constructor
  · revert extend negative zero overflow carry
    decide
  · revert extend negative zero overflow carry
    decide

end

/-- Codes in range have no more than their flags. -/
theorem InRange.exists_ofFlags {codes : ConditionCodes}
    (inRange : codes.InRange) :
    ∃ extend negative zero overflow carry,
      codes = ofFlags extend negative zero overflow carry := by
  have extends_ : ∀ bits < 2, ∃ extend : Bool,
      UInt8.ofNat bits = if extend then 1 else 0 := by decide
  have flags : ∀ bits < 16, ∃ negative zero overflow carry,
      UInt8.ofNat bits =
        (ofFlags false negative zero overflow carry).flags := by decide
  obtain ⟨extend, extendEq⟩ := extends_ codes.extend.toNat
    (Nat.lt_succ_of_le (UInt8.le_iff_toNat_le.mp inRange.extend))
  obtain ⟨negative, zero, overflow, carry, flagsEq⟩ := flags codes.flags.toNat
    (Nat.lt_succ_of_le (UInt8.le_iff_toNat_le.mp inRange.flags))
  rw [UInt8.ofNat_toNat] at extendEq flagsEq
  refine ⟨extend, negative, zero, overflow, carry, ?_⟩
  show (⟨codes.extend, codes.flags⟩ : ConditionCodes) = _
  rw [extendEq, flagsEq]
  rfl

end M68k.ConditionCodes

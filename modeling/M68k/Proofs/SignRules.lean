import M68k.Alu.Division
import M68k.Alu.FlagRule
import Mathlib.Algebra.Order.Ring.Int
import Mathlib.Data.Int.ModEq
import Mathlib.Data.Nat.Bitwise
import Mathlib.Tactic.Linarith
import Mathlib.Tactic.Ring

/-!
# Flag rules as arithmetic

An operand is a number below a power of two, and a reading gives the integer
that it stands for.  The carry and overflow rules look at sign bits only, yet
they tell whether the exact sum or difference can be stored: carry for the
unsigned reading, overflow for the signed one.
-/

namespace M68k

/-! ## Readings of numbers -/

namespace Signedness

/-- The integer that a number of some width stands for. -/
def read (reading : Signedness) (width number : Nat) : Int :=
  reading.integerOf (BitVec.ofNat width number)

/-- The least integer of a width. -/
def least : Signedness → Nat → Int
  | unsigned, _ => 0
  | signed, width => -(2 ^ (width - 1) : Nat)

theorem two_pow_eq_double {width : Nat} (positive : 0 < width) :
    2 ^ width = 2 * 2 ^ (width - 1) := by
  obtain ⟨place, rfl⟩ := Nat.exists_eq_add_of_lt positive
  simp [Nat.pow_succ, Nat.mul_comm]

/-- The integers of a width are as many as its numbers. -/
theorem fits_iff (reading : Signedness) {width : Nat} (positive : 0 < width)
    (value : Int) :
    reading.fits width value = true ↔
      reading.least width ≤ value ∧
        value < reading.least width + (2 ^ width : Nat) := by
  have double := two_pow_eq_double positive
  have halves : 0 < 2 ^ (width - 1) := Nat.two_pow_pos _
  simp only [fits, beq_iff_eq]
  cases reading with
  | unsigned =>
      simp only [integerOf, least, BitVec.toNat_ofInt, zero_add]
      have bounded : value % (2 ^ width : Nat) < (2 ^ width : Nat) :=
        Int.emod_lt_of_pos _ (by omega)
      have nonnegative : 0 ≤ value % (2 ^ width : Nat) :=
        Int.emod_nonneg _ (by omega)
      rw [Int.toNat_of_nonneg nonnegative]
      constructor
      · intro same
        omega
      · rintro ⟨lower, upper⟩
        exact Int.emod_eq_of_lt lower upper
  | signed =>
      simp only [integerOf, least, BitVec.toInt_ofInt]
      constructor
      · intro same
        have lower := Int.le_bmod (x := value) (m := 2 ^ width) (by omega)
        have upper := Int.bmod_lt (x := value) (m := 2 ^ width) (by omega)
        omega
      · rintro ⟨lower, upper⟩
        exact Int.bmod_eq_of_le (by omega) (by omega)

/-- An integer can be stored in a number of bits and read back. -/
def Represents (reading : Signedness) (width : Nat) (value : Int) : Prop :=
  reading.least width ≤ value ∧ value < reading.least width + (2 ^ width : Nat)

instance (reading : Signedness) (width : Nat) (value : Int) :
    Decidable (reading.Represents width value) :=
  inferInstanceAs (Decidable (_ ∧ _))

theorem represents_iff (reading : Signedness) {width : Nat}
    (positive : 0 < width) (value : Int) :
    reading.fits width value = true ↔ reading.Represents width value :=
  reading.fits_iff positive value

theorem not_fits_eq (reading : Signedness) {width : Nat}
    (positive : 0 < width) (value : Int) :
    (!reading.fits width value) = decide (¬reading.Represents width value) := by
  rw [Bool.eq_iff_iff, Bool.not_eq_true', decide_eq_true_eq,
    ← reading.represents_iff positive, Bool.not_eq_true]

/-- An integer that fits is what the numbers congruent to it stand for. -/
theorem read_eq_of_fits {reading : Signedness} {width number : Nat}
    {value : Int} (fits : reading.fits width value = true)
    (congruent : value ≡ number [ZMOD (2 ^ width : Nat)]) :
    reading.read width number = value := by
  have same : BitVec.ofInt width value = BitVec.ofNat width number := by
    apply BitVec.eq_of_toNat_eq
    rw [BitVec.toNat_ofInt, BitVec.toNat_ofNat, congruent]
    norm_cast
  rw [read, ← same]
  exact beq_iff_eq.mp fits

theorem fits_read (reading : Signedness) (width number : Nat) :
    reading.fits width (reading.read width number) = true := by
  rw [fits, read, beq_iff_eq]
  cases reading with
  | unsigned => simp only [integerOf, BitVec.ofInt_natCast,
      BitVec.ofNat_toNat, BitVec.setWidth_eq]
  | signed => simp only [integerOf, BitVec.ofInt_toInt]

theorem represents_read (reading : Signedness) {width : Nat}
    (positive : 0 < width) (number : Nat) :
    reading.Represents width (reading.read width number) :=
  (reading.represents_iff positive _).mp (reading.fits_read width number)

theorem read_modEq (reading : Signedness) (width number : Nat) :
    reading.read width number ≡ number [ZMOD (2 ^ width : Nat)] := by
  have reduced : ((BitVec.ofNat width number).toNat : Int) ≡ number
      [ZMOD (2 ^ width : Nat)] := by
    rw [BitVec.toNat_ofNat, Int.natCast_mod]
    exact Int.mod_modEq _ _
  cases reading with
  | unsigned => exact reduced
  | signed =>
      rw [read, integerOf, BitVec.toInt_eq_toNat_bmod]
      exact Int.bmod_emod.trans reduced

theorem read_zero (reading : Signedness) (width : Nat) :
    reading.read width 0 = 0 := by
  cases reading <;> simp [read, integerOf]

theorem integerOf_eq_read (reading : Signedness) {width : Nat}
    (bits : BitVec width) :
    reading.integerOf bits = reading.read width bits.toNat := by
  rw [read, BitVec.ofNat_toNat, BitVec.setWidth_eq]

/-- The bits above the width of a reading do not count. -/
theorem read_mod (reading : Signedness) (width number : Nat) :
    reading.read width (number % 2 ^ width) = reading.read width number := by
  have same : BitVec.ofNat width (number % 2 ^ width) =
      BitVec.ofNat width number := by
    apply BitVec.eq_of_toNat_eq
    rw [BitVec.toNat_ofNat, BitVec.toNat_ofNat, Nat.mod_mod]
  rw [read, read, same]

theorem read_eq_zero_iff (reading : Signedness) (width number : Nat) :
    reading.read width number = 0 ↔ number % 2 ^ width = 0 := by
  constructor
  · intro zero
    have congruent := reading.read_modEq width number
    rw [zero, Int.ModEq, Int.zero_emod] at congruent
    exact_mod_cast congruent.symm
  · intro zero
    rw [← read_mod, zero, read_zero]

theorem read_unsigned {width number : Nat} (bounded : number < 2 ^ width) :
    unsigned.read width number = number := by
  rw [read, integerOf, BitVec.toNat_ofNat, Nat.mod_eq_of_lt bounded]

theorem read_signed {width number : Nat} (positive : 0 < width)
    (bounded : number < 2 ^ width) :
    signed.read width number =
      if 2 ^ (width - 1) ≤ number then (number : Int) - (2 ^ width : Nat)
      else (number : Int) := by
  have double := two_pow_eq_double positive
  apply read_eq_of_fits
  · rw [fits_iff _ positive, least]
    split <;> omega
  · split
    · exact Int.sub_emod_right _ _
    · rfl

/-- Digits below the ones that are looked at do not decide whether an integer
fits. -/
theorem fits_append (reading : Signedness) {low high : Nat}
    (positive : 0 < high) (top : Int) {bottom : Int} (nonnegative : 0 ≤ bottom)
    (bounded : bottom < (2 ^ low : Nat)) :
    reading.fits (low + high) (top * (2 ^ low : Nat) + bottom) =
      reading.fits high top := by
  have scale : (0 : Int) < (2 ^ low : Nat) := by
    exact_mod_cast Nat.two_pow_pos low
  have floor : reading.least (low + high) =
      reading.least high * (2 ^ low : Nat) := by
    cases reading with
    | unsigned => simp [least]
    | signed =>
        rw [least, least, Nat.add_sub_assoc positive, pow_add]
        push_cast
        ring
  rw [Bool.eq_iff_iff, fits_iff _ (by omega), fits_iff _ positive, floor,
    pow_add]
  push_cast at *
  constructor
  · rintro ⟨lower, upper⟩
    constructor
    · by_contra below
      have : (top + 1) * 2 ^ low ≤ reading.least high * 2 ^ low :=
        Int.mul_le_mul_of_nonneg_right (by omega) scale.le
      linarith
    · by_contra above
      have : (reading.least high + 2 ^ high) * 2 ^ low ≤ top * 2 ^ low :=
        Int.mul_le_mul_of_nonneg_right (by omega) scale.le
      linarith
  · rintro ⟨lower, upper⟩
    have floors : reading.least high * 2 ^ low ≤ top * 2 ^ low :=
      Int.mul_le_mul_of_nonneg_right lower scale.le
    have ceils : (top + 1) * 2 ^ low ≤
        (reading.least high + 2 ^ high) * 2 ^ low :=
      Int.mul_le_mul_of_nonneg_right upper scale.le
    constructor <;> linarith

/-- The most significant part of a number is read like the number, the rest of
it as it is. -/
theorem read_append (reading : Signedness) {low high : Nat}
    (positive : 0 < high) (top : Nat) {bottom : Nat}
    (bounded : bottom < 2 ^ low) :
    reading.read (low + high) (top * 2 ^ low + bottom) =
      reading.read high top * (2 ^ low : Nat) + bottom := by
  apply read_eq_of_fits
  · rw [fits_append reading positive _ (by positivity)
      (by exact_mod_cast bounded)]
    exact reading.fits_read high top
  · have congruent := ((reading.read_modEq high top).mul_right'
      (c := (2 ^ low : Nat))).add_right bottom
    rw [pow_add, Nat.mul_comm (2 ^ low)]
    exact_mod_cast congruent

end Signedness

/-- The top bit of an integer as it is stored in a number of bits. -/
def topBit (width : Nat) (value : Int) : Bool :=
  (2 ^ (width - 1) : Nat) ≤ value % (2 ^ width : Nat)

/-! ## Operands as numbers -/

namespace OperandSize

/-- The number that the operand in a value is. -/
def number (size : OperandSize) (value : UInt32) : Nat :=
  value.toNat % 2 ^ size.bits

variable {size : OperandSize}

theorem number_lt (size : OperandSize) (value : UInt32) :
    size.number value < 2 ^ size.bits :=
  Nat.mod_lt _ (Nat.two_pow_pos _)

theorem number_long (value : UInt32) : long.number value = value.toNat :=
  Nat.mod_eq_of_lt value.toNat_lt

theorem bits_pos (sized : size ≠ .unsized) : 0 < size.bits := by
  cases size <;> first | decide | contradiction

/-- No operand is wider than the value that holds it. -/
theorem two_pow_bits_dvd (size : OperandSize) : 2 ^ size.bits ∣ 2 ^ 32 := by
  cases size <;> exact pow_dvd_pow 2 (by decide)

theorem toNat_zeroExtend (sized : size ≠ .unsized) (value : UInt32) :
    (size.zeroExtend value).toNat = size.number value := by
  have masked (places : Nat) (mask : UInt32)
      (ones : mask.toNat = 2 ^ places - 1) :
      (value &&& mask).toNat = value.toNat % 2 ^ places := by
    rw [UInt32.toNat_and, ones, Nat.and_two_pow_sub_one_eq_mod]
  cases size with
  | byte => exact masked 8 _ rfl
  | word => exact masked 16 _ rfl
  | long => exact masked 32 _ rfl
  | unsized => contradiction

/-- The low bits of a merged value are those of the operand, the others are
kept. -/
theorem testBit_merge (sized : size ≠ .unsized) (kept value : UInt32)
    (place : Nat) :
    (size.merge kept value).toNat.testBit place =
      if place < size.bits then value.toNat.testBit place
      else kept.toNat.testBit place := by
  have mask : size.mask.toNat = 2 ^ size.bits - 1 := by
    cases size <;> first | rfl | contradiction
  have outside : (~~~size.mask).toNat.testBit place =
      (decide (place < 32) && !decide (place < size.bits)) := by
    rw [← Nat.testBit_two_pow_sub_one size.bits, ← mask]
    exact BitVec.getLsbD_not
  rw [merge, UInt32.toNat_or, UInt32.toNat_and, UInt32.toNat_and,
    Nat.testBit_or, Nat.testBit_and, Nat.testBit_and, outside, mask,
    Nat.testBit_two_pow_sub_one]
  by_cases inside : place < size.bits
  · simp [inside]
  · by_cases stored : place < 32
    · simp [inside, stored]
    · have beyond : kept.toNat.testBit place = false :=
        Nat.testBit_lt_two_pow
          (kept.toNat_lt.trans_le (Nat.pow_le_pow_right (by decide) (by omega)))
      simp [inside, stored, beyond]

theorem number_merge (sized : size ≠ .unsized) (kept value : UInt32) :
    size.number (size.merge kept value) = size.number value := by
  refine Nat.eq_of_testBit_eq fun place => ?_
  rw [number, number, Nat.testBit_mod_two_pow, Nat.testBit_mod_two_pow,
    testBit_merge sized]
  by_cases inside : place < size.bits <;> simp [inside]

/-- The bits above the operand are kept. -/
theorem merge_div (sized : size ≠ .unsized) (kept value : UInt32) :
    (size.merge kept value).toNat / 2 ^ size.bits =
      kept.toNat / 2 ^ size.bits := by
  refine Nat.eq_of_testBit_eq fun place => ?_
  rw [Nat.testBit_div_two_pow, Nat.testBit_div_two_pow, testBit_merge sized,
    if_neg (by omega)]

theorem zeroExtend_eq_zero (sized : size ≠ .unsized) (value : UInt32) :
    (size.zeroExtend value == 0) = (size.number value == 0) := by
  rw [Bool.eq_iff_iff, beq_iff_eq, beq_iff_eq, ← toNat_zeroExtend sized,
    ← UInt32.toNat_inj]
  rfl

theorem isNegative_eq (sized : size ≠ .unsized) (value : UInt32) :
    size.isNegative value =
      decide (2 ^ (size.bits - 1) ≤ size.number value) := by
  have tested (place : Nat) (bit : UInt32) (power : bit.toNat = 2 ^ place) :
      (value &&& bit != 0) =
        decide (2 ^ place ≤ value.toNat % 2 ^ (place + 1)) := by
    have half : 0 < 2 ^ place := Nat.two_pow_pos place
    have zero : value &&& bit = 0 ↔ value.toNat.testBit place = false := by
      rw [← UInt32.toNat_inj, UInt32.toNat_and, power, Nat.and_two_pow]
      cases value.toNat.testBit place <;> simp
    rw [Bool.eq_iff_iff, bne_iff_ne, ne_eq, zero, decide_eq_true_eq,
      Bool.not_eq_false, Nat.testBit_eq_decide_div_mod_eq, decide_eq_true_eq,
      pow_succ, Nat.mod_mul]
    have low := Nat.mod_lt value.toNat half
    have bit := Nat.mod_two_eq_zero_or_one (value.toNat / 2 ^ place)
    rcases bit with clear | set
    · rw [clear]
      omega
    · rw [set]
      omega
  cases size with
  | byte => exact tested 7 _ rfl
  | word => exact tested 15 _ rfl
  | long => exact tested 31 _ rfl
  | unsized => contradiction

/-- Counting wraps at the size of an operand. -/
theorem number_of_modEq (size : OperandSize) {value : UInt32} {whole : Int}
    (wraps : (value.toNat : Int) ≡ whole [ZMOD (2 ^ 32 : Nat)]) :
    (size.number value : Int) = whole % (2 ^ size.bits : Nat) := by
  rw [number, Int.natCast_mod]
  exact wraps.of_dvd (by exact_mod_cast size.two_pow_bits_dvd)

theorem number_add (size : OperandSize) (left right extend : UInt32) :
    (size.number (left + right + extend) : Int) =
      (size.number left + size.number right + extend.toNat) %
        (2 ^ size.bits : Nat) := by
  have wraps : ((left + right + extend).toNat : Int) ≡
      left.toNat + right.toNat + extend.toNat [ZMOD (2 ^ 32 : Nat)] := by
    simp only [UInt32.toNat_add, Int.natCast_mod, Nat.cast_add]
    exact (Int.mod_modEq _ _).trans ((Int.mod_modEq _ _).add_right _)
  rw [size.number_of_modEq wraps]
  simp only [number, Int.natCast_mod]
  exact ((Int.mod_modEq _ _).symm.add (Int.mod_modEq _ _).symm).add_right _

theorem number_sub (size : OperandSize) (left right extend : UInt32) :
    (size.number (left - right - extend) : Int) =
      (size.number left - size.number right - extend.toNat) %
        (2 ^ size.bits : Nat) := by
  have difference (first second : UInt32) :
      ((first - second).toNat : Int) ≡ first.toNat - second.toNat
        [ZMOD (2 ^ 32 : Nat)] := by
    have bound := second.toNat_lt
    have turn : ((2 ^ 32 - second.toNat + first.toNat : Nat) : Int) =
        first.toNat - second.toNat + (2 ^ 32 : Nat) := by omega
    rw [UInt32.toNat_sub, Int.natCast_mod, turn]
    exact (Int.mod_modEq _ _).trans (Int.add_emod_right _ _)
  have wraps : ((left - right - extend).toNat : Int) ≡
      left.toNat - right.toNat - extend.toNat [ZMOD (2 ^ 32 : Nat)] := by
    exact (difference _ _).trans ((difference _ _).sub_right _)
  rw [size.number_of_modEq wraps]
  simp only [number, Int.natCast_mod]
  exact ((Int.mod_modEq _ _).symm.sub (Int.mod_modEq _ _).symm).sub_right _

end OperandSize

/-! ## Carry and overflow -/

/-- A remainder of an integer that is off by at most one modulus. -/
theorem emod_eq_or (value modulus : Int) (lower : -modulus ≤ value)
    (upper : value < 2 * modulus) :
    value % modulus = value ∨ value % modulus = value - modulus ∨
      value % modulus = value + modulus := by
  by_cases negative : value < 0
  · have shifted := Int.add_emod_right value modulus
    rw [Int.emod_eq_of_lt (by omega) (by omega)] at shifted
    omega
  · by_cases beyond : modulus ≤ value
    · have shifted := Int.sub_emod_right value modulus
      rw [Int.emod_eq_of_lt (by omega) (by omega)] at shifted
      omega
    · exact .inl (Int.emod_eq_of_lt (by omega) (by omega))

namespace FlagRule

variable {size : OperandSize} {source destination result : UInt32}
  {extend : Nat}

section Sums

variable (sized : size ≠ .unsized) (bit : extend ≤ 1)
  (sum : (size.number result : Int) =
    (size.number destination + size.number source + extend) %
      (2 ^ size.bits : Nat))

include sized bit sum

/-- The carry of a sum tells that it needs another bit. -/
theorem addCarry_signsOf :
    (signsOf size source destination result).addCarry =
      !Signedness.unsigned.fits size.bits
        (size.number destination + size.number source + extend) := by
  have positive := OperandSize.bits_pos sized
  have double := Signedness.two_pow_eq_double positive
  have sourceBound := size.number_lt source
  have destinationBound := size.number_lt destination
  have stored := emod_eq_or
    (size.number destination + size.number source + extend)
    (2 ^ size.bits : Nat) (by omega) (by omega)
  rw [Bool.eq_iff_iff, Bool.not_eq_true', ← Bool.not_eq_true,
    Signedness.fits_iff _ positive, Signedness.least]
  simp only [signsOf, Signs.addCarry, OperandSize.isNegative_eq sized,
    Bool.or_eq_true, Bool.and_eq_true, Bool.not_eq_true', decide_eq_true_eq,
    decide_eq_false_iff_not]
  omega

/-- The overflow of a sum tells that it is no signed number of the size. -/
theorem addOverflow_signsOf :
    (signsOf size source destination result).addOverflow =
      !Signedness.signed.fits size.bits
        (Signedness.signed.read size.bits (size.number destination) +
          Signedness.signed.read size.bits (size.number source) +
            extend) := by
  have positive := OperandSize.bits_pos sized
  have double := Signedness.two_pow_eq_double positive
  have sourceBound := size.number_lt source
  have destinationBound := size.number_lt destination
  have stored := emod_eq_or
    (size.number destination + size.number source + extend)
    (2 ^ size.bits : Nat) (by omega) (by omega)
  rw [Bool.eq_iff_iff, Bool.not_eq_true', ← Bool.not_eq_true,
    Signedness.fits_iff _ positive, Signedness.least,
    Signedness.read_signed positive sourceBound,
    Signedness.read_signed positive destinationBound]
  simp only [signsOf, Signs.addOverflow, OperandSize.isNegative_eq sized,
    Bool.or_eq_true, Bool.and_eq_true, Bool.not_eq_true', decide_eq_true_eq,
    decide_eq_false_iff_not]
  omega

end Sums

section Differences

variable (sized : size ≠ .unsized) (bit : extend ≤ 1)
  (difference : (size.number result : Int) =
    (size.number destination - size.number source - extend) %
      (2 ^ size.bits : Nat))

include sized bit difference

/-- The borrow of a difference tells that it is below zero. -/
theorem subBorrow_signsOf :
    (signsOf size source destination result).subBorrow =
      !Signedness.unsigned.fits size.bits
        (size.number destination - size.number source - extend) := by
  have positive := OperandSize.bits_pos sized
  have double := Signedness.two_pow_eq_double positive
  have sourceBound := size.number_lt source
  have destinationBound := size.number_lt destination
  have stored := emod_eq_or
    (size.number destination - size.number source - extend)
    (2 ^ size.bits : Nat) (by omega) (by omega)
  rw [Bool.eq_iff_iff, Bool.not_eq_true', ← Bool.not_eq_true,
    Signedness.fits_iff _ positive, Signedness.least]
  simp only [signsOf, Signs.subBorrow, OperandSize.isNegative_eq sized,
    Bool.or_eq_true, Bool.and_eq_true, Bool.not_eq_true', decide_eq_true_eq,
    decide_eq_false_iff_not]
  omega

/-- The overflow of a difference tells that it is no signed number of the
size. -/
theorem subOverflow_signsOf :
    (signsOf size source destination result).subOverflow =
      !Signedness.signed.fits size.bits
        (Signedness.signed.read size.bits (size.number destination) -
          Signedness.signed.read size.bits (size.number source) -
            extend) := by
  have positive := OperandSize.bits_pos sized
  have double := Signedness.two_pow_eq_double positive
  have sourceBound := size.number_lt source
  have destinationBound := size.number_lt destination
  have stored := emod_eq_or
    (size.number destination - size.number source - extend)
    (2 ^ size.bits : Nat) (by omega) (by omega)
  rw [Bool.eq_iff_iff, Bool.not_eq_true', ← Bool.not_eq_true,
    Signedness.fits_iff _ positive, Signedness.least,
    Signedness.read_signed positive sourceBound,
    Signedness.read_signed positive destinationBound]
  simp only [signsOf, Signs.subOverflow, OperandSize.isNegative_eq sized,
    Bool.or_eq_true, Bool.and_eq_true, Bool.not_eq_true', decide_eq_true_eq,
    decide_eq_false_iff_not]
  omega

end Differences

end FlagRule

end M68k

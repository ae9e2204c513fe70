import M68k.Memory.Flat
import M68k.Proofs.ConditionFlags
import M68k.Proofs.DataExecution
import M68k.Proofs.ProductForms
import M68k.Proofs.StepPhases
import Mathlib.Algebra.Order.Ring.Abs

/-!
# Quotients

A division by zero traps.  Any other division has an exact quotient, rounded
toward zero, and an exact remainder; it stores both if the quotient fits, and
does nothing otherwise.
-/

namespace M68k

/-! ## Exact quotients -/

/-- The quotient of a division rounded toward zero, and the remainder. -/
structure IsExactQuotient
    (dividend divisor quotient remainder : Int) : Prop where
  sum : dividend = quotient * divisor + remainder
  small : |remainder| < |divisor|
  /-- The remainder is zero or has the sign of the dividend. -/
  sign : remainder = 0 ∨ remainder.sign = dividend.sign

namespace IsExactQuotient

variable {dividend divisor quotient remainder : Int}

theorem tdiv (nonzero : divisor ≠ 0) :
    IsExactQuotient dividend divisor (dividend.tdiv divisor)
      (dividend.tmod divisor) where
  sum := (Int.tdiv_mul_add_tmod dividend divisor).symm
  small := by
    rw [Int.abs_eq_natAbs, Int.abs_eq_natAbs, Int.natAbs_tmod]
    exact_mod_cast Nat.mod_lt _ (Int.natAbs_pos.mpr nonzero)
  sign := by
    rw [Int.sign_tmod]
    by_cases divides : divisor ∣ dividend
    · exact .inl (Int.tmod_eq_zero_of_dvd divides)
    · exact .inr (if_neg divides)

theorem mul (quotient : Int) (nonzero : divisor ≠ 0) :
    IsExactQuotient (quotient * divisor) divisor quotient 0 where
  sum := (add_zero _).symm
  small := by
    rw [abs_zero]
    exact abs_pos.mpr nonzero
  sign := .inl rfl

theorem remainder_nonneg
    (exact : IsExactQuotient dividend divisor quotient remainder)
    (nonnegative : 0 ≤ dividend) : 0 ≤ remainder := by
  obtain zero | same := exact.sign
  · exact zero.ge
  · rw [← Int.sign_nonneg_iff, same, Int.sign_nonneg_iff]
    exact nonnegative

theorem remainder_nonpos
    (exact : IsExactQuotient dividend divisor quotient remainder)
    (nonpositive : dividend ≤ 0) : remainder ≤ 0 := by
  obtain zero | same := exact.sign
  · exact zero.le
  · rw [← Int.sign_nonpos_iff, same, Int.sign_nonpos_iff]
    exact nonpositive

/-- There is one exact quotient. -/
theorem unique {otherQuotient otherRemainder : Int}
    (exact : IsExactQuotient dividend divisor quotient remainder)
    (other : IsExactQuotient dividend divisor otherQuotient otherRemainder) :
    quotient = otherQuotient ∧ remainder = otherRemainder := by
  have multiple : otherRemainder - remainder =
      (quotient - otherQuotient) * divisor := by
    linarith [exact.sum, other.sum]
  -- Both remainders are on the same side of zero.
  have near : |otherRemainder - remainder| < |divisor| := by
    have small := abs_lt.mp exact.small
    have otherSmall := abs_lt.mp other.small
    rw [abs_lt]
    obtain nonnegative | nonpositive := le_total 0 dividend
    · have floor := exact.remainder_nonneg nonnegative
      have otherFloor := other.remainder_nonneg nonnegative
      constructor <;> linarith
    · have ceiling := exact.remainder_nonpos nonpositive
      have otherCeiling := other.remainder_nonpos nonpositive
      constructor <;> linarith
  have zero : otherRemainder - remainder = 0 := by
    refine Int.eq_zero_of_abs_lt_dvd ?_ near
    rw [abs_dvd, multiple]
    exact dvd_mul_left _ _
  have nonzero : divisor ≠ 0 :=
    abs_pos.mp ((abs_nonneg remainder).trans_lt exact.small)
  rw [zero, eq_comm, mul_eq_zero_iff_right nonzero] at multiple
  exact ⟨sub_eq_zero.mp multiple, (sub_eq_zero.mp zero).symm⟩

end IsExactQuotient

/-! ## Divided operands -/

namespace ProductOperand

variable {σ : Type}

/-- How a division ends, once its operand is fetched. -/
inductive Divides (operand : ProductOperand) (fetched : Machine σ) :
    EStateM.Result Fault (Machine σ) Unit → Prop where
  | byZero (zero : operand.integer = 0) :
      operand.Divides fetched (.error .divisionByZero fetched)
  | overflow {quotient remainder : Int}
      (exact : IsExactQuotient (operand.dividend fetched.registers)
        operand.integer quotient remainder)
      (tooLarge :
        ¬operand.reading.Represents operand.places.narrow quotient) :
      operand.Divides fetched (.ok () fetched)
  | stored {quotient remainder : Int} {codes : ConditionCodes}
      (exact : IsExactQuotient (operand.dividend fetched.registers)
        operand.integer quotient remainder)
      (fits : operand.reading.Represents operand.places.narrow quotient)
      (shows : codes.Shows (topBit operand.places.narrow quotient)
        (quotient = 0) false false)
      (extend : codes.extend = fetched.status.codes.extend) :
      operand.Divides fetched
        (.ok ()
          ({ fetched with
            registers := operand.places.setQuotient fetched.registers quotient
              remainder }.setConditionCodes codes))

end ProductOperand

namespace Signedness

/-- An integer that fits is zero if it is stored as zero. -/
theorem Represents.emod_eq_zero_iff {reading : Signedness} {width : Nat}
    {value : Int} (fits : reading.Represents width value)
    (positive : 0 < width) : value % (2 ^ width : Nat) = 0 ↔ value = 0 := by
  have double := two_pow_eq_double positive
  have halves : 0 < 2 ^ (width - 1) := Nat.two_pow_pos _
  obtain ⟨lower, upper⟩ := fits
  constructor
  · intro stored
    refine Int.eq_zero_of_abs_lt_dvd (Int.dvd_of_emod_eq_zero stored) ?_
    rw [abs_lt]
    cases reading <;> rw [least] at lower upper <;> omega
  · rintro rfl
    exact Int.zero_emod _

/-- A division finds the exact quotient and remainder. -/
theorem divide?_eq (reading : Signedness) {wide width : Nat}
    (positive : 0 < width) (dividend : BitVec wide) {divisor : BitVec width}
    (nonzero : reading.integerOf divisor ≠ 0) :
    ∃ quotient remainder,
      IsExactQuotient (reading.integerOf dividend) (reading.integerOf divisor)
        quotient remainder ∧
      (¬reading.Represents width quotient ∧
          reading.divide? dividend divisor = none ∨
        reading.Represents width quotient ∧
          reading.divide? dividend divisor =
            some ⟨.ofInt width quotient, .ofInt width remainder⟩) := by
  refine ⟨_, _, .tdiv nonzero, ?_⟩
  rw [← reading.represents_iff positive, divide?]
  split
  · rename_i fits
    exact .inr ⟨fits, rfl⟩
  · rename_i tooLarge
    exact .inl ⟨tooLarge, rfl⟩

end Signedness

/-! ## The word form -/

/-- A long whose words are given integers, as far as they fit. -/
theorem joinWords_ofInt (high low : Int) :
    joinWords (UInt16.ofBitVec (BitVec.ofInt 16 high))
        (UInt16.ofBitVec (BitVec.ofInt 16 low)) =
      UInt32.ofInt (high % 2 ^ 16 * 2 ^ 16 + low % 2 ^ 16) := by
  have highWord := BitVec.toNat_ofInt (n := 16) high
  have lowWord := BitVec.toNat_ofInt (n := 16) low
  have long := toNat_ofInt (high % 2 ^ 16 * 2 ^ 16 + low % 2 ^ 16)
  rw [← UInt32.toNat_inj, toNat_joinWords, UInt16.toNat_ofBitVec,
    UInt16.toNat_ofBitVec]
  omega

/-- The low word of a long is read alone. -/
theorem Signedness.integerOf_toUInt16 (reading : Signedness)
    (value : UInt32) :
    reading.integerOf value.toUInt16.toBitVec =
      reading.read 16 value.toNat := by
  rw [integerOf_eq_read, UInt16.toNat_toBitVec, UInt32.toNat_toUInt16]
  exact reading.read_mod 16 _

/-- The flags of a quotient look at its word alone. -/
theorem FlagRule.shows_quotient {reading : Signedness} {value remainder : Int}
    (fits : reading.Represents 16 value) (size : OperandSize)
    (source destination : UInt32) (codes : ConditionCodes) :
    (quotient.apply size source destination
      (.ofInt (remainder % 2 ^ 16 * 2 ^ 16 + value % 2 ^ 16))
        codes).Shows (topBit 16 value) (value = 0) false false := by
  let result := UInt32.ofInt (remainder % 2 ^ 16 * 2 ^ 16 + value % 2 ^ 16)
  have stored : (OperandSize.word.number result : Int) = value % 2 ^ 16 := by
    have long : (result.toNat : Int) = _ := toNat_ofInt _
    show ((result.toNat % 2 ^ 16 : Nat) : Int) = _
    omega
  have negative : OperandSize.word.isNegative result = topBit 16 value := by
    rw [OperandSize.isNegative_eq (by decide), topBit, Bool.eq_iff_iff,
      decide_eq_true_eq, decide_eq_true_eq]
    show 2 ^ 15 ≤ _ ↔ _
    omega
  have zero : (OperandSize.word.zeroExtend result == 0) =
      decide (value = 0) := by
    rw [OperandSize.zeroExtend_eq_zero (by decide), Bool.eq_iff_iff,
      beq_iff_eq, decide_eq_true_eq, ← fits.emod_eq_zero_iff (by decide)]
    omega
  rw [← negative, ← zero]
  exact codes.shows_setLogic _ _

namespace DataOperation

variable {reading : Signedness} {operands : Operands}

theorem computeQuotient_of_zero
    (zero : reading.read 16 operands.source.toNat = 0)
    (codes : ConditionCodes) :
    computeQuotient reading codes operands = .trap .divisionByZero codes := by
  have divisor : operands.source.toUInt16 = 0 := by
    rw [← UInt16.toNat_inj, UInt32.toNat_toUInt16]
    exact (reading.read_eq_zero_iff 16 _).mp zero
  simp only [computeQuotient, divisor, if_true]

theorem computeQuotient_of_nonzero
    (nonzero : reading.read 16 operands.source.toNat ≠ 0)
    (codes : ConditionCodes) :
    ∃ quotient remainder,
      IsExactQuotient (reading.read 32 operands.destination.toNat)
        (reading.read 16 operands.source.toNat) quotient remainder ∧
      (¬reading.Represents 16 quotient ∧
          computeQuotient reading codes operands = .discard ∨
        reading.Represents 16 quotient ∧
          computeQuotient reading codes operands =
            .result
              (.ofInt (remainder % 2 ^ 16 * 2 ^ 16 + quotient % 2 ^ 16)) .long
              codes) := by
  have divisor : operands.source.toUInt16 ≠ 0 := by
    rw [ne_eq, ← UInt16.toNat_inj, UInt32.toNat_toUInt16]
    exact mt (reading.read_eq_zero_iff 16 _).mpr nonzero
  rw [← reading.integerOf_toUInt16] at nonzero ⊢
  obtain ⟨quotient, remainder, exact, found⟩ :=
    reading.divide?_eq (by decide) operands.destination.toBitVec nonzero
  rw [reading.integerOf_eq_read operands.destination.toBitVec] at exact
  refine ⟨quotient, remainder, exact, ?_⟩
  simp only [computeQuotient, divisor, if_false]
  obtain ⟨tooLarge, found⟩ | ⟨fits, found⟩ := found
  · exact .inl ⟨tooLarge, by rw [found]⟩
  · exact .inr ⟨fits, by rw [found, ← joinWords_ofInt]⟩

end DataOperation

/-! ## The long form -/

theorem msb_ofInt (width : Nat) (value : Int) :
    (BitVec.ofInt width value).msb = topBit width value := by
  have nonnegative := Int.emod_nonneg value
    (Int.natCast_ne_zero.mpr (Nat.two_pow_pos width).ne')
  rw [BitVec.msb_eq_decide, BitVec.toNat_ofInt, topBit, Bool.eq_iff_iff,
    decide_eq_true_eq, decide_eq_true_eq]
  omega

theorem ofInt_beq_zero (width : Nat) (value : Int) :
    (BitVec.ofInt width value == 0) =
      decide (value % (2 ^ width : Nat) = 0) := by
  have nothing : (0 : BitVec width).toNat = 0 := BitVec.toNat_zero
  have nonnegative := Int.emod_nonneg value
    (Int.natCast_ne_zero.mpr (Nat.two_pow_pos width).ne')
  rw [Bool.eq_iff_iff, beq_iff_eq, decide_eq_true_eq, ← BitVec.toNat_inj,
    BitVec.toNat_ofInt, nothing]
  omega

/-! ## Divisions -/

namespace ProductForm

variable {σ : Type} [Memory σ] {machine : Machine σ}

/-- A long is written to a data register whole. -/
theorem write_long (number : Fin 8) (value : UInt32) (machine : Machine σ) :
    (Location.dataRegister number).write .long value machine =
      .ok () { machine with
        registers := machine.registers.set (.data number) value } := by
  have whole (kept : UInt32) : OperandSize.long.merge kept value = value := by
    have stored : OperandSize.long.number _ = OperandSize.long.number _ :=
      OperandSize.number_merge (by decide) kept value
    rw [OperandSize.number_long, OperandSize.number_long] at stored
    exact UInt32.toNat_inj.mp stored
  simp only [Location.write, Execution.bind_apply, Execution.register,
    Execution.observe, Execution.setRegister, Execution.update, whole]

theorem yields_division_word (reading : Signedness) (mode : AddressingMode)
    (target : Fin 8) :
    (word reading mode target).Yields
      (Instruction.execute (word reading mode target).division)
      ProductOperand.Divides machine := by
  refine yields_word fun value fetched sourceFetched => ?_
  let destination := fetched.registers.get (.data target)
  have destinationFetched : (Destination.dataRegister target).fetch .word
      fetched = .ok (some (.dataRegister target), destination) fetched := rfl
  have computes : reading.division.compute fetched.status .word
      (DataInstruction.operands
        ⟨reading.division, .word, .operand mode, .dataRegister target⟩
        value destination) =
        DataOperation.computeQuotient reading fetched.status.codes
          ⟨value, destination⟩ := by
    cases reading <;> rfl
  have rule : DataInstruction.flagRule
      ⟨reading.division, .word, .operand mode, .dataRegister target⟩ =
        .quotient := by
    cases reading <;> rfl
  by_cases zero : reading.read 16 value.toNat = 0
  · rw [DataInstruction.execute_of_trap sourceFetched destinationFetched
      (computes.trans (DataOperation.computeQuotient_of_zero zero _))]
    exact .byZero zero
  · have computed := DataOperation.computeQuotient_of_nonzero
      (show reading.read 16 (Operands.mk value destination).source.toNat ≠ 0
        from zero) fetched.status.codes
    obtain ⟨quotient, remainder, exact,
      ⟨tooLarge, found⟩ | ⟨fits, found⟩⟩ := computed
    · rw [DataInstruction.execute_of_discard sourceFetched destinationFetched
        (computes.trans found)]
      exact .overflow exact tooLarge
    · rw [DataInstruction.execute_of_result sourceFetched destinationFetched
        (computes.trans found),
        DataInstruction.finish_of_written (by cases reading <;> rfl)
          (write_long _ _ _), rule]
      exact .stored exact fits (FlagRule.shows_quotient fits _ _ _ _) rfl

/-- Two longs one after the other. -/
theorem integerOf_append (reading : Signedness) (high low : UInt32) :
    reading.integerOf (high.toBitVec ++ low.toBitVec) =
      reading.read 64 (high.toNat * 2 ^ 32 + low.toNat) := by
  rw [reading.integerOf_eq_read, BitVec.toNat_append, UInt32.toNat_toBitVec,
    UInt32.toNat_toBitVec, ← Nat.shiftLeft_add_eq_or_of_lt low.toNat_lt,
    Nat.shiftLeft_eq]

theorem dividend_quad {extension : LongOperands}
    (quad : extension.isQuad = true) (registers : Registers) (value : UInt32) :
    (extension.operand value).dividend registers =
      extension.signedness.integerOf
        ((registers.get (.data extension.high)).toBitVec ++
          (registers.get (.data extension.low)).toBitVec) := by
  rw [integerOf_append, LongOperands.operand_of_quad quad]
  rfl

theorem dividend_long {extension : LongOperands}
    (short : extension.isQuad = false) (registers : Registers)
    (value : UInt32) :
    (extension.operand value).dividend registers =
      extension.signedness.integerOf
        (registers.get (.data extension.low)).toBitVec := by
  rw [Signedness.integerOf_eq_read, LongOperands.operand_of_long short]
  rfl

theorem integer_operand (extension : LongOperands) (value : UInt32) :
    (extension.operand value).integer =
      extension.signedness.integerOf value.toBitVec := by
  rw [Signedness.integerOf_eq_read, ProductOperand.integer,
    LongOperands.operand, LongOperands.narrow_places]
  rfl

theorem divideLongs?_of_nonzero {extension : LongOperands} {value : UInt32}
    (nonzero : (extension.operand value).integer ≠ 0)
    (registers : Registers) :
    ∃ quotient remainder,
      IsExactQuotient ((extension.operand value).dividend registers)
        (extension.operand value).integer quotient remainder ∧
      (¬extension.signedness.Represents 32 quotient ∧
          Execution.divideLongs? extension
            (registers.get (.data extension.high))
            (registers.get (.data extension.low)) value = none ∨
        extension.signedness.Represents 32 quotient ∧
          Execution.divideLongs? extension
            (registers.get (.data extension.high))
            (registers.get (.data extension.low)) value =
              some ⟨.ofInt 32 quotient, .ofInt 32 remainder⟩) := by
  rw [integer_operand] at nonzero ⊢
  cases quad : extension.isQuad with
  | true =>
    rw [dividend_quad quad, Execution.divideLongs?, quad]
    exact Signedness.divide?_eq _ (by decide) _ nonzero
  | false =>
    rw [dividend_long quad, Execution.divideLongs?, quad]
    exact Signedness.divide?_eq _ (by decide) _ nonzero

theorem yields_division_long (mode : AddressingMode) :
    (long mode).Yields (Instruction.execute (long mode).division)
      ProductOperand.Divides machine := by
  show (long mode).Yields (Execution.divl mode) _ _
  unfold Execution.divl
  refine yields_long fun extension value fetched => ?_
  have narrow : (extension.operand value).places.narrow = 32 :=
    extension.narrow_places
  by_cases divisor : value = 0
  · simp only [divisor, if_true]
    refine .byZero ?_
    rw [integer_operand]
    exact Signedness.read_zero _ 32
  · have nonzero : (extension.operand value).integer ≠ 0 := by
      rw [ProductOperand.integer, narrow, ne_eq, Signedness.read_eq_zero_iff,
        Nat.mod_eq_of_lt (UInt32.toNat_lt _)]
      exact fun zero => divisor (UInt32.toNat_inj.mp zero)
    obtain ⟨quotient, remainder, exact, ⟨tooLarge, found⟩ | ⟨fits, found⟩⟩ :=
      divideLongs?_of_nonzero nonzero fetched.registers
    · simp only [divisor, if_false, Execution.bind_apply, Execution.register,
        Execution.observe, found]
      refine .overflow exact ?_
      rw [narrow]
      exact tooLarge
    · have stored : ProductOperand.Divides (extension.operand value) fetched
          (.ok ()
            ({ fetched with
              registers := extension.places.setQuotient fetched.registers
                quotient remainder }.setConditionCodes
                  ((fetched.status.codes.setLogic (topBit 32 quotient)
                    (quotient = 0)).setFlag Flag.overflow false))) := by
        refine .stored exact ?_ ?_ rfl
        · rw [narrow]
          exact fits
        · rw [narrow]
          exact (ConditionCodes.shows_setLogic _ _ _).setOverflow false
      simp only [divisor, if_false, Execution.bind_apply, Execution.register,
        Execution.observe, found, Execution.setRegister, Execution.update,
        Execution.setResultFlags, Execution.status,
        Execution.setConditionCodes, ofBitVec_ofInt, msb_ofInt, ofInt_beq_zero,
        fits.emod_eq_zero_iff (by decide)]
      rw [extension.setQuotient_places] at stored
      exact stored

/-- Both forms divide alike. -/
theorem yields_division (form : ProductForm) :
    form.Yields (Instruction.execute form.division) ProductOperand.Divides
      machine := by
  cases form with
  | word reading mode target => exact yields_division_word reading mode target
  | long mode => exact yields_division_long mode

theorem privilegedSince?_division (form : ProductForm) :
    form.division.privilegedSince? = none := by
  cases form with
  | word reading mode target => cases reading <;> rfl
  | long mode => rfl

end ProductForm

/-- A division traps on zero, does nothing if the quotient does not fit, and
otherwise stores the exact quotient and remainder and the flags of the
quotient. -/
theorem Execution.executeOpcode_division {σ : Type} [Memory σ]
    {machine : Machine σ} {instruction : Instruction}
    (decoded : Instruction.decode? machine.opcode = some instruction)
    (divides : instruction.isDivision = true)
    (present : ¬machine.model < instruction.since) :
    ∃ form : ProductForm, instruction = form.division ∧
      form.Yields Execution.executeOpcode ProductOperand.Divides machine := by
  obtain ⟨form, rfl⟩ := Instruction.exists_division decoded divides
  have admitted := Instruction.admit_of_present decoded present
    form.privilegedSince?_division machine.isSupervisor
  exact ⟨form, rfl,
    form.yields_division.congr (executeOpcode_of_admitted admitted)⟩

/-- A machine about to divide the least long by minus one with DIVS.L D2,D0. -/
def Machine.dividingLeast : Machine FlatMemory where
  model := .mc68020
  opcode := 0x4C42
  registers := { data := #v[0x80000000, 0, 0xFFFFFFFF, 0, 0, 0, 0, 0] }
  memory := ⟨#[0x08, 0x00]⟩

theorem Machine.dividingLeast_divides :
    (ProductForm.long (.dataRegister 2)).fetch dividingLeast =
        .ok ⟨.signed, .long 0 0, 0xFFFFFFFF⟩ (dividingLeast.withPc 2) ∧
      Execution.executeOpcode dividingLeast =
        .ok () (dividingLeast.withPc 2) := by
  refine ⟨rfl, ?_⟩
  have decoded : Instruction.decode? dividingLeast.opcode =
      some (.divl (.dataRegister 2)) := by decide
  obtain ⟨form, same, yields⟩ :=
    Execution.executeOpcode_division decoded rfl (by decide)
  cases form with
  | word reading mode target => cases reading <;> cases same
  | long mode =>
      cases same
      obtain ⟨-, -, divides⟩ := yields
      generalize Execution.executeOpcode dividingLeast = result at divides ⊢
      cases divides with
      | byZero zero => exact absurd zero (by decide)
      | overflow exact tooLarge => rfl
      | stored exact fits =>
          have opposite : IsExactQuotient (-0x80000000) (-1) 0x80000000 0 :=
            .mul 0x80000000 (show (-1 : Int) ≠ 0 by decide)
          obtain ⟨rfl, -⟩ := exact.unique opposite
          exact absurd fits (by decide)

end M68k

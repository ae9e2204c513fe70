import M68k.Proofs.OperandChains

/-!
# Decimal arithmetic

ABCD, SBCD and NBCD, executed byte by byte from the ends of two packed decimal
numbers, add, subtract and negate the numbers.  The adjustments are right for
digits; nothing is said about bytes that hold none.
-/

namespace M68k

namespace Decimal

variable {source destination extend : UInt8}

/-- A sum of digits with a carry is digits with a carry. -/
theorem add_digits (sourceDigits : Numeration.decimal.IsDigit source)
    (destinationDigits : Numeration.decimal.IsDigit destination)
    (bit : extend.toNat ≤ 1) :
    Numeration.decimal.IsDigit (add source destination extend).value ∧
      Numeration.decimal.digit (add source destination extend).value +
          100 * (add source destination extend).carry.toNat =
        Numeration.decimal.digit destination +
          Numeration.decimal.digit source + extend.toNat := by
  simp only [Numeration.IsDigit, Numeration.digit, add, lowAdjustment,
    UInt8.toNat_ofNat'] at *
  by_cases low : destination.toNat % 16 + source.toNat % 16 + extend.toNat > 9
  · simp only [low, if_true]
    by_cases high : destination.toNat / 16 + source.toNat / 16 +
        (destination.toNat % 16 + source.toNat % 16 + extend.toNat + 6) / 16 > 9
    · simp only [high, decide_true, if_true, Bool.toNat_true]
      omega
    · simp only [high, decide_false, if_false, Bool.toNat_false,
        Bool.false_eq_true]
      omega
  · simp only [low, if_false, Nat.add_zero]
    by_cases high : destination.toNat / 16 + source.toNat / 16 +
        (destination.toNat % 16 + source.toNat % 16 + extend.toNat) / 16 > 9
    · simp only [high, decide_true, if_true, Bool.toNat_true]
      omega
    · simp only [high, decide_false, if_false, Bool.toNat_false,
        Bool.false_eq_true]
      omega

/-- A difference of digits with a borrow is digits with a borrow. -/
theorem sub_digits (sourceDigits : Numeration.decimal.IsDigit source)
    (destinationDigits : Numeration.decimal.IsDigit destination)
    (bit : extend.toNat ≤ 1) :
    Numeration.decimal.IsDigit (sub source destination extend).value ∧
      Numeration.decimal.digit (sub source destination extend).value +
          Numeration.decimal.digit source + extend.toNat =
        Numeration.decimal.digit destination +
          100 * (sub source destination extend).carry.toNat := by
  have binary : (destination - source - extend).toNat =
      (destination.toNat + 512 - source.toNat - extend.toNat) % 256 := by
    have sourceBound := source.toNat_lt
    simp only [UInt8.toNat_sub]
    omega
  have six : (6 : UInt8).toNat = 6 := rfl
  have sixty : (0x60 : UInt8).toNat = 0x60 := rfl
  simp only [Numeration.IsDigit, Numeration.digit, sub] at *
  by_cases low : destination.toNat % 16 < source.toNat % 16 + extend.toNat
  · simp only [low, decide_true, if_true, Bool.toNat_true, Bool.true_and]
    by_cases high : destination.toNat / 16 < source.toNat / 16 + 1
    · simp only [high, decide_true, if_true, Bool.true_or, Bool.toNat_true,
        UInt8.toNat_sub, binary, six, sixty]
      omega
    · have large : ¬(destination - source - extend < 6) := by
        rw [UInt8.lt_iff_toNat_lt, binary, six]
        omega
      simp only [high, large, decide_false, if_false, Bool.false_or,
        Bool.toNat_false, Bool.false_eq_true, UInt8.sub_zero, UInt8.toNat_sub,
        binary, six]
      omega
  · simp only [low, decide_false, if_false, Bool.false_eq_true,
      Bool.toNat_false, Bool.false_and, Bool.or_false, Nat.add_zero,
      UInt8.sub_zero]
    by_cases high : destination.toNat / 16 < source.toNat / 16
    · simp only [high, decide_true, if_true, Bool.toNat_true, UInt8.toNat_sub,
        binary, sixty]
      omega
    · simp only [high, decide_false, if_false, Bool.toNat_false,
        Bool.false_eq_true, UInt8.sub_zero, binary]
      omega

theorem Outcome.codes_eq {codes : ConditionCodes} (inRange : codes.InRange)
    (outcome : Outcome) :
    outcome.codes codes =
      .ofFlags outcome.carry (outcome.value.toNat.testBit 7)
        (codes.has Flag.zero && outcome.value == 0) outcome.overflow
        outcome.carry := by
  obtain ⟨extend, negative, zero, overflow, carry, rfl⟩ :=
    inRange.exists_ofFlags
  simp only [Outcome.codes, ConditionCodes.setCarryAndExtend_ofFlags,
    ConditionCodes.clearZeroIf_ofFlags,
    ConditionCodes.setFlag_negative_ofFlags,
    ConditionCodes.setFlag_overflow_ofFlags, ConditionCodes.has_zero_ofFlags,
    bne, Bool.not_not]

theorem digit_eq_zero (byte : UInt8) :
    (Numeration.decimal.digit byte == 0) = (byte == 0) := by
  rw [Bool.eq_iff_iff, beq_iff_eq, beq_iff_eq, Numeration.digit,
    ← UInt8.toNat_inj]
  show _ ↔ byte.toNat = 0
  omega

end Decimal

namespace Chain

variable {chain : Chain} {count : Nat}
  {machine start middle left : Machine FlatMemory}

/-- One operation computes digits and a carry of digits. -/
theorem compute_decimal (decimal : chain.numeration = .decimal)
    (byte : chain.size = .byte) {status : StatusRegister}
    (inRange : status.codes.InRange) {source destination : UInt32}
    (sourceDigits : chain.operation.takesSource = true →
      chain.numeration.IsDigit source.toUInt8)
    (destinationDigits : chain.numeration.IsDigit destination.toUInt8) :
    ∃ outcome : Decimal.Outcome,
      chain.dataOperation.compute status chain.size
          (chain.arranged source destination) =
        .result outcome.value.toUInt32 chain.size
          (outcome.codes status.codes) ∧
      chain.dataOperation.flagRule = .keep ∧
      chain.numeration.IsDigit outcome.value ∧
      chain.operation.exact (chain.numeration.digit source.toUInt8)
          (chain.numeration.digit destination.toUInt8)
          status.codes.extend.toNat =
        chain.numeration.digit outcome.value +
          chain.operation.weight * 100 * outcome.carry.toNat := by
  obtain ⟨operation, numeration, size, first, second⟩ := chain
  obtain rfl : numeration = .decimal := decimal
  obtain rfl : size = .byte := byte
  dsimp only at sourceDigits destinationDigits ⊢
  have bit : status.codes.extend.toNat ≤ 1 := inRange.extend
  cases operation with
  | add =>
      obtain ⟨digits, law⟩ :=
        Decimal.add_digits (sourceDigits rfl) destinationDigits bit
      refine ⟨Decimal.add source.toUInt8 destination.toUInt8
        status.codes.extend, rfl, rfl, digits, ?_⟩
      simp only [ChainedOperation.exact, ChainedOperation.weight]
      omega
  | subtract =>
      obtain ⟨digits, law⟩ :=
        Decimal.sub_digits (sourceDigits rfl) destinationDigits bit
      refine ⟨Decimal.sub source.toUInt8 destination.toUInt8
        status.codes.extend, rfl, rfl, digits, ?_⟩
      simp only [ChainedOperation.exact, ChainedOperation.weight]
      omega
  | negate =>
      obtain ⟨digits, law⟩ := Decimal.sub_digits destinationDigits
        (show Numeration.decimal.IsDigit 0 from ⟨by decide, by decide⟩) bit
      have zero : Numeration.decimal.digit 0 = 0 := rfl
      refine ⟨Decimal.sub destination.toUInt8 0 status.codes.extend, rfl, rfl,
        digits, ?_⟩
      simp only [ChainedOperation.exact, ChainedOperation.weight]
      omega

/-- The instruction computes one byte of each number. -/
theorem executes_decimal (decimal : chain.numeration = .decimal)
    (byte : chain.size = .byte) (ready : chain.Ready 1 machine) :
    ∃ left, Execution.executeOpcode machine = .ok () left ∧
      chain.Runs 1 machine left ∧
      ∃ carry negative zero overflow,
        left.status.codes = .ofFlags carry negative zero overflow carry := by
  obtain ⟨source, destination, sourceNumber, destinationNumber,
    destinationDigits, executes⟩ := executes_result ready
  have number (value : UInt32) :
      chain.numeration.numberOf chain.size value =
        chain.numeration.digit value.toUInt8 := by
    rw [byte, Numeration.numberOf_byte]
  have digits (value : UInt32) :
      (∀ byte ∈ chain.size.bytesOf value, chain.numeration.IsDigit byte) ↔
        chain.numeration.IsDigit value.toUInt8 := by
    rw [byte]
    exact List.forall_mem_singleton
  rw [number] at destinationNumber
  rw [digits] at destinationDigits
  have sourceDigits (takes : chain.operation.takesSource = true) :
      chain.numeration.IsDigit source.toUInt8 :=
    (digits source).mp (sourceNumber takes).2
  have sourceDigit (takes : chain.operation.takesSource = true) :
      chain.sourceNumber 1 machine =
        chain.numeration.digit source.toUInt8 := by
    rw [(sourceNumber takes).1, number]
  obtain ⟨outcome, computed, keeps, valid, law⟩ :=
    compute_decimal decimal byte ready.codes sourceDigits destinationDigits
  have run : Execution.executeOpcode machine =
      .ok () (chain.replace machine outcome.value.toUInt32
        (outcome.codes machine.status.codes)) := by
    rw [executes _ _ computed, keeps]
    rfl
  rw [outcome.codes_eq ready.codes] at run
  refine ⟨_, run, ?_, outcome.carry, _, _, _, rfl⟩
  apply runs_one ready
  · exact ConditionCodes.inRange_ofFlags _ _ _ _ _
  · rw [digits, UInt8.toUInt8_toUInt32]
    exact valid
  · rw [ChainedOperation.exact_congr fun takes => congrArg Nat.cast
      (sourceDigit takes), destinationNumber, law, number,
      UInt8.toUInt8_toUInt32, ConditionCodes.toNat_extend_ofFlags, decimal,
      byte]
    rfl
  · rw [ConditionCodes.has_zero_ofFlags, number, UInt8.toUInt8_toUInt32,
      decimal, Decimal.digit_eq_zero]

/-! ## Whole numbers -/

/-- An operation on whole decimal numbers of so many bytes.  Nothing is said
about the negative and the overflow flag. -/
structure ComputesDecimal (chain : Chain) (count : Nat)
    (start left : Machine FlatMemory) : Prop
    extends chain.Keeps count start left where
  digits : left.memory.IsNumeral chain.numeration
    (start.endOf chain.destination) (chain.length count)
  result : (chain.resultNumber count start left : Int) =
    chain.exactResult count start % (100 ^ count : Nat)
  codes :
    let carry := !decide (0 ≤ chain.exactResult count start ∧
      chain.exactResult count start < (100 ^ count : Nat))
    ∃ negative overflow, left.status.codes =
      .ofFlags carry negative
        (start.status.codes.has Flag.zero &&
          chain.resultNumber count start left == 0) overflow carry

/-- So many executions of ABCD, SBCD or NBCD compute with whole decimal
numbers. -/
theorem executeTimes_computesDecimal (decimal : chain.numeration = .decimal)
    (byte : chain.size = .byte) (positive : 0 < count)
    (ready : chain.Ready count start) :
    ∃ left, Execution.executeTimes count start = .ok () left ∧
      chain.ComputesDecimal count start left := by
  obtain ⟨count, rfl⟩ := Nat.exists_eq_succ_of_ne_zero positive.ne'
  have executes ⦃machine : Machine FlatMemory⦄ (ready : chain.Ready 1 machine) :
      ∃ left, Execution.executeOpcode machine = .ok () left ∧
        chain.Runs 1 machine left := by
    obtain ⟨left, run, runs, -⟩ := executes_decimal decimal byte ready
    exact ⟨left, run, runs⟩
  obtain ⟨middle, run, before⟩ := exists_runs executes ready.of_succ
  obtain ⟨left, last, after, carry, negative, zero, overflow, codes⟩ :=
    executes_decimal decimal byte (before.ready ready)
  have runs := before.next ready after
  have scale : chain.numeration.base ^ chain.length (count + 1) =
      100 ^ (count + 1) := by
    rw [decimal, length, byte, OperandSize.bytes, Nat.one_mul]
    rfl
  refine ⟨left, ?_, runs.keeps ready, runs.digits, ?_, negative, overflow, ?_⟩
  · rw [Execution.executeTimes, Execution.bind_apply, run]
    exact last
  · rw [← scale]
    exact runs.resultNumber_eq
  · have carries : left.status.codes.extend.toNat = carry.toNat := by
      rw [codes, ConditionCodes.toNat_extend_ofFlags]
    rw [← scale, ← runs.carry_eq carries, ← runs.zero, codes,
      ConditionCodes.has_zero_ofFlags]

end Chain

namespace Machine

/-- SBCD -(A0),-(A1). -/
def decimalDifference : Chain where
  operation := .subtract
  numeration := .decimal
  size := .byte
  source := 0
  destination := 1

/-- A machine about to subtract 0042 from 1000. -/
def subtractingDigits : Machine FlatMemory where
  model := .mc68000
  opcode := decimalDifference.opcode
  registers := { address := #v[2, 4, 0, 0, 0, 0, 0, 0] }
  memory := ⟨#[0x00, 0x42, 0x10, 0x00]⟩

theorem subtractingDigits_ready :
    decimalDifference.Ready 2 subtractingDigits where
  decoded := decimalDifference.decode?_opcode (by decide) (by decide)
  sized := by decide
  codes := ⟨by decide, by decide⟩
  destination := ⟨by decide, by decide, by decide, by decide⟩
  source _ := ⟨by decide, by decide, by decide, by decide⟩
  apart _ := by decide
  destinationDigits := by decide
  sourceDigits _ := by decide

theorem subtractingDigits_computes :
    ∃ left, Execution.executeTimes 2 subtractingDigits = .ok () left ∧
      decimalDifference.ComputesDecimal 2 subtractingDigits left :=
  Chain.executeTimes_computesDecimal rfl rfl (by decide)
    subtractingDigits_ready

end Machine

end M68k

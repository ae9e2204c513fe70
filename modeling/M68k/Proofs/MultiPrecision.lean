import M68k.Proofs.OperandChains

/-!
# Multi-precision arithmetic

ADDX, SUBX and NEGX, executed operand by operand from the ends of two numbers,
add, subtract and negate the numbers.  The flags after the last operand are
those of the whole operation: carry and extend tell whether the exact result is
a number of that many bits, overflow tells it of the signed readings.
-/

namespace M68k

/-- The condition codes of an operation with carry whose result is a number of
some width, from its exact result in either reading.  Zero is what it was before
unless the result is not zero. -/
def ConditionCodes.ofExact (width result : Nat) (zero : Bool)
    (exact : Signedness → Int) : ConditionCodes :=
  let carry := !Signedness.unsigned.fits width (exact .unsigned)
  .ofFlags carry (2 ^ (width - 1) ≤ result) (zero && result == 0)
    (!Signedness.signed.fits width (exact .signed)) carry

/-! ## One operand -/

namespace FlagRule

variable {size : OperandSize} {source destination result : UInt32}
  {codes : ConditionCodes}

/-- The flags that both rules with carry set, whatever carry and overflow
are. -/
theorem setExtended_eq (sized : size ≠ .unsized) (inRange : codes.InRange)
    (overflow carry : Bool) :
    (((codes.setFlag Flag.negative (size.isNegative result)).clearZeroIf
        !(size.zeroExtend result == 0)).setFlag Flag.overflow
          overflow).setCarryAndExtend carry =
      .ofFlags carry (2 ^ (size.bits - 1) ≤ size.number result)
        (codes.has Flag.zero && size.number result == 0) overflow carry := by
  obtain ⟨extend, negative, zero, before, borrow, rfl⟩ :=
    inRange.exists_ofFlags
  rw [ConditionCodes.setFlag_negative_ofFlags,
    ConditionCodes.clearZeroIf_ofFlags,
    ConditionCodes.setFlag_overflow_ofFlags,
    ConditionCodes.setCarryAndExtend_ofFlags, ConditionCodes.has_zero_ofFlags,
    OperandSize.zeroExtend_eq_zero sized, OperandSize.isNegative_eq sized,
    Bool.not_not]

theorem apply_addExtended (sized : size ≠ .unsized) (inRange : codes.InRange)
    (sum : (size.number result : Int) =
      (size.number destination + size.number source + codes.extend.toNat) %
        (2 ^ size.bits : Nat)) :
    addExtended.apply size source destination result codes =
      .ofExact size.bits (size.number result) (codes.has Flag.zero)
        fun reading =>
          reading.read size.bits (size.number destination) +
            reading.read size.bits (size.number source) +
              codes.extend.toNat := by
  have bit : codes.extend.toNat ≤ 1 := inRange.extend
  rw [ConditionCodes.ofExact, Signedness.read_unsigned (size.number_lt _),
    Signedness.read_unsigned (size.number_lt _),
    ← addCarry_signsOf sized bit sum, ← addOverflow_signsOf sized bit sum]
  exact setExtended_eq sized inRange _ _

theorem apply_subExtended (sized : size ≠ .unsized) (inRange : codes.InRange)
    (difference : (size.number result : Int) =
      (size.number destination - size.number source - codes.extend.toNat) %
        (2 ^ size.bits : Nat)) :
    subExtended.apply size source destination result codes =
      .ofExact size.bits (size.number result) (codes.has Flag.zero)
        fun reading =>
          reading.read size.bits (size.number destination) -
            reading.read size.bits (size.number source) -
              codes.extend.toNat := by
  have bit : codes.extend.toNat ≤ 1 := inRange.extend
  rw [ConditionCodes.ofExact, Signedness.read_unsigned (size.number_lt _),
    Signedness.read_unsigned (size.number_lt _),
    ← subBorrow_signsOf sized bit difference,
    ← subOverflow_signsOf sized bit difference]
  exact setExtended_eq sized inRange _ _

end FlagRule

namespace Chain

variable {chain : Chain} {count : Nat}
  {machine start middle left : Machine FlatMemory}

/-- One operation computes its exact result as far as it fits, and the flags
tell whether it does. -/
theorem compute_binary (binary : chain.numeration = .binary)
    (sized : chain.size ≠ .unsized) {status : StatusRegister}
    (inRange : status.codes.InRange) (source destination : UInt32) :
    ∃ value,
      chain.dataOperation.compute status chain.size
          (chain.arranged source destination) =
        .result value chain.size status.codes ∧
      (chain.size.number value : Int) =
        chain.operation.exact (chain.size.number source)
            (chain.size.number destination) status.codes.extend.toNat %
          (2 ^ chain.size.bits : Nat) ∧
      chain.dataOperation.flagRule.apply chain.size
          (chain.arranged source destination).source
          (chain.arranged source destination).destination value status.codes =
        .ofExact chain.size.bits (chain.size.number value)
          (status.codes.has Flag.zero) fun reading =>
            chain.operation.exact
              (reading.read chain.size.bits (chain.size.number source))
              (reading.read chain.size.bits (chain.size.number destination))
              status.codes.extend.toNat := by
  obtain ⟨operation, numeration, size, first, second⟩ := chain
  obtain rfl : numeration = .binary := binary
  dsimp only at sized ⊢
  have widened : status.codes.extend.toUInt32.toNat =
      status.codes.extend.toNat := UInt8.toNat_toUInt32 _
  cases operation with
  | add =>
    have sum := size.number_add destination source status.codes.extend.toUInt32
    rw [widened] at sum
    exact ⟨_, rfl, sum, FlagRule.apply_addExtended sized inRange sum⟩
  | subtract =>
    have difference :=
      size.number_sub destination source status.codes.extend.toUInt32
    rw [widened] at difference
    exact ⟨_, rfl, difference,
      FlagRule.apply_subExtended sized inRange difference⟩
  | negate =>
    have difference :=
      size.number_sub 0 destination status.codes.extend.toUInt32
    have nothing : size.number 0 = 0 := Nat.zero_mod _
    rw [widened] at difference
    have flags := FlagRule.apply_subExtended sized inRange difference
    simp only [nothing, Signedness.read_zero] at difference flags
    exact ⟨_, rfl, difference, flags⟩

/-- The bits of a number of so many operands. -/
def width (chain : Chain) (count : Nat) : Nat :=
  chain.size.bits * count

/-- The exact result of the numbers in one reading. -/
def exactAs (chain : Chain) (count : Nat) (start : Machine FlatMemory)
    (reading : Signedness) : Int :=
  chain.operation.exact
    (reading.read (chain.width count) (chain.sourceNumber count start))
    (reading.read (chain.width count) (chain.destinationNumber count start))
    start.status.codes.extend.toNat

/-- A result and a carry make up an exact result, if the result is the exact one
as far as it fits and the carry tells that it does not. -/
theorem exact_eq_of_fits (operation : ChainedOperation) {width : Nat}
    (positive : 0 < width) {source destination extend result : Nat}
    (sourceBound : source < 2 ^ width)
    (destinationBound : destination < 2 ^ width) (bit : extend ≤ 1)
    (stored : (result : Int) =
      operation.exact source destination extend % (2 ^ width : Nat)) :
    operation.exact source destination extend =
      result + operation.weight * (2 ^ width : Nat) *
        (!Signedness.unsigned.fits width
          (operation.exact source destination extend)).toNat := by
  have range : -(2 ^ width : Nat) ≤
      operation.exact source destination extend ∧
        operation.exact source destination extend < 2 * (2 ^ width : Nat) := by
    cases operation <;> simp only [ChainedOperation.exact] <;> omega
  have wraps := emod_eq_or _ _ range.1 range.2
  cases fits : Signedness.unsigned.fits width
      (operation.exact source destination extend) with
  | true =>
      have bounds := (Signedness.unsigned.fits_iff positive _).mp fits
      rw [Signedness.least, zero_add] at bounds
      rw [Int.emod_eq_of_lt bounds.1 bounds.2] at stored
      simp [stored]
  | false =>
      have outside := mt (Signedness.unsigned.fits_iff positive _).mpr
        (Bool.eq_false_iff.mp fits)
      rw [Signedness.least, zero_add] at outside
      have nonnegative := Int.natCast_nonneg result
      have bounded : (result : Int) < (2 ^ width : Nat) := by
        rw [stored]
        exact Int.emod_lt_of_pos _ (by positivity)
      cases operation with
      | add | subtract | negate =>
          simp only [ChainedOperation.exact, ChainedOperation.weight,
            Bool.not_false, Bool.toNat_true] at *
          omega

/-- The instruction computes one operand, and its flags are those of the
operand. -/
theorem executes_binary (binary : chain.numeration = .binary)
    (ready : chain.Ready 1 machine) :
    ∃ left, Execution.executeOpcode machine = .ok () left ∧
      chain.Runs 1 machine left ∧
      left.status.codes =
        .ofExact (chain.width 1) (chain.resultNumber 1 machine left)
          (machine.status.codes.has Flag.zero) (chain.exactAs 1 machine) := by
  obtain ⟨source, destination, sourceNumber, destinationNumber, -, executes⟩ :=
    executes_result ready
  obtain ⟨value, computed, stored, flags⟩ :=
    compute_binary binary ready.sized ready.codes source destination
  have number (operand : UInt32) :
      chain.numeration.numberOf chain.size operand =
        chain.size.number operand := by
    rw [binary, Numeration.numberOf_binary]
  rw [number] at destinationNumber
  have sourceOperand (takes : chain.operation.takesSource = true) :
      chain.sourceNumber 1 machine = chain.size.number source := by
    rw [(sourceNumber takes).1, number]
  have bit : machine.status.codes.extend.toNat ≤ 1 := ready.codes.extend
  have one : chain.width 1 = chain.size.bits := Nat.mul_one _
  have exacts (reading : Signedness) : chain.exactAs 1 machine reading =
      chain.operation.exact
        (reading.read chain.size.bits (chain.size.number source))
        (reading.read chain.size.bits (chain.size.number destination))
        machine.status.codes.extend.toNat := by
    rw [exactAs, one, destinationNumber]
    apply ChainedOperation.exact_congr
    intro takes
    rw [sourceOperand takes]
  have plain := exacts .unsigned
  rw [Signedness.read_unsigned (chain.size.number_lt source),
    Signedness.read_unsigned (chain.size.number_lt destination)] at plain
  have run := executes value _ computed
  rw [flags, ← funext exacts] at run
  refine ⟨_, run, ?_, ?_⟩
  · apply runs_one ready
    · exact ConditionCodes.inRange_ofFlags _ _ _ _ _
    · intro byte member
      rw [binary]
      trivial
    · have scale : chain.numeration.base ^ chain.size.bytes =
          2 ^ chain.size.bits := by
        rw [binary, OperandSize.bits, pow_mul]
        rfl
      rw [ChainedOperation.exact_congr fun takes => congrArg Nat.cast
        (sourceOperand takes), destinationNumber, number, scale,
        ConditionCodes.ofExact, ConditionCodes.toNat_extend_ofFlags, plain]
      exact exact_eq_of_fits chain.operation
        (OperandSize.bits_pos ready.sized) (chain.size.number_lt source)
        (chain.size.number_lt destination) bit stored
    · rw [number, ConditionCodes.ofExact, ConditionCodes.has_zero_ofFlags]
  · rw [resultNumber_replace ready, number, one]
    rfl

/-! ## Whole numbers -/

/-- An operation on whole numbers of so many operands. -/
structure Computes (chain : Chain) (count : Nat)
    (start left : Machine FlatMemory) : Prop
    extends chain.Keeps count start left where
  result : (chain.resultNumber count start left : Int) =
    chain.exactAs count start .unsigned % (2 ^ chain.width count : Nat)
  codes : left.status.codes =
    .ofExact (chain.width count) (chain.resultNumber count start left)
      (start.status.codes.has Flag.zero) (chain.exactAs count start)

theorem base_pow_length (binary : chain.numeration = .binary) (count : Nat) :
    chain.numeration.base ^ chain.length count = 2 ^ chain.width count := by
  rw [binary, length, width, OperandSize.bits, Nat.mul_assoc]
  exact (pow_mul 2 8 _).symm

theorem width_succ (chain : Chain) (count : Nat) :
    chain.width (count + 1) = chain.width count + chain.size.bits :=
  Nat.mul_succ _ _

theorem numeral_lt_width (binary : chain.numeration = .binary)
    (memory : FlatMemory) (top count : Nat) :
    memory.numeral chain.numeration top (chain.length count) <
      2 ^ chain.width count := by
  rw [← base_pow_length binary]
  apply FlatMemory.numeral_lt
  rw [binary]
  exact memory.isNumeral_binary _ _

theorem exactAs_unsigned (binary : chain.numeration = .binary) (count : Nat)
    (start : Machine FlatMemory) :
    chain.exactAs count start .unsigned = chain.exactResult count start := by
  have source : chain.sourceNumber count start < 2 ^ chain.width count :=
    numeral_lt_width binary start.memory _ count
  have destination :
      chain.destinationNumber count start < 2 ^ chain.width count :=
    numeral_lt_width binary start.memory _ count
  rw [exactAs, Signedness.read_unsigned source,
    Signedness.read_unsigned destination, exactResult]

/-- The exact result of longer numbers is that of their upper operands over the
result so far. -/
theorem Runs.exactAs_succ (binary : chain.numeration = .binary)
    (ready : chain.Ready (count + 1) start)
    (runs : chain.Runs count start middle) (reading : Signedness) :
    chain.exactAs (count + 1) start reading =
      chain.exactAs 1 middle reading * (2 ^ chain.width count : Nat) +
        chain.resultNumber count start middle := by
  have positive := OperandSize.bits_pos ready.sized
  have scale := base_pow_length binary count
  have source (takes : chain.operation.takesSource = true) :
      reading.read (chain.width (count + 1))
          (chain.sourceNumber (count + 1) start) =
        reading.read (chain.width 1) (chain.sourceNumber 1 middle) *
            (2 ^ chain.width count : Nat) +
          chain.sourceNumber count start := by
    rw [runs.sourceNumber_succ ready takes, scale, width_succ, width,
      width, Nat.mul_one]
    exact reading.read_append positive _
      (numeral_lt_width binary start.memory _ count)
  have destination : reading.read (chain.width (count + 1))
          (chain.destinationNumber (count + 1) start) =
        reading.read (chain.width 1) (chain.destinationNumber 1 middle) *
            (2 ^ chain.width count : Nat) +
          chain.destinationNumber count start := by
    rw [runs.destinationNumber_succ ready, scale, width_succ, width,
      width, Nat.mul_one]
    exact reading.read_append positive _
      (numeral_lt_width binary start.memory _ count)
  have law := runs.law
  rw [scale] at law
  rw [exactAs, ChainedOperation.exact_congr source, destination,
    ChainedOperation.exact_append _ law, exactAs]

/-- The flags of the last operand are those of the whole numbers. -/
theorem Runs.computes (before : chain.Runs count start middle)
    (binary : chain.numeration = .binary)
    (ready : chain.Ready (count + 1) start)
    (after : chain.Runs 1 middle left)
    (codes : left.status.codes =
      .ofExact (chain.width 1) (chain.resultNumber 1 middle left)
        (middle.status.codes.has Flag.zero) (chain.exactAs 1 middle)) :
    chain.Computes (count + 1) start left := by
  have runs := before.next ready after
  have positive := OperandSize.bits_pos ready.sized
  have one : chain.width 1 = chain.size.bits := Nat.mul_one _
  have low : chain.resultNumber count start middle < 2 ^ chain.width count :=
    numeral_lt_width binary middle.memory _ count
  refine ⟨runs.keeps ready, ?_, ?_⟩
  · rw [exactAs_unsigned binary, ← base_pow_length binary]
    exact runs.resultNumber_eq
  · have fits (reading : Signedness) :
        reading.fits (chain.width (count + 1))
            (chain.exactAs (count + 1) start reading) =
          reading.fits (chain.width 1) (chain.exactAs 1 middle reading) := by
      rw [before.exactAs_succ binary ready, width_succ, one]
      exact reading.fits_append positive _ (Int.natCast_nonneg _)
        (by exact_mod_cast low)
    have zero : (middle.status.codes.has Flag.zero &&
          chain.resultNumber 1 middle left == 0) =
        (start.status.codes.has Flag.zero &&
          chain.resultNumber (count + 1) start left == 0) := by
      rw [← runs.zero, codes, ConditionCodes.ofExact,
        ConditionCodes.has_zero_ofFlags]
    have sign : 2 ^ (chain.width 1 - 1) ≤ chain.resultNumber 1 middle left ↔
        2 ^ (chain.width (count + 1) - 1) ≤
          chain.resultNumber (count + 1) start left := by
      have scale : 0 < 2 ^ chain.width count := Nat.two_pow_pos _
      have top : (chain.resultNumber 1 middle left * 2 ^ chain.width count +
          chain.resultNumber count start middle) / 2 ^ chain.width count =
          chain.resultNumber 1 middle left := by
        rw [Nat.add_comm, Nat.add_mul_div_right _ _ scale,
          Nat.div_eq_of_lt low, Nat.zero_add]
      rw [before.resultNumber_succ ready after, base_pow_length binary, one,
        width_succ, Nat.add_sub_assoc positive, pow_add,
        Nat.mul_comm (2 ^ chain.width count),
        ← Nat.le_div_iff_mul_le scale, top]
    rw [codes, ConditionCodes.ofExact, ConditionCodes.ofExact, zero, fits,
      fits, decide_eq_decide.mpr sign]

/-- So many executions of ADDX, SUBX or NEGX compute with whole numbers. -/
theorem executeTimes_computes (binary : chain.numeration = .binary)
    (positive : 0 < count) (ready : chain.Ready count start) :
    ∃ left, Execution.executeTimes count start = .ok () left ∧
      chain.Computes count start left := by
  obtain ⟨count, rfl⟩ := Nat.exists_eq_succ_of_ne_zero positive.ne'
  have executes ⦃machine : Machine FlatMemory⦄ (ready : chain.Ready 1 machine) :
      ∃ left, Execution.executeOpcode machine = .ok () left ∧
        chain.Runs 1 machine left := by
    obtain ⟨left, run, runs, -⟩ := executes_binary binary ready
    exact ⟨left, run, runs⟩
  obtain ⟨middle, run, before⟩ := exists_runs executes ready.of_succ
  obtain ⟨left, last, after, codes⟩ :=
    executes_binary binary (before.ready ready)
  refine ⟨left, ?_, before.computes binary ready after codes⟩
  rw [Execution.executeTimes, Execution.bind_apply, run]
  exact last

end Chain

namespace Machine

/-- ADDX.W -(A0),-(A1). -/
def wordSum : Chain where
  operation := .add
  numeration := .binary
  size := .word
  source := 0
  destination := 1

/-- A machine about to add two longs word by word. -/
def addingWords : Machine FlatMemory where
  model := .mc68000
  opcode := wordSum.opcode
  registers := { address := #v[4, 8, 0, 0, 0, 0, 0, 0] }
  memory := ⟨#[0x00, 0x01, 0xFF, 0xFF, 0x00, 0x02, 0x00, 0x01]⟩

theorem addingWords_ready : wordSum.Ready 2 addingWords where
  decoded := wordSum.decode?_opcode (by decide) (by decide)
  sized := by decide
  codes := ⟨by decide, by decide⟩
  destination := ⟨by decide, by decide, by decide, by decide⟩
  source _ := ⟨by decide, by decide, by decide, by decide⟩
  apart _ := by decide
  destinationDigits := FlatMemory.isNumeral_binary _ _ _
  sourceDigits _ := FlatMemory.isNumeral_binary _ _ _

theorem addingWords_computes :
    ∃ left, Execution.executeTimes 2 addingWords = .ok () left ∧
      wordSum.Computes 2 addingWords left :=
  Chain.executeTimes_computes rfl (by decide) addingWords_ready

end Machine

end M68k

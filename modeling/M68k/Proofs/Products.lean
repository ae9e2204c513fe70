import M68k.Proofs.Quotients

/-!
# Products

A multiplication stores as much of the exact product as fits and tells whether
that is all of it.  Two words always fit in a long and two longs in two, so
there dividing by the same operand undoes the multiplication.
-/

namespace M68k

/-! ## Exact products -/

namespace Signedness

variable {reading : Signedness} {narrow : Nat}

/-- A product fits in as many bits as both factors together. -/
theorem Represents.mul (positive : 0 < narrow) {first second : Int}
    (firstFits : reading.Represents narrow first)
    (secondFits : reading.Represents narrow second) :
    reading.Represents (narrow + narrow) (first * second) := by
  obtain ⟨firstLower, firstUpper⟩ := firstFits
  obtain ⟨secondLower, secondUpper⟩ := secondFits
  have double := two_pow_eq_double positive
  have half : 0 < 2 ^ (narrow - 1) := Nat.two_pow_pos _
  have square : (2 : Nat) ^ (narrow + narrow) = 2 ^ narrow * 2 ^ narrow :=
    pow_add _ _ _
  cases reading with
  | unsigned =>
      rw [least] at firstLower firstUpper secondLower secondUpper
      rw [zero_add] at firstUpper secondUpper
      refine ⟨mul_nonneg firstLower secondLower, ?_⟩
      rw [least, zero_add, square, Nat.cast_mul]
      exact mul_lt_mul'' firstUpper secondUpper firstLower secondLower
  | signed =>
      rw [least] at firstLower firstUpper secondLower secondUpper
      have firstSmall : |first| ≤ (2 ^ (narrow - 1) : Nat) := by
        rw [abs_le]
        omega
      have secondSmall : |second| ≤ (2 ^ (narrow - 1) : Nat) := by
        rw [abs_le]
        omega
      have small : |first * second| ≤
          (2 ^ (narrow - 1) * 2 ^ (narrow - 1) : Nat) := by
        rw [abs_mul, Nat.cast_mul]
        exact mul_le_mul firstSmall secondSmall (abs_nonneg _)
          (Int.natCast_nonneg _)
      have room : 0 < 2 ^ (narrow - 1) * 2 ^ (narrow - 1) :=
        Nat.mul_pos half half
      have doubled : (2 : Nat) ^ (narrow + narrow - 1) =
          2 * (2 ^ (narrow - 1) * 2 ^ (narrow - 1)) := by
        rw [Nat.add_sub_assoc positive, pow_add, double, mul_assoc]
      have doubledTwice : (2 : Nat) ^ (narrow + narrow) =
          4 * (2 ^ (narrow - 1) * 2 ^ (narrow - 1)) := by
        rw [square, double]
        ring
      rw [abs_le] at small
      rw [Represents, least, doubled, doubledTwice]
      omega

end Signedness

/-! ## Multiplied operands -/

namespace ProductOperand

variable {σ : Type}

/-- How a multiplication ends, once its operand is fetched. -/
inductive Multiplies (operand : ProductOperand) (fetched : Machine σ) :
    EStateM.Result Fault (Machine σ) Unit → Prop where
  | stored {number : Nat} {codes : ConditionCodes}
      (low : (number : Int) = operand.product fetched.registers %
        (2 ^ operand.places.wide : Nat))
      (whole : operand.places.holdsProducts = true →
        operand.reading.Represents operand.places.wide
            (operand.product fetched.registers) ∧
          operand.reading.read operand.places.wide number =
            operand.product fetched.registers)
      (shows : codes.Shows (2 ^ (operand.places.wide - 1) ≤ number)
        (number = 0)
        (¬operand.reading.Represents operand.places.wide
          (operand.product fetched.registers)) false)
      (extend : codes.extend = fetched.status.codes.extend) :
      operand.Multiplies fetched
        (.ok ()
          ({ fetched with
            registers := operand.places.setNumber fetched.registers
              number }.setConditionCodes codes))

/-- The exact product of an operand whose places hold it. -/
theorem represents_product {operand : ProductOperand}
    (holds : operand.places.holdsProducts = true) (registers : Registers) :
    operand.reading.Represents operand.places.wide
      (operand.product registers) := by
  have positive := operand.places.narrow_pos
  rw [ProductPlaces.wide_of_holdsProducts holds]
  exact (Signedness.represents_read _ positive _).mul positive
    (Signedness.represents_read _ positive _)

/-- The bits of the exact product are what a multiplication stores. -/
theorem Multiplies.ofBits {operand : ProductOperand} {fetched : Machine σ}
    {codes : ConditionCodes} {bits : BitVec operand.places.wide}
    (stored : bits =
      .ofInt operand.places.wide (operand.product fetched.registers))
    (shows : codes.Shows (2 ^ (operand.places.wide - 1) ≤ bits.toNat)
      (bits.toNat = 0)
      (¬operand.reading.Represents operand.places.wide
        (operand.product fetched.registers)) false)
    (extend : codes.extend = fetched.status.codes.extend) :
    operand.Multiplies fetched
      (.ok ()
        ({ fetched with
          registers := operand.places.setNumber fetched.registers
            bits.toNat }.setConditionCodes codes)) := by
  have low : (bits.toNat : Int) = operand.product fetched.registers %
      (2 ^ operand.places.wide : Nat) := by
    have nonnegative := Int.emod_nonneg (operand.product fetched.registers)
      (Int.natCast_ne_zero.mpr (Nat.two_pow_pos operand.places.wide).ne')
    rw [stored, BitVec.toNat_ofInt, Int.toNat_of_nonneg nonnegative]
  refine .stored low ?_ shows extend
  intro holds
  have fits := represents_product holds fetched.registers
  refine ⟨fits, Signedness.read_eq_of_fits ?_ ?_⟩
  · exact (Signedness.represents_iff _ operand.places.wide_pos _).mpr fits
  · show _ % _ = _ % _
    rw [low, Int.emod_emod]

end ProductOperand

/-! ## Multiplications -/

theorem FlagRule.shows_logic {size : OperandSize} (sized : size ≠ .unsized)
    (source destination result : UInt32) (codes : ConditionCodes) :
    (logic.apply size source destination result codes).Shows
      (2 ^ (size.bits - 1) ≤ size.number result) (size.number result = 0)
      false false := by
  have zero : (size.zeroExtend result == 0) =
      decide (size.number result = 0) := by
    rw [OperandSize.zeroExtend_eq_zero sized, beq_eq_decide]
  rw [← OperandSize.isNegative_eq sized, ← zero]
  exact codes.shows_setLogic _ _

namespace ProductForm

variable {σ : Type} [Memory σ] {machine : Machine σ}

theorem yields_multiplication_word (reading : Signedness)
    (mode : AddressingMode) (target : Fin 8) :
    (word reading mode target).Yields
      (Instruction.execute (word reading mode target).multiplication)
      ProductOperand.Multiplies machine := by
  refine yields_word fun value fetched sourceFetched => ?_
  let destination := fetched.registers.get (.data target)
  let operand : ProductOperand := ⟨reading, .word target, value⟩
  let bits := BitVec.ofInt 32 (operand.product fetched.registers)
  have destinationFetched : (Destination.dataRegister target).fetch .word
      fetched = .ok (some (.dataRegister target), destination) fetched := rfl
  have computes : reading.multiplication.compute fetched.status .word
      (DataInstruction.operands
        ⟨reading.multiplication, .word, .operand mode, .dataRegister target⟩
        value destination) =
        .result (.ofBitVec bits) .long fetched.status.codes := by
    have product : bits = .ofInt 32
        (reading.product destination.toUInt16.toBitVec
          value.toUInt16.toBitVec) := by
      rw [Signedness.product, reading.integerOf_toUInt16,
        reading.integerOf_toUInt16]
      rfl
    rw [product]
    cases reading <;> rfl
  have rule : DataInstruction.flagRule
      ⟨reading.multiplication, .word, .operand mode, .dataRegister target⟩ =
        .logic := by
    cases reading <;> rfl
  have shows (source destination : UInt32) : ConditionCodes.Shows
      (FlagRule.logic.apply .long source destination (.ofBitVec bits)
        fetched.status.codes)
      (2 ^ (operand.places.wide - 1) ≤ bits.toNat) (bits.toNat = 0)
      (¬operand.reading.Represents operand.places.wide
        (operand.product fetched.registers)) false := by
    have fits := operand.represents_product rfl fetched.registers
    have number : OperandSize.long.number (.ofBitVec bits) = bits.toNat :=
      OperandSize.number_long _
    rw [decide_eq_false (not_not_intro fits), ← number]
    exact FlagRule.shows_logic (by decide) _ _ _ _
  have multiplies (source destination : UInt32) :
      operand.Multiplies fetched
        (.ok () ({ fetched with
          registers := fetched.registers.set (.data target)
            (.ofNat bits.toNat) }.setConditionCodes
              (FlagRule.logic.apply .long source destination (.ofBitVec bits)
                fetched.status.codes))) :=
    .ofBits rfl (shows source destination) rfl
  have written : UInt32.ofNat bits.toNat = .ofBitVec bits :=
    UInt32.ofNat_toNat
  rw [written] at multiplies
  rw [DataInstruction.execute_of_result sourceFetched destinationFetched
    computes, DataInstruction.finish_of_written (by cases reading <;> rfl)
      (write_long _ _ _), rule]
  exact multiplies _ _

theorem product_operand (extension : LongOperands) (registers : Registers)
    (value : UInt32) :
    (extension.operand value).product registers =
      extension.signedness.product
        (registers.get (.data extension.low)).toBitVec value.toBitVec := by
  rw [Signedness.product, Signedness.integerOf_eq_read, ← integer_operand,
    ProductOperand.product, ProductOperand.multiplicand, LongOperands.operand,
    LongOperands.narrow_places, LongOperands.low_places]
  rfl

/-- The halves of a product of two longs. -/
theorem setNumber_quad (registers : Registers) (low high : Fin 8)
    (value : Int) :
    (ProductPlaces.quad low high).setNumber registers
        (BitVec.ofInt 64 value).toNat =
      (registers.set (.data high)
        (.ofBitVec ((BitVec.ofInt 64 value).extractLsb' 32 32))).set
          (.data low) (.ofBitVec (BitVec.ofInt 32 value)) := by
  have wide := BitVec.toNat_ofInt (n := 64) value
  have narrow := BitVec.toNat_ofInt (n := 32) value
  have lower : UInt32.ofNat (BitVec.ofInt 64 value).toNat =
      .ofBitVec (BitVec.ofInt 32 value) := by
    rw [← UInt32.toNat_inj, UInt32.toNat_ofNat', UInt32.toNat_ofBitVec]
    omega
  have upper : UInt32.ofNat ((BitVec.ofInt 64 value).toNat / 2 ^ 32) =
      .ofBitVec ((BitVec.ofInt 64 value).extractLsb' 32 32) := by
    rw [← UInt32.toNat_inj, UInt32.toNat_ofNat', UInt32.toNat_ofBitVec,
      BitVec.extractLsb'_toNat, Nat.shiftRight_eq_div_pow]
  rw [ProductPlaces.setNumber, lower, upper]

/-- The flags of long products. -/
theorem shows_bits {width : Nat} (codes : ConditionCodes)
    (bits : BitVec width) (overflow : Bool) :
    ((codes.setLogic bits.msb (bits == 0)).setFlag Flag.overflow
      overflow).Shows (2 ^ (width - 1) ≤ bits.toNat) (bits.toNat = 0)
        overflow false := by
  have zero : (bits == 0) = decide (bits.toNat = 0) := by
    have nothing : (0 : BitVec width).toNat = 0 := BitVec.toNat_zero
    rw [beq_eq_decide, decide_eq_decide, ← BitVec.toNat_inj, nothing]
  rw [← zero, ← BitVec.msb_eq_decide]
  exact (codes.shows_setLogic _ _).setOverflow overflow

theorem yields_multiplication_long (mode : AddressingMode) :
    (long mode).Yields (Instruction.execute (long mode).multiplication)
      ProductOperand.Multiplies machine := by
  show (long mode).Yields (Execution.mull mode) _ _
  unfold Execution.mull
  refine yields_long fun extension value fetched => ?_
  simp only [Execution.bind_apply, Execution.register, Execution.observe,
    ← product_operand]
  cases quad : extension.isQuad with
  | true =>
      simp only [if_true, Execution.bind_apply, Execution.setRegister,
        Execution.update, Execution.setResultFlags, Execution.status,
        Execution.observe, Execution.setConditionCodes,
        LongOperands.operand_of_quad quad, ← setNumber_quad]
      refine .ofBits rfl ?_ rfl
      rw [decide_eq_false (not_not_intro
        (ProductOperand.represents_product rfl fetched.registers))]
      exact shows_bits _ _ false
  | false =>
      have written (bits : BitVec 32) : UInt32.ofNat bits.toNat =
          .ofBitVec bits := UInt32.ofNat_toNat
      have overflow (value : Int) :
          (!extension.signedness.fits 32 value) =
            decide (¬extension.signedness.Represents 32 value) :=
        Signedness.not_fits_eq _ (by decide) value
      simp only [if_false, Execution.bind_apply, Execution.setRegister,
        Execution.update, Execution.setResultFlags, Execution.status,
        Execution.observe, Execution.setConditionCodes, Bool.false_eq_true,
        LongOperands.operand_of_long quad, overflow, ← written]
      exact .ofBits rfl (shows_bits _ _ _) rfl

/-- Both forms multiply alike. -/
theorem yields_multiplication (form : ProductForm) :
    form.Yields (Instruction.execute form.multiplication)
      ProductOperand.Multiplies machine := by
  cases form with
  | word reading mode target =>
      exact yields_multiplication_word reading mode target
  | long mode => exact yields_multiplication_long mode

theorem privilegedSince?_multiplication (form : ProductForm) :
    form.multiplication.privilegedSince? = none := by
  cases form with
  | word reading mode target => cases reading <;> rfl
  | long mode => rfl

end ProductForm

/-! ## Divided products -/

namespace ProductOperand

variable {σ : Type} [Memory σ]

/-- Dividing two longs of a product by the same operand, which is not zero,
stores the multiplicand and no remainder. -/
def IsUndone (operand : ProductOperand) (fetched : Machine σ)
    (outcome : EStateM.Result Fault (Machine σ) Unit) : Prop :=
  ∀ (left next ready : Machine σ) (mode : AddressingMode) (low high : Fin 8),
    outcome = .ok () left → operand.places = .quad low high → low ≠ high →
    operand.integer ≠ 0 → next.registers.data = left.registers.data →
    Instruction.decode? next.opcode = some (.divl mode) →
    ¬next.model < .mc68020 →
    (ProductForm.long mode).fetch next = .ok operand ready →
    ∃ codes : ConditionCodes,
      codes.Shows (topBit 32 (operand.multiplicand fetched.registers))
          (operand.multiplicand fetched.registers = 0) false false ∧
        Execution.executeOpcode next =
          .ok ()
            ({ ready with
              registers := (ready.registers.set (.data high) 0).set (.data low)
                (fetched.registers.get (.data low)) }.setConditionCodes codes)

/-- The places of a product are those of a dividend. -/
theorem dividend_setNumber {operand : ProductOperand} {low high : Fin 8}
    (places : operand.places = .quad low high) (apart : low ≠ high)
    {number : Nat} {registers ready : Registers}
    (lower : (number : Int) =
      operand.product registers % (2 ^ operand.places.wide : Nat))
    (whole : operand.reading.read operand.places.wide number =
      operand.product registers)
    (same : ready.data = (operand.places.setNumber registers number).data) :
    operand.dividend ready = operand.product registers := by
  have wide : operand.places.wide = 64 := by
    rw [places]
    rfl
  rw [wide] at lower
  have bounded : number < 2 ^ 64 := by
    have small := Int.emod_lt_of_pos (operand.product registers)
      (show (0 : Int) < (2 ^ 64 : Nat) by decide)
    rw [← lower] at small
    exact Int.ofNat_lt.mp small
  rw [dividend, ProductPlaces.number_congr _ same, ← whole, places,
    ProductPlaces.number_setNumber_quad apart _ bounded]

/-- A stored product is the dividend of the exact quotient that undoes it. -/
theorem Multiplies.isUndone {operand : ProductOperand} {fetched : Machine σ}
    {outcome : EStateM.Result Fault (Machine σ) Unit}
    (multiplies : operand.Multiplies fetched outcome) :
    operand.IsUndone fetched outcome := by
  intro left next ready mode low high ended places apart nonzero same decoded
    present refetched
  obtain @⟨number, codes, lower, whole, shows, extend⟩ := multiplies
  cases ended
  have executed : Execution.executeOpcode next =
      (ProductForm.long mode).division.execute next :=
    Execution.executeOpcode_of_admitted
      (Instruction.admit_of_present decoded present rfl next.isSupervisor)
  have yields := (ProductForm.long mode).yields_division.congr executed
  rw [ProductForm.Yields, refetched] at yields
  obtain ⟨data, -, divides⟩ := yields
  have dividend : operand.dividend ready.registers =
      operand.product fetched.registers :=
    dividend_setNumber places apart lower
      (whole (by rw [places]; rfl)).2 (data.trans same)
  have undone := IsExactQuotient.mul (operand.multiplicand fetched.registers)
    nonzero
  have narrow : operand.places.narrow = 32 := by
    rw [places]
    rfl
  have fits : operand.reading.Represents 32
      (operand.multiplicand fetched.registers) := by
    rw [multiplicand, narrow]
    exact Signedness.represents_read _ (by decide) _
  have kept : UInt32.ofInt (operand.multiplicand fetched.registers) =
      fetched.registers.get (.data low) := by
    rw [multiplicand, narrow, ofInt_read, places]
    rfl
  generalize Execution.executeOpcode next = result at divides ⊢
  cases divides with
  | byZero zero => exact (nonzero zero).elim
  | overflow exact tooLarge =>
      rw [dividend] at exact
      obtain ⟨rfl, -⟩ := undone.unique exact
      rw [narrow] at tooLarge
      exact (tooLarge fits).elim
  | @stored quotient remainder codes exact small shows extend =>
      rw [dividend] at exact
      obtain ⟨rfl, rfl⟩ := undone.unique exact
      rw [narrow] at shows
      refine ⟨codes, shows, ?_⟩
      rw [places, ProductPlaces.setQuotient, kept]
      rfl

end ProductOperand

/-- A multiplication stores as much of the exact product as fits, and the flags
of what it stores; division by the same operand undoes it if all of it fits in
two longs. -/
theorem Execution.executeOpcode_multiplication {σ : Type} [Memory σ]
    {machine : Machine σ} {instruction : Instruction}
    (decoded : Instruction.decode? machine.opcode = some instruction)
    (multiplies : instruction.isMultiplication = true)
    (present : ¬machine.model < instruction.since) :
    ∃ form : ProductForm, instruction = form.multiplication ∧
      form.Yields Execution.executeOpcode
        (fun operand fetched outcome =>
          operand.Multiplies fetched outcome ∧
            operand.IsUndone fetched outcome) machine := by
  obtain ⟨form, rfl⟩ := Instruction.exists_multiplication decoded multiplies
  have admitted := Instruction.admit_of_present decoded present
    form.privilegedSince?_multiplication machine.isSupervisor
  have yields := form.yields_multiplication.congr
    (executeOpcode_of_admitted admitted)
  exact ⟨form, rfl, yields.mono fun _ _ _ stored => ⟨stored, stored.isUndone⟩⟩

/-- A machine about to square the greatest long with MULU.L D2,D1:D0, whose
extension word is also that of the division that undoes it. -/
def Machine.squaringGreatest : Machine FlatMemory where
  model := .mc68020
  opcode := 0x4C02
  registers :=
    { data := #v[0xFFFFFFFF, 0, 0xFFFFFFFF, 0, 0, 0, 0, 0] }
  memory := ⟨#[0x04, 0x01, 0x04, 0x01]⟩

/-- The machine about to divide the square again with DIVU.L D2,D1:D0. -/
def Machine.dividingSquare : Machine FlatMemory :=
  { squaringGreatest with
    opcode := 0x4C42
    registers :=
      { data := #v[1, 0xFFFFFFFE, 0xFFFFFFFF, 0, 0, 0, 0, 0]
        pc := 2 } }

theorem Machine.squaringGreatest_multiplies :
    (ProductForm.long (.dataRegister 2)).fetch squaringGreatest =
        .ok ⟨.unsigned, .quad 0 1, 0xFFFFFFFF⟩ (squaringGreatest.withPc 2) ∧
      ∃ square quotient,
        Execution.executeOpcode squaringGreatest = .ok () square ∧
        square.registers = dividingSquare.registers ∧
        square.status.codes.Shows true false false false ∧
        Execution.executeOpcode dividingSquare = .ok () quotient ∧
        quotient.registers.data = squaringGreatest.registers.data ∧
        quotient.status.codes.Shows true false false false := by
  have fetched : (ProductForm.long (.dataRegister 2)).fetch squaringGreatest =
      .ok ⟨.unsigned, .quad 0 1, 0xFFFFFFFF⟩ (squaringGreatest.withPc 2) := rfl
  have refetched : (ProductForm.long (.dataRegister 2)).fetch dividingSquare =
      .ok ⟨.unsigned, .quad 0 1, 0xFFFFFFFF⟩ (dividingSquare.withPc 4) := rfl
  refine ⟨fetched, ?_⟩
  have decoded : Instruction.decode? squaringGreatest.opcode =
      some (.mull (.dataRegister 2)) := by decide
  obtain ⟨form, same, yields⟩ :=
    Execution.executeOpcode_multiplication decoded rfl (by decide)
  cases form with
  | word reading mode target => cases reading <;> cases same
  | long mode =>
      cases same
      rw [ProductForm.Yields, fetched] at yields
      obtain ⟨-, -, multiplies, undone⟩ := yields
      generalize Execution.executeOpcode squaringGreatest = result
        at multiplies undone ⊢
      cases multiplies with
      | @stored number codes low whole shows extend =>
          obtain rfl : number = 0xFFFFFFFE00000001 :=
            Int.natCast_inj.mp (low.trans (by decide))
          have flags : codes.Shows true false false false := by
            convert shows using 1 <;> decide
          obtain ⟨_, quotientFlags, divided⟩ := undone _ dividingSquare _ _ 0 1
            rfl rfl (by decide) (by decide) rfl (by decide) (by decide)
            refetched
          exact ⟨_, _, rfl, rfl, flags, divided, rfl, quotientFlags⟩

end M68k

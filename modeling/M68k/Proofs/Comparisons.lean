import M68k.Execution
import M68k.Memory.Flat
import M68k.Proofs.ConditionFlags
import M68k.Proofs.DataExecution
import M68k.Proofs.DecodedModes
import M68k.Proofs.FetchExecutions
import M68k.Proofs.LongIntegers
import M68k.Proofs.SignRules
import M68k.Proofs.StepPhases

/-!
# Comparisons

A subtraction leaves flags on which every condition is a comparison of its
operands, unsigned or signed.  Comparisons are subtractions that write nothing,
and the instructions that test a condition act on what it says.
-/

namespace M68k

/-! ## Conditions as comparisons -/

/-- The integer that the operand in a value stands for. -/
def OperandSize.integer (size : OperandSize) (value : UInt32) : Int :=
  Signedness.signed.read size.bits (size.number value)

section

variable (size : OperandSize) (source destination : UInt32)

/-- What a condition says after a source has been subtracted from a
destination. -/
def Condition.compares (condition : Condition) : Bool :=
  let difference := size.integer destination - size.integer source
  match condition with
  | always => true
  | never => false
  | higher => size.number destination > size.number source
  | lowerOrSame => size.number destination ≤ size.number source
  | carryClear => size.number destination ≥ size.number source
  | carrySet => size.number destination < size.number source
  | notEqual => size.number destination ≠ size.number source
  | equal => size.number destination = size.number source
  | overflowClear => Signedness.signed.Represents size.bits difference
  | overflowSet => ¬Signedness.signed.Represents size.bits difference
  | plus => !topBit size.bits difference
  | minus => topBit size.bits difference
  | greaterOrEqual => size.integer destination ≥ size.integer source
  | lessThan => size.integer destination < size.integer source
  | greaterThan => size.integer destination > size.integer source
  | lessOrEqual => size.integer destination ≤ size.integer source

/-- Every condition says on these flags how the operands compare. -/
def ConditionCodes.Decides (codes : ConditionCodes) : Prop :=
  ∀ condition : Condition,
    condition.holds codes.flags = condition.compares size source destination

/-- The flags of a difference. -/
def ConditionCodes.ShowsDifference (codes : ConditionCodes) : Prop :=
  let difference := size.integer destination - size.integer source
  codes.Shows (topBit size.bits difference)
    (size.number destination = size.number source)
    (¬Signedness.signed.Represents size.bits difference)
    (size.number destination < size.number source)

end

section

variable {size : OperandSize} {source destination : UInt32}
  (sized : size ≠ .unsized)

include sized

theorem OperandSize.integer_eq (value : UInt32) :
    size.integer value =
      if 2 ^ (size.bits - 1) ≤ size.number value then
        (size.number value : Int) - (2 ^ size.bits : Nat)
      else (size.number value : Int) :=
  Signedness.read_signed (bits_pos sized) (size.number_lt value)

/-- A difference is off by less than a modulus. -/
theorem OperandSize.difference_bounds (source destination : UInt32) :
    -(2 ^ size.bits : Nat) ≤ size.integer destination - size.integer source ∧
      size.integer destination - size.integer source <
        (2 ^ size.bits : Nat) := by
  have double := Signedness.two_pow_eq_double (bits_pos sized)
  have sourceBound := size.number_lt source
  have destinationBound := size.number_lt destination
  rw [integer_eq sized, integer_eq sized]
  split <;> split <;> omega

omit sized in
/-- The sign of a difference that may have overflowed. -/
theorem topBit_bne_overflow {width : Nat} (positive : 0 < width) {value : Int}
    (lower : -(2 ^ width : Nat) ≤ value) (upper : value < (2 ^ width : Nat)) :
    (topBit width value !=
        decide (¬Signedness.signed.Represents width value)) =
      decide (value < 0) := by
  have double := Signedness.two_pow_eq_double positive
  have stored := emod_eq_or value (2 ^ width : Nat) (by omega) (by omega)
  have bounded := Int.emod_lt_of_pos value
    (Int.natCast_pos.mpr (Nat.two_pow_pos width))
  have nonnegative := Int.emod_nonneg value
    (Int.natCast_ne_zero.mpr (Nat.two_pow_pos width).ne')
  rw [Bool.eq_iff_iff, bne_iff_ne, ne_eq, topBit, decide_eq_decide,
    decide_eq_true_eq, Signedness.Represents, Signedness.least]
  omega

theorem OperandSize.number_eq_iff (source destination : UInt32) :
    size.number destination = size.number source ↔
      size.integer destination = size.integer source := by
  have sourceBound := size.number_lt source
  have destinationBound := size.number_lt destination
  rw [integer_eq sized, integer_eq sized]
  split <;> split <;> omega

theorem ConditionCodes.ShowsDifference.decides {codes : ConditionCodes}
    (shows : codes.ShowsDifference size source destination) :
    codes.Decides size source destination := by
  obtain ⟨negative, zero, overflow, carry⟩ := shows
  obtain ⟨lower, upper⟩ :=
    OperandSize.difference_bounds sized source destination
  have less : (codes.has Flag.negative != codes.has Flag.overflow) =
      decide (size.integer destination < size.integer source) := by
    rw [negative, overflow,
      topBit_bne_overflow (OperandSize.bits_pos sized) lower upper,
      decide_eq_decide]
    omega
  have notLess : (codes.has Flag.negative == codes.has Flag.overflow) =
      decide (size.integer source ≤ size.integer destination) := by
    have flipped := congrArg not less
    rw [bne, Bool.not_not, ← decide_not] at flipped
    rw [flipped, decide_eq_decide]
    exact Int.not_lt
  have equal := OperandSize.number_eq_iff sized source destination
  simp only [has] at negative zero overflow carry less notLess
  intro condition
  cases condition with
  | always | never => rfl
  | equal => exact zero
  | carrySet => exact carry
  | overflowSet => exact overflow
  | minus => exact negative
  | plus => exact congrArg not negative
  | greaterOrEqual => exact notLess
  | lessThan => exact less
  | higher | lowerOrSame | carryClear | notEqual =>
      simp only [Condition.holds, Condition.compares, zero, carry]
      grind
  | overflowClear =>
      simp only [Condition.holds, Condition.compares, overflow]
      grind
  | greaterThan | lessOrEqual =>
      simp only [Condition.holds, Condition.compares, zero, less, notLess]
      grind

omit sized in
theorem OperandSize.number_difference (source destination : UInt32) :
    (size.number (destination - source) : Int) =
      (size.number destination - size.number source) %
        (2 ^ size.bits : Nat) := by
  have stored := size.number_sub destination source 0
  rw [UInt32.sub_zero, UInt32.toNat_zero, Nat.cast_zero, sub_zero] at stored
  exact stored

theorem OperandSize.isNegative_difference (source destination : UInt32) :
    size.isNegative (destination - source) =
      topBit size.bits (size.integer destination - size.integer source) := by
  have congruent : _ % _ = _ % _ :=
    (Signedness.signed.read_modEq size.bits (size.number destination)).sub
      (Signedness.signed.read_modEq size.bits (size.number source))
  rw [isNegative_eq sized, topBit, decide_eq_decide, integer, integer,
    congruent, ← number_difference, Nat.cast_le]

theorem OperandSize.zeroExtend_difference (source destination : UInt32) :
    (size.zeroExtend (destination - source) == 0) =
      decide (size.number destination = size.number source) := by
  have sourceBound := size.number_lt source
  have destinationBound := size.number_lt destination
  have stored := size.number_difference source destination
  obtain same | below | above := emod_eq_or
    (size.number destination - size.number source) (2 ^ size.bits : Nat)
    (by omega) (by omega)
  all_goals
    rw [zeroExtend_eq_zero sized, Bool.eq_iff_iff, beq_iff_eq,
      decide_eq_true_eq]
    omega

/-- The overflow of a difference, by its signs. -/
theorem FlagRule.subOverflow_difference (source destination : UInt32) :
    (signsOf size source destination (destination - source)).subOverflow =
      decide (¬Signedness.signed.Represents size.bits
        (size.integer destination - size.integer source)) := by
  have stored : (size.number (destination - source) : Int) =
      (size.number destination - size.number source - (0 : Nat)) %
        (2 ^ size.bits : Nat) := by
    rw [OperandSize.number_difference, Nat.cast_zero, sub_zero]
  rw [subOverflow_signsOf sized (Nat.zero_le 1) stored,
    Signedness.not_fits_eq _ (OperandSize.bits_pos sized), Nat.cast_zero,
    sub_zero]
  rfl

/-- The borrow of a difference, by its signs. -/
theorem FlagRule.subBorrow_difference (source destination : UInt32) :
    (signsOf size source destination (destination - source)).subBorrow =
      decide (size.number destination < size.number source) := by
  have sourceBound := size.number_lt source
  have destinationBound := size.number_lt destination
  have stored : (size.number (destination - source) : Int) =
      (size.number destination - size.number source - (0 : Nat)) %
        (2 ^ size.bits : Nat) := by
    rw [OperandSize.number_difference, Nat.cast_zero, sub_zero]
  rw [subBorrow_signsOf sized (Nat.zero_le 1) stored,
    Signedness.not_fits_eq _ (OperandSize.bits_pos sized), decide_eq_decide,
    Signedness.Represents, Signedness.least]
  omega

/-- Subtractions and comparisons show the flags of the difference. -/
theorem FlagRule.showsDifference {rule : FlagRule}
    (subtracts : rule = .sub ∨ rule = .compare) (codes : ConditionCodes) :
    (rule.apply size source destination (destination - source)
      codes).ShowsDifference size source destination := by
  have unfolded : ConditionCodes.Shows (rule.apply size source destination
      (destination - source) codes) (size.isNegative (destination - source))
        (size.zeroExtend (destination - source) == 0)
        (signsOf size source destination (destination - source)).subOverflow
        (signsOf size source destination
          (destination - source)).subBorrow := by
    have signed := ((((ConditionCodes.Shows.refl codes).setNegative
      (size.isNegative (destination - source))).setZero
        (size.zeroExtend (destination - source) == 0)).setOverflow
          (signsOf size source destination (destination - source)).subOverflow)
    obtain rfl | rfl := subtracts
    · exact signed.setCarryAndExtend _
    · exact signed.setCarry _
  rw [OperandSize.isNegative_difference sized,
    OperandSize.zeroExtend_difference sized, subOverflow_difference sized,
    subBorrow_difference sized] at unfolded
  exact unfolded

end

/-! ## Instructions that test a condition -/

namespace Execution

variable {σ α β : Type} [Memory σ]

/-- A condition is the same before and after a fetch. -/
theorem Locates.bind_test {first : Execution σ α} (locates : Locates first)
    (condition : Condition) (next : α → Bool → Execution σ β)
    (machine : Machine σ) :
    (first >>= fun value => test condition >>= next value) machine =
      (first >>= fun value =>
        next value (condition.holds machine.status.codes.flags)) machine := by
  have located := locates machine
  rw [bind_apply, bind_apply]
  cases run : first machine with
  | error fault left => rfl
  | ok value left =>
      rw [run] at located
      simp only [bind_apply, test, Execution.observe, located.status]

theorem Locates.skipWords (count : Nat) :
    Locates (σ := σ) (Execution.skipWords count) := by
  induction count with
  | zero => exact .pure ()
  | succ count induction =>
      exact Fetches.fetchWord.locates.bind fun _ => induction

/-! What the instructions do, if their condition is known. -/

def branchIf (displacement : UInt8) (holds : Bool) : Execution σ Unit := do
  let target ← branchTarget displacement
  if holds then
    setPc target

def countUnless (counter : Fin 8) (holds : Bool) : Execution σ Unit := do
  let base ← pc
  let target := base + (← fetchDisplacement)
  unless holds do
    let value ← register (.data counter)
    let count := value.toUInt16 - 1
    setRegister (.data counter) (OperandSize.word.merge value count.toUInt32)
    if count ≠ 0xFFFF then
      setPc target

def storeTruth (mode : AddressingMode) (holds : Bool) : Execution σ Unit := do
  let location ← mode.resolve .byte
  location.write .byte (if holds then 0xFF else 0)

def trapWhen (operandWords : Nat) (holds : Bool) : Execution σ Unit := do
  skipWords operandWords
  if holds then
    throw .conditionalTrap

end Execution

namespace Instruction

variable {σ : Type} [Memory σ]

/-- The condition that an instruction tests, and what it does then. -/
def conditional? :
    Instruction → Option (Condition × (Bool → Execution σ Unit))
  | bcc condition displacement =>
      some (condition, Execution.branchIf displacement)
  | dbcc condition counter => some (condition, Execution.countUnless counter)
  | data ⟨.scc condition, .byte, .none, .store mode⟩ =>
      some (condition, Execution.storeTruth mode)
  | trapcc condition operandWords =>
      some (condition, Execution.trapWhen operandWords)
  | _ => none

theorem execute_storeCondition (condition : Condition) (mode : AddressingMode)
    (machine : Machine σ) :
    DataInstruction.execute ⟨.scc condition, .byte, .none, .store mode⟩
        machine =
      Execution.storeTruth mode
        (condition.holds machine.status.codes.flags) machine := by
  have located := Execution.Locates.resolve mode .byte machine
  rw [Execution.storeTruth, Execution.bind_apply]
  cases run : mode.resolve .byte machine with
  | error fault left =>
      simp only [DataInstruction.execute, Source.fetch, Destination.fetch,
        Execution.bind_apply, Execution.pure_apply, run]
  | ok location left =>
      rw [run] at located
      have fetched : (Destination.store mode).fetch .byte machine =
          .ok (some location, 0) left := by
        simp only [Destination.fetch, Execution.bind_apply, run]
        rfl
      rw [DataInstruction.execute_of_result rfl fetched rfl,
        DataInstruction.finish_of_keep rfl rfl, ← located.status]
      rfl

theorem execute_conditional {instruction : Instruction} {condition : Condition}
    {act : Bool → Execution σ Unit}
    (conditional : instruction.conditional? = some (condition, act))
    (machine : Machine σ) :
    instruction.execute machine =
      act (condition.holds machine.status.codes.flags) machine := by
  unfold conditional? at conditional
  split at conditional
  · cases conditional
    exact (Execution.Fetches.branchTarget _).locates.bind_test _ _ machine
  · cases conditional
    exact Execution.Fetches.fetchDisplacement.locates.bind_test _ _ machine
  · cases conditional
    exact execute_storeCondition _ _ machine
  · cases conditional
    exact (Execution.Locates.skipWords _).bind_test _ _ machine
  · cases conditional

end Instruction

/-! ## Compared operands -/

/-- The sign extension of an operand is the long of its integer. -/
theorem OperandSize.signExtend_eq {size : OperandSize}
    (sized : size ≠ .unsized) (value : UInt32) :
    size.signExtend value = UInt32.ofInt (size.integer value) := by
  cases size with
  | byte =>
      rw [signExtend, signExtendByte_eq, UInt32.toNat_toUInt8]
      rfl
  | word =>
      rw [signExtend, signExtendWord_eq, UInt32.toNat_toUInt16]
      rfl
  | long =>
      rw [signExtend, integer, number_long]
      exact (ofInt_read .signed value).symm
  | unsized => exact absurd rfl sized

section

variable {σ : Type} [Memory σ]

/-- Instructions of the machine act on whether conditions hold. -/
def Machine.ActsOn (machine : Machine σ) (truth : Condition → Bool) : Prop :=
  ∀ instruction condition act,
    Instruction.admit machine.opcode machine.model machine.isSupervisor =
        .ok instruction →
      instruction.conditional? = some (condition, act) →
        Execution.executeOpcode machine = act (truth condition) machine

/-- Conditions say how operands compare, and whatever machine has the flags,
its instructions act on that. -/
structure Machine.HasCompared (machine : Machine σ) (size : OperandSize)
    (source destination : UInt32) : Prop where
  decides : machine.status.codes.Decides size source destination
  acts : ∀ next : Machine σ,
    next.status.codes.flags = machine.status.codes.flags →
      next.ActsOn (Condition.compares size source destination)

theorem ConditionCodes.Decides.hasCompared {machine : Machine σ}
    {size : OperandSize} {source destination : UInt32}
    (decides : machine.status.codes.Decides size source destination) :
    machine.HasCompared size source destination where
  decides
  acts := by
    intro next same instruction condition act admitted conditional
    rw [Execution.executeOpcode_of_admitted admitted,
      Instruction.execute_conditional conditional, same, decides condition]

namespace DataInstruction

/-- Comparisons, and subtractions from data. -/
def isSubtraction (instruction : DataInstruction) : Bool :=
  instruction.operation == .cmp ||
    instruction.operation == .sub && !instruction.destination.isAddressRegister

/-- A subtraction has a size, and writes to an operand or a data register. -/
theorem subtraction_of_isFormed {instruction : DataInstruction}
    (formed : instruction.IsFormed)
    (subtracts : instruction.isSubtraction = true) :
    instruction.size ≠ .unsized ∧
      (instruction.operation = .sub →
        (∃ mode, instruction.destination = .operand mode) ∨
          ∃ number, instruction.destination = .dataRegister number) := by
  simp only [isSubtraction, Bool.or_eq_true, Bool.and_eq_true, beq_iff_eq,
    Bool.not_eq_true'] at subtracts
  have operation : instruction.operation ∈ [DataOperation.cmp, .sub] := by
    obtain compares | ⟨subtracts, -⟩ := subtracts
    · rw [compares]
      exact List.mem_cons_self
    · rw [subtracts]
      exact List.mem_cons_of_mem _ List.mem_cons_self
  have apart {operations : List DataOperation}
      (operates : instruction.operation ∈ operations)
      (others : ∀ other ∈ operations,
        other ∉ [DataOperation.cmp, .sub]) : False :=
    others _ operates operation
  cases formed with
  | immediate operates sized alterable =>
      exact ⟨sized, fun _ => .inl ⟨_, rfl⟩⟩
  | compareImmediate sized readable => exact ⟨sized, fun _ => .inl ⟨_, rfl⟩⟩
  | quick operates sized counts alterable =>
      exact ⟨sized, fun _ => .inl ⟨_, rfl⟩⟩
  | toMemory number operates sized alterable =>
      exact ⟨sized, fun _ => .inl ⟨_, rfl⟩⟩
  | toRegister number operates sized readable =>
      exact ⟨sized, fun _ => .inr ⟨_, rfl⟩⟩
  | onAddress number operates whole =>
      obtain rfl | ⟨-, data⟩ := subtracts
      · refine ⟨?_, fun subtracts => nomatch subtracts⟩
        obtain rfl | rfl := whole <;> exact OperandSize.noConfusion
      · cases data
  | quickToAddress number operates counts =>
      obtain rfl | ⟨-, data⟩ := subtracts
      · simp at operates
      · cases data
  | compareMemory source destination sized =>
      exact ⟨sized, fun _ => .inl ⟨_, rfl⟩⟩
  | unary operates | unaryByte operates | storeStatus operates
  | product number operates =>
      exact (apart operates (by decide)).elim
  | extendedRegisters source destination operates
  | extendedMemory source destination operates =>
      obtain ⟨operates, -⟩ | ⟨operates, -⟩ := operates
      · exact (apart operates (by decide)).elim
      · exact (apart operates (by decide)).elim
  | inRegister number operates =>
      have operates := List.mem_map_of_mem (f := Prod.fst) operates
      exact (apart operates (by decide)).elim
  | _ => simp at operation

/-- How a comparison or subtraction ends, once its operands are fetched.  Data
is compared at the size of the instruction, an address as a long with the
integer that the source stands for. -/
inductive Subtracts (instruction : DataInstruction)
    (source destination : UInt32) (fetched : Machine σ) :
    Option Location → EStateM.Result Fault (Machine σ) Unit → Prop where
  | compared {location : Option Location} {codes : ConditionCodes}
      (compares : instruction.operation = .cmp)
      (data : instruction.destination.isAddressRegister = false)
      (extend : codes.extend = fetched.status.codes.extend)
      (sets : (fetched.setConditionCodes codes).HasCompared instruction.size
        source destination) :
      instruction.Subtracts source destination fetched location
        (.ok () (fetched.setConditionCodes codes))
  | comparedAddress {number : Fin 8} {location : Option Location}
      {codes : ConditionCodes}
      (compares : instruction.operation = .cmp)
      (whole : instruction.destination = .addressRegister number)
      (extend : codes.extend = fetched.status.codes.extend)
      (sets : (fetched.setConditionCodes codes).HasCompared .long
        (.ofInt (instruction.size.integer source)) destination) :
      instruction.Subtracts source destination fetched location
        (.ok () (fetched.setConditionCodes codes))
  | written {location : Location} {codes : ConditionCodes}
      {written : Machine σ}
      (subtracts : instruction.operation = .sub)
      (writes : location.write instruction.size (destination - source)
        fetched = .ok () written)
      (sets : (written.setConditionCodes codes).HasCompared instruction.size
        source destination) :
      instruction.Subtracts source destination fetched (some location)
        (.ok () (written.setConditionCodes codes))
  | refused {location : Location} {fault : Fault} {left : Machine σ}
      (subtracts : instruction.operation = .sub)
      (writes : location.write instruction.size (destination - source)
        fetched = .error fault left) :
      instruction.Subtracts source destination fetched (some location)
        (.error fault left)

end DataInstruction

/-- The opcode of a machine fetches its operands and compares them. -/
def Machine.Subtracts (machine : Machine σ) (instruction : DataInstruction) :
    Prop :=
  match instruction.fetchOperands machine with
  | .error fault left => Execution.executeOpcode machine = .error fault left
  | .ok (source, location, destination) fetched =>
      OnlyLocated machine fetched ∧
        instruction.Subtracts source destination fetched location
          (Execution.executeOpcode machine)

namespace DataInstruction

variable {instruction : DataInstruction}

/-- An address is combined with the integer that the source stands for. -/
theorem widen_of_address {number : Fin 8}
    (whole : instruction.destination = .addressRegister number)
    (sized : instruction.size ≠ .unsized) (source : UInt32) :
    instruction.widen source =
      UInt32.ofInt (instruction.size.integer source) := by
  rw [widen, whole]
  exact OperandSize.signExtend_eq sized source

section

variable (subtracts : instruction.operation = .cmp ∨
    instruction.operation = .sub)

include subtracts

theorem operands_subtraction (source destination : UInt32) :
    instruction.operands source destination =
      ⟨instruction.widen source, destination⟩ := by
  rw [operands]
  obtain subtracts | subtracts := subtracts <;> rw [subtracts] <;> rfl

theorem compute_subtraction (status : StatusRegister) (size : OperandSize)
    (source destination : UInt32) :
    instruction.operation.compute status size
        (instruction.operands source destination) =
      .result (destination - instruction.widen source) size status.codes := by
  rw [operands_subtraction subtracts]
  obtain subtracts | subtracts := subtracts <;> rw [subtracts] <;> rfl

end

variable {source destination : UInt32} {middle fetched : Machine σ}
  {machine : Machine σ} {location : Option Location}
  (sourceFetched : instruction.source.fetch instruction.size machine =
    .ok source middle)
  (destinationFetched : instruction.destination.fetch instruction.size middle =
    .ok (location, destination) fetched)
  (sized : instruction.size ≠ .unsized)

include sourceFetched destinationFetched sized

theorem subtracts_of_compares (compares : instruction.operation = .cmp) :
    instruction.Subtracts source destination fetched location
      (instruction.execute machine) := by
  have rule : instruction.flagRule = .compare := by
    rw [flagRule, compares]
    split <;> rfl
  rw [execute_of_result sourceFetched destinationFetched
    (compute_subtraction (.inl compares) _ _ _ _),
    finish_of_unwritten (by rw [compares]; rfl), rule,
    operands_subtraction (.inl compares)]
  cases place : instruction.destination with
  | addressRegister number =>
      rw [workingSize_of_address place, widen_of_address place sized]
      refine .comparedAddress compares place rfl
        (ConditionCodes.Decides.hasCompared ?_)
      exact (FlagRule.showsDifference OperandSize.noConfusion (.inr rfl)
        _).decides OperandSize.noConfusion
  | none | dataRegister number | operand mode | store mode =>
      have data : instruction.destination.isAddressRegister = false := by
        rw [place]
        rfl
      rw [workingSize_of_data data, widen_of_data data]
      refine .compared compares data rfl
        (ConditionCodes.Decides.hasCompared ?_)
      exact (FlagRule.showsDifference sized (.inr rfl) _).decides sized

theorem subtracts_of_sub (subtracts : instruction.operation = .sub)
    (data : instruction.destination.isAddressRegister = false)
    {place : Location} (placed : location = some place) :
    instruction.Subtracts source destination fetched location
      (instruction.execute machine) := by
  subst placed
  have rule : instruction.flagRule = .sub := by
    rw [flagRule, subtracts]
    cases destination : instruction.destination with
    | addressRegister number =>
        rw [destination] at data
        cases data
    | _ => rfl
  have size := workingSize_of_data data
  have whole := widen_of_data data source
  rw [execute_of_result sourceFetched destinationFetched
    (compute_subtraction (.inr subtracts) _ _ _ _)]
  have writes : instruction.operation.writes = true := by
    rw [subtracts]
    rfl
  rw [operands_subtraction (.inr subtracts)]
  cases run : place.write instruction.size (destination - source) fetched with
  | error fault left =>
      rw [finish_of_refused writes (by rw [size, whole]; exact run)]
      exact .refused subtracts run
  | ok done written =>
      rw [finish_of_written writes (by rw [size, whole]; exact run), rule,
        size, whole]
      refine .written subtracts run (ConditionCodes.Decides.hasCompared ?_)
      exact (FlagRule.showsDifference sized (.inl rfl) _).decides sized

end DataInstruction

end

/-- Operands and data registers are places to write to. -/
theorem Destination.exists_place {σ : Type} [Memory σ]
    {destination : Destination} {size : OperandSize}
    {machine left : Machine σ} {location : Option Location} {value : UInt32}
    (place : (∃ mode, destination = .operand mode) ∨
      ∃ number, destination = .dataRegister number)
    (run : destination.fetch size machine = .ok (location, value) left) :
    ∃ place, location = some place := by
  refine exists_location ?_ run
  obtain ⟨mode, rfl⟩ | ⟨number, rfl⟩ := place <;>
    exact Destination.noConfusion

/-- A comparison compares its operands and writes nothing but flags; so does a
subtraction from data, which also writes the difference. -/
theorem Execution.executeOpcode_subtraction {σ : Type} [Memory σ]
    {machine : Machine σ} {instruction : DataInstruction}
    (decoded : Instruction.decode? machine.opcode = some (.data instruction))
    (subtracts : instruction.isSubtraction = true)
    (present : ¬machine.model < instruction.since) :
    machine.Subtracts instruction := by
  obtain ⟨sized, places⟩ := DataInstruction.subtraction_of_isFormed
    (Instruction.isFormed_of_decode? decoded) subtracts
  have unreserved :
      (Instruction.data instruction).privilegedSince? = none := by
    simp only [DataInstruction.isSubtraction, Bool.or_eq_true,
      Bool.and_eq_true, beq_iff_eq] at subtracts
    refine if_neg ?_
    obtain compares | ⟨subtracts, -⟩ := subtracts
    · rw [compares]
      exact DataOperation.noConfusion
    · rw [subtracts]
      exact DataOperation.noConfusion
  have executed : executeOpcode machine = instruction.execute machine :=
    executeOpcode_of_admitted
      (Instruction.admit_of_present decoded present unreserved _)
  have located := instruction.locates_fetchOperands machine
  rw [Machine.Subtracts, executed]
  cases fetches : instruction.fetchOperands machine with
  | error fault left => exact DataInstruction.execute_of_unfetched fetches
  | ok found fetched =>
      obtain ⟨source, location, destination⟩ := found
      rw [fetches] at located
      obtain ⟨middle, sourceFetched, destinationFetched⟩ :=
        DataInstruction.fetchOperands_eq_ok fetches
      refine ⟨located, ?_⟩
      simp only [DataInstruction.isSubtraction, Bool.or_eq_true,
        Bool.and_eq_true, beq_iff_eq, Bool.not_eq_true'] at subtracts
      obtain compares | ⟨subtracts, data⟩ := subtracts
      · exact DataInstruction.subtracts_of_compares sourceFetched
          destinationFetched sized compares
      · obtain ⟨place, placed⟩ := Destination.exists_place
          (places subtracts) destinationFetched
        exact DataInstruction.subtracts_of_sub sourceFetched
          destinationFetched sized subtracts data placed

/-- A machine about to compare an address with the sign extension of a word, by
CMPA.W D1,A0. -/
def Machine.comparingAddress : Machine FlatMemory where
  model := .mc68000
  opcode := 0xB0C1
  registers :=
    { data := #v[0, 0x8000, 0, 0, 0, 0, 0, 0]
      address := #v[0x8000, 0, 0, 0, 0, 0, 0, 0] }
  memory := ⟨#[]⟩

theorem Machine.comparingAddress_subtracts :
    DataInstruction.fetchOperands
        ⟨.cmp, .word, .operand (.dataRegister 1), .addressRegister 0⟩
        comparingAddress =
      .ok (0x8000, some (.addressRegister 0), 0x8000) comparingAddress ∧
    ∃ codes : ConditionCodes,
      Execution.executeOpcode comparingAddress =
        .ok () (comparingAddress.setConditionCodes codes) ∧
      codes.extend = comparingAddress.status.codes.extend ∧
      Condition.greaterThan.holds codes.flags = true ∧
      Condition.carrySet.holds codes.flags = true := by
  refine ⟨rfl, ?_⟩
  have subtracts : comparingAddress.Subtracts
      ⟨.cmp, .word, .operand (.dataRegister 1), .addressRegister 0⟩ :=
    Execution.executeOpcode_subtraction (by decide) rfl (by decide)
  obtain ⟨-, ends⟩ := subtracts
  generalize Execution.executeOpcode comparingAddress = result at ends
  cases ends with
  | compared compares data => cases data
  | comparedAddress compares whole extend sets =>
      exact ⟨_, rfl, extend, (sets.decides .greaterThan).trans (by decide),
        (sets.decides .carrySet).trans (by decide)⟩
  | written subtracts => cases subtracts
  | refused subtracts => cases subtracts

end M68k

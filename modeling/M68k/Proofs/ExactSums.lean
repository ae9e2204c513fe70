import M68k.Proofs.Comparisons
import M68k.Proofs.LongIntegers

/-!
# Exact sums, differences and negations

Additions, subtractions and negations store the exact result modulo the size of
the operands, and their flags tell how the exact result relates to what is
stored: carry and extend for the unsigned operands, overflow for the signed
ones.  The carry is not computed as such but read off sign bits, with operands
that may have anything above their size.  On an address register the same
operations work on longs, with the source sign extended, and set no flag.
-/

namespace M68k

/-- Operations with an exact result. -/
inductive ExactOperation where
  | addition
  | subtraction
  | negation
deriving DecidableEq, Repr

namespace ExactOperation

def operation : ExactOperation → DataOperation
  | addition => .add
  | subtraction => .sub
  | negation => .neg

/-- The exact result for the integers that the operands stand for. -/
def result (exact : ExactOperation) (source destination : Int) : Int :=
  match exact with
  | addition => destination + source
  | subtraction => destination - source
  | negation => -destination

/-- Whether the unsigned operands give a carry out of their size, or borrow
from beyond it. -/
def carries (exact : ExactOperation) (width source destination : Nat) : Bool :=
  match exact with
  | addition => 2 ^ width ≤ destination + source
  | subtraction => destination < source
  | negation => destination ≠ 0

/-- What is computed of the operands as they were fetched. -/
def value (exact : ExactOperation) (source destination : UInt32) : UInt32 :=
  match exact with
  | addition => destination + source
  | subtraction => destination - source
  | negation => 0 - destination

variable (exact : ExactOperation) (size : OperandSize)
  (source destination : UInt32)

theorem number_value :
    (size.number (exact.value source destination) : Int) =
      exact.result (size.number source) (size.number destination) %
        (2 ^ size.bits : Nat) := by
  cases exact with
  | addition =>
      have stored := size.number_add destination source 0
      rw [UInt32.add_zero, UInt32.toNat_zero, Nat.cast_zero,
        Int.add_zero] at stored
      exact stored
  | subtraction => exact size.number_difference source destination
  | negation =>
      have stored := size.number_difference destination 0
      have zero : size.number 0 = 0 := Nat.zero_mod _
      rw [zero, Nat.cast_zero, Int.zero_sub] at stored
      exact stored

theorem compute_arrange (status : StatusRegister) :
    exact.operation.compute status size
        (exact.operation.arrange size ⟨source, destination⟩) =
      .result (exact.value source destination) size status.codes := by
  cases exact <;> rfl

end ExactOperation

/-! ## Flags -/

/-- The flags of an exact result and of the value that is stored for it. -/
structure ConditionCodes.ShowsExact (codes : ConditionCodes)
    (exact : ExactOperation) (size : OperandSize)
    (source destination value : UInt32) : Prop where
  flags : codes.Shows (2 ^ (size.bits - 1) ≤ size.number value)
    (size.number value = 0)
    (¬Signedness.signed.Represents size.bits
      (exact.result (size.integer source) (size.integer destination)))
    (exact.carries size.bits (size.number source) (size.number destination))
  extend : codes.extend =
    if exact.carries size.bits (size.number source) (size.number destination)
    then 1 else 0

theorem OperandSize.integer_zero (size : OperandSize) :
    size.integer 0 = 0 := by
  have zero : size.number 0 = 0 := Nat.zero_mod _
  rw [integer, zero, Signedness.read_zero]

section

variable {size : OperandSize} {source destination : UInt32}
  (sized : size ≠ .unsized)

include sized

/-- The flags that additions and subtractions set, by their signs. -/
theorem ConditionCodes.ShowsExact.ofSigns {exact : ExactOperation}
    {value : UInt32} {overflow carry : Bool} (codes : ConditionCodes)
    (overflows : overflow = decide (¬Signedness.signed.Represents size.bits
      (exact.result (size.integer source) (size.integer destination))))
    (carries : carry = exact.carries size.bits (size.number source)
      (size.number destination)) :
    ((((codes.setFlag Flag.negative (size.isNegative value)).setFlag Flag.zero
      (size.zeroExtend value == 0)).setFlag Flag.overflow
        overflow).setCarryAndExtend carry).ShowsExact exact size source
          destination value where
  flags := by
    rw [← carries, ← overflows, ← OperandSize.isNegative_eq sized,
      ← beq_eq_decide, ← OperandSize.zeroExtend_eq_zero sized]
    exact ((((Shows.refl codes).setNegative _).setZero _).setOverflow
      _).setCarryAndExtend _
  extend := by
    rw [← carries]
    rfl

namespace FlagRule

omit sized in
theorem number_addition (size : OperandSize) (source destination : UInt32) :
    (size.number (destination + source) : Int) =
      (size.number destination + size.number source + (0 : Nat)) %
        (2 ^ size.bits : Nat) := by
  rw [Nat.cast_zero, add_zero]
  exact ExactOperation.addition.number_value size source destination

theorem addOverflow_sum (source destination : UInt32) :
    (signsOf size source destination (destination + source)).addOverflow =
      decide (¬Signedness.signed.Represents size.bits
        (size.integer destination + size.integer source)) := by
  rw [addOverflow_signsOf sized (Nat.zero_le 1) (number_addition ..),
    Signedness.not_fits_eq _ (OperandSize.bits_pos sized), Nat.cast_zero,
    add_zero]
  rfl

theorem addCarry_sum (source destination : UInt32) :
    (signsOf size source destination (destination + source)).addCarry =
      decide (2 ^ size.bits ≤
        size.number destination + size.number source) := by
  rw [addCarry_signsOf sized (Nat.zero_le 1) (number_addition ..),
    Signedness.not_fits_eq _ (OperandSize.bits_pos sized), decide_eq_decide,
    Signedness.Represents, Signedness.least]
  omega

/-- The flags are those of the exact result. -/
theorem showsExact (exact : ExactOperation) (codes : ConditionCodes) :
    (exact.operation.flagRule.apply size
      (exact.operation.arrange size ⟨source, destination⟩).source
      (exact.operation.arrange size ⟨source, destination⟩).destination
      (exact.value source destination) codes).ShowsExact exact size source
        destination (exact.value source destination) := by
  cases exact with
  | addition =>
      exact .ofSigns sized codes (addOverflow_sum sized source destination)
        (addCarry_sum sized source destination)
  | subtraction =>
      exact .ofSigns sized codes
        (subOverflow_difference sized source destination)
        (subBorrow_difference sized source destination)
  | negation =>
      -- A negation is a subtraction from zero.
      refine .ofSigns sized codes ?_ ?_
      · have overflow := subOverflow_difference sized destination 0
        rw [size.integer_zero, Int.zero_sub] at overflow
        exact overflow
      · have borrow := subBorrow_difference sized destination 0
        have zero : size.number 0 = 0 := Nat.zero_mod _
        rw [zero, decide_eq_decide.mpr Nat.pos_iff_ne_zero] at borrow
        exact borrow

end FlagRule

end

/-! ## Address registers -/

theorem toNat_ofInt_modEq (value : Int) :
    ((UInt32.ofInt value).toNat : Int) ≡ value [ZMOD (2 ^ 32 : Nat)] := by
  rw [toNat_ofInt]
  exact Int.mod_modEq _ _

/-- Longs of integers are computed like the integers. -/
theorem ExactOperation.value_ofInt (exact : ExactOperation) (source : Int)
    (destination : UInt32) :
    exact.value (UInt32.ofInt source) destination =
      UInt32.ofInt (exact.result source destination.toNat) := by
  have stored := exact.number_value .long (UInt32.ofInt source) destination
  rw [OperandSize.number_long, OperandSize.number_long,
    OperandSize.number_long] at stored
  have congruent : exact.result source destination.toNat ≡
      exact.result (UInt32.ofInt source).toNat destination.toNat
        [ZMOD (2 ^ 32 : Nat)] := by
    have source := (toNat_ofInt_modEq source).symm
    cases exact with
    | addition => exact source.add_left _
    | subtraction => exact source.sub_left _
    | negation => rfl
  refine (ofInt_eq_of_modEq (congruent.trans ?_)).symm
  rw [stored]
  exact (Int.mod_modEq _ _).symm

/-! ## Instructions -/

section

variable {σ : Type} [Memory σ]

/-- How an exact operation ends, once its operands are fetched. -/
inductive DataInstruction.Combines (instruction : DataInstruction)
    (exact : ExactOperation) (source destination : UInt32)
    (fetched : Machine σ) :
    Option Location → EStateM.Result Fault (Machine σ) Unit → Prop where
  | stored {place : Location} {value : UInt32} {codes : ConditionCodes}
      {written : Machine σ}
      (data : instruction.destination.isAddressRegister = false)
      (stores : (instruction.size.number value : Int) =
        exact.result (instruction.size.number source)
          (instruction.size.number destination) %
            (2 ^ instruction.size.bits : Nat))
      (writes : place.write instruction.size value fetched = .ok () written)
      (shows : codes.ShowsExact exact instruction.size source destination
        value) :
      instruction.Combines exact source destination fetched (some place)
        (.ok () (written.setConditionCodes codes))
  | refused {place : Location} {value : UInt32} {fault : Fault}
      {left : Machine σ}
      (data : instruction.destination.isAddressRegister = false)
      (stores : (instruction.size.number value : Int) =
        exact.result (instruction.size.number source)
          (instruction.size.number destination) %
            (2 ^ instruction.size.bits : Nat))
      (refuses : place.write instruction.size value fetched =
        .error fault left) :
      instruction.Combines exact source destination fetched (some place)
        (.error fault left)
  | address {number : Fin 8} {place : Option Location}
      (whole : instruction.destination = .addressRegister number) :
      instruction.Combines exact source destination fetched place
        (.ok () { fetched with
          registers := fetched.registers.set (.address number)
            (.ofInt (exact.result (instruction.size.integer source)
              destination.toNat)) })

/-- The operands are fetched, and what follows is exact. -/
def Machine.Combines (machine : Machine σ) (exact : ExactOperation)
    (instruction : DataInstruction) : Prop :=
  match instruction.fetchOperands machine with
  | .error fault left => Execution.executeOpcode machine = .error fault left
  | .ok (source, location, destination) fetched =>
      OnlyLocated machine fetched ∧
        instruction.Combines exact source destination fetched location
          (Execution.executeOpcode machine)

end

namespace DataInstruction

variable {σ : Type} [Memory σ] {instruction : DataInstruction}
  {exact : ExactOperation} {source destination : UInt32}
  {machine middle fetched : Machine σ} {location : Option Location}

theorem writes_of_exact (operates : instruction.operation = exact.operation) :
    instruction.operation.writes = true := by
  rw [operates]
  cases exact <;> rfl

theorem combines_of_data
    (sourceFetched : instruction.source.fetch instruction.size machine =
      .ok source middle)
    (destinationFetched :
      instruction.destination.fetch instruction.size middle =
        .ok (location, destination) fetched)
    (operates : instruction.operation = exact.operation)
    (sized : instruction.size ≠ .unsized)
    (named : instruction.destination ≠ .none)
    (data : instruction.destination.isAddressRegister = false) :
    instruction.Combines exact source destination fetched location
      (instruction.execute machine) := by
  obtain ⟨place, rfl⟩ := Destination.exists_location named destinationFetched
  have rule : instruction.flagRule = exact.operation.flagRule := by
    rw [flagRule, operates]
    cases place : instruction.destination with
    | addressRegister number =>
        rw [place] at data
        cases data
    | _ => rfl
  have size := workingSize_of_data data
  have arranged : instruction.operands source destination =
      exact.operation.arrange instruction.size ⟨source, destination⟩ := by
    rw [operands, operates, size, widen_of_data data]
  have writes := writes_of_exact operates
  rw [execute_of_result sourceFetched destinationFetched (by
    rw [operates, size, arranged]
    exact exact.compute_arrange _ _ _ _)]
  change instruction.Combines exact source destination fetched _
    (instruction.finish _ _ _ _ fetched)
  have stores := exact.number_value instruction.size source destination
  cases run : place.write instruction.size (exact.value source destination)
      fetched with
  | error fault left =>
      rw [finish_of_refused writes run]
      exact .refused data stores run
  | ok done written =>
      rw [finish_of_written writes run, rule, arranged]
      exact .stored data stores run (FlagRule.showsExact sized exact _)

theorem combines_of_address {number : Fin 8}
    (sourceFetched : instruction.source.fetch instruction.size machine =
      .ok source middle)
    (destinationFetched :
      instruction.destination.fetch instruction.size middle =
        .ok (location, destination) fetched)
    (operates : instruction.operation = exact.operation)
    (sized : instruction.size ≠ .unsized)
    (whole : instruction.destination = .addressRegister number) :
    instruction.Combines exact source destination fetched location
      (instruction.execute machine) := by
  have placed : location = some (.addressRegister number) := by
    rw [whole] at destinationFetched
    cases destinationFetched
    rfl
  have size := workingSize_of_address whole
  have rule : instruction.flagRule = .keep := by
    rw [flagRule, whole, operates]
    cases exact <;> rfl
  have arranged : instruction.operands source destination =
      exact.operation.arrange .long
        ⟨.ofInt (instruction.size.integer source), destination⟩ := by
    rw [operands, operates, size, widen_of_address whole sized]
  rw [execute_of_result sourceFetched destinationFetched (by
    rw [operates, size, arranged]
    exact exact.compute_arrange _ _ _ _), placed,
    finish_of_keep (writes_of_exact operates) rule, exact.value_ofInt]
  exact .address whole

end DataInstruction

/-- Additions, subtractions and negations of data store the exact result modulo
the size of the operands, with the flags of the exact result whatever the flags
were before.  Additions to and subtractions from an address register are of
longs, with the source as the integer that it stands for, and keep the flags. -/
theorem Execution.executeOpcode_exact {σ : Type} [Memory σ]
    {machine : Machine σ} {instruction : DataInstruction}
    {exact : ExactOperation}
    (decoded : Instruction.decode? machine.opcode = some (.data instruction))
    (operates : instruction.operation = exact.operation) :
    machine.Combines exact instruction := by
  have formed : instruction.IsFormed := Instruction.isFormed_of_decode? decoded
  have old : (Instruction.data instruction).since = .mc68000 := by
    rw [Instruction.since, DataInstruction.since, operates]
    cases exact <;> rfl
  have unreserved :
      (Instruction.data instruction).privilegedSince? = none := by
    refine if_neg ?_
    rw [operates]
    cases exact <;> exact DataOperation.noConfusion
  have executed : executeOpcode machine = instruction.execute machine :=
    executeOpcode_of_admitted
      (Instruction.admit_of_decode? decoded old unreserved _ _)
  have located := instruction.locates_fetchOperands machine
  rw [Machine.Combines, executed]
  cases fetches : instruction.fetchOperands machine with
  | error fault left => exact DataInstruction.execute_of_unfetched fetches
  | ok found fetched =>
      obtain ⟨source, location, destination⟩ := found
      rw [fetches] at located
      obtain ⟨middle, sourceFetched, destinationFetched⟩ :=
        DataInstruction.fetchOperands_eq_ok fetches
      refine ⟨located, ?_⟩
      cases data : instruction.destination.isAddressRegister with
      | false =>
          refine DataInstruction.combines_of_data sourceFetched
            destinationFetched operates formed.sized (formed.named ?_) data
          rw [operates]
          cases exact <;> exact DataOperation.noConfusion
      | true =>
          cases whole : instruction.destination with
          | addressRegister number =>
              exact DataInstruction.combines_of_address sourceFetched
                destinationFetched operates formed.sized whole
          | _ =>
              rw [whole] at data
              cases data

/-- A machine about to add two bytes in registers that hold more than bytes, by
ADD.B D1,D0, with all flags set. -/
def Machine.addingBytes : Machine FlatMemory where
  model := .mc68000
  opcode := 0xD001
  registers :=
    { data := #v[0x123456F0, 0xABCDEF10, 0, 0, 0, 0, 0, 0] }
  status := { codes := { extend := 1, flags := 0xF } }
  memory := ⟨#[]⟩

theorem Machine.addingBytes_combines :
    DataInstruction.fetchOperands
        ⟨.add, .byte, .operand (.dataRegister 1), .dataRegister 0⟩
        addingBytes =
      .ok (0x10, some (.dataRegister 0), 0x123456F0) addingBytes ∧
    ∃ left, Execution.executeOpcode addingBytes = .ok () left ∧
      left.registers.get (.data 0) = 0x12345600 ∧
      left.status.codes.Shows false true false true ∧
      left.status.codes.extend = 1 := by
  refine ⟨rfl, ?_⟩
  have combines : addingBytes.Combines .addition
      ⟨.add, .byte, .operand (.dataRegister 1), .dataRegister 0⟩ :=
    Execution.executeOpcode_exact (by decide) rfl
  obtain ⟨-, ends⟩ := combines
  generalize Execution.executeOpcode addingBytes = result at ends
  cases ends with
  | address whole => cases whole
  | refused data stores refuses => cases refuses
  | @stored place value codes written data stores writes shows =>
      cases writes
      have low : OperandSize.byte.number value = 0 :=
        Int.natCast_inj.mp (stores.trans (by decide))
      have flags := shows.flags
      dsimp only at flags
      rw [low] at flags
      refine ⟨_, rfl, ?_, flags, shows.extend⟩
      have kept : (OperandSize.byte.merge 0x123456F0 value).toNat / 2 ^ 8 =
          0x123456 := OperandSize.merge_div OperandSize.noConfusion _ value
      have stored : (OperandSize.byte.merge 0x123456F0 value).toNat % 2 ^ 8 =
          0 := (OperandSize.number_merge OperandSize.noConfusion _ _).trans low
      refine UInt32.toNat_inj.mp ?_
      change (OperandSize.byte.merge 0x123456F0 value).toNat = 0x12345600
      omega

end M68k

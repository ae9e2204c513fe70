import M68k.Execution
import M68k.Proofs.ConditionFlags
import M68k.Proofs.DataExecution
import M68k.Proofs.DescendingOperands
import M68k.Proofs.StepPhases
import Mathlib.Tactic.LinearCombination

/-!
# Chains of operations with carry

Additions, subtractions and negations with carry take two numbers in memory
operand by operand, from the ends to the fronts.  The extend flag takes the
carry from one operand to the next, and the zero flag tells whether all results
so far are zero.  What one operation does to one operand, the chain does to the
numbers.
-/

namespace M68k

/-- Executes the held opcode so many times. -/
def Execution.executeTimes {σ : Type} [Memory σ] : Nat → Execution σ Unit
  | 0 => pure ()
  | count + 1 => do
      executeTimes count
      executeOpcode

/-! ## Chained operations -/

/-- Operations that take a carry and leave one. -/
inductive ChainedOperation where
  | add
  | subtract
  /-- The destination subtracted from zero. -/
  | negate
deriving DecidableEq, Repr, Inhabited

namespace ChainedOperation

def takesSource : ChainedOperation → Bool
  | add | subtract => true
  | negate => false

/-- The exact result, whatever the size. -/
def exact : ChainedOperation → Int → Int → Int → Int
  | add, source, destination, extend => destination + source + extend
  | subtract, source, destination, extend => destination - source - extend
  | negate, _, destination, extend => 0 - destination - extend

/-- What a carry into the result counts. -/
def weight : ChainedOperation → Int
  | add => 1
  | subtract | negate => -1

theorem weight_eq (operation : ChainedOperation) :
    operation.weight = 1 ∨ operation.weight = -1 := by
  cases operation <;> simp [weight]

/-- The source counts only if one is taken. -/
theorem exact_congr {operation : ChainedOperation}
    {first second : Int} (same : operation.takesSource = true → first = second)
    (destination extend : Int) :
    operation.exact first destination extend =
      operation.exact second destination extend := by
  cases operation with
  | add | subtract => rw [same rfl]
  | negate => rfl

/-- The exact result of numbers in two parts is that of the upper parts with the
carry that the lower parts leave, over what the lower parts leave beside it. -/
theorem exact_append (operation : ChainedOperation)
    {lowSource lowDestination low extend carry scale : Int}
    (law : operation.exact lowSource lowDestination extend =
      low + operation.weight * scale * carry) (source destination : Int) :
    operation.exact (source * scale + lowSource)
        (destination * scale + lowDestination) extend =
      operation.exact source destination carry * scale + low := by
  cases operation with
  | add | subtract | negate =>
      simp only [exact, weight] at law ⊢
      linear_combination law

end ChainedOperation

/-- An operation on two numbers, operand by operand. -/
structure Chain where
  operation : ChainedOperation
  numeration : Numeration
  size : OperandSize
  /-- The address register above the source. -/
  source : Fin 8
  /-- The address register above the destination. -/
  destination : Fin 8
deriving DecidableEq, Repr

namespace Chain

def dataOperation (chain : Chain) : DataOperation :=
  match chain.numeration, chain.operation with
  | .binary, .add => .addx
  | .binary, .subtract => .subx
  | .binary, .negate => .negx
  | .decimal, .add => .abcd
  | .decimal, .subtract => .sbcd
  | .decimal, .negate => .nbcd

/-- The instruction that is executed again and again. -/
def instruction (chain : Chain) : DataInstruction where
  operation := chain.dataOperation
  size := chain.size
  source :=
    if chain.operation.takesSource then
      .operand (.predecrement chain.source)
    else .none
  destination := .operand (.predecrement chain.destination)

/-- The opcode of the instruction, in a size that it has. -/
def opcode (chain : Chain) : UInt16 :=
  let size : UInt16 :=
    match chain.size with
    | .byte => 0x00
    | .word => 0x40
    | .long | .unsized => 0x80
  let source := UInt16.ofNat chain.source.val
  let destination := UInt16.ofNat chain.destination.val
  let both := (destination <<< (9 : UInt16)) ||| source
  match chain.numeration, chain.operation with
  | .binary, .add => 0xD108 ||| size ||| both
  | .binary, .subtract => 0x9108 ||| size ||| both
  | .binary, .negate => 0x4020 ||| size ||| destination
  | .decimal, .add => 0xC108 ||| both
  | .decimal, .subtract => 0x8108 ||| both
  | .decimal, .negate => 0x4820 ||| destination

/-- Every chain has an instruction.  Decimal operations are there for bytes
only. -/
theorem decode?_opcode (chain : Chain) (sized : chain.size ≠ .unsized)
    (bytes : chain.numeration = .decimal → chain.size = .byte) :
    Instruction.decode? chain.opcode = some (.data chain.instruction) := by
  obtain ⟨operation, numeration, size, source, destination⟩ := chain
  cases numeration with
  | binary =>
      clear bytes
      cases size with
      | unsized => contradiction
      | byte | word | long =>
          clear sized
          cases operation <;> revert source destination <;> decide +kernel
  | decimal =>
      obtain rfl : size = .byte := bytes rfl
      clear sized bytes
      cases operation <;> revert source destination <;> decide +kernel

/-- The machine with the address registers lowered. -/
def lower (chain : Chain) (machine : Machine FlatMemory) (length : Nat) :
    Machine FlatMemory :=
  (if chain.operation.takesSource then machine.lower chain.source length
    else machine).lower chain.destination length

/-- The machine after operands of so many bytes. -/
def advance (chain : Chain) (machine : Machine FlatMemory) (length : Nat)
    (codes : ConditionCodes) (memory : FlatMemory) : Machine FlatMemory :=
  { (chain.lower machine length).setConditionCodes codes with memory }

/-- The bytes of a number of so many operands. -/
def length (chain : Chain) (count : Nat) : Nat :=
  chain.size.bytes * count

/-- A machine can execute an instruction so many times. -/
structure Ready (chain : Chain) (count : Nat) (machine : Machine FlatMemory) :
    Prop where
  decoded : Instruction.decode? machine.opcode = some (.data chain.instruction)
  sized : chain.size ≠ .unsized
  codes : machine.status.codes.InRange
  destination :
    machine.PointsAbove chain.destination chain.size (chain.length count)
  source : chain.operation.takesSource = true →
    machine.PointsAbove chain.source chain.size (chain.length count)
  /-- The numbers have no byte in common. -/
  apart : chain.operation.takesSource = true →
    machine.endOf chain.source + chain.length count ≤
        machine.endOf chain.destination ∨
      machine.endOf chain.destination + chain.length count ≤
        machine.endOf chain.source
  destinationDigits : machine.memory.IsNumeral chain.numeration
    (machine.endOf chain.destination) (chain.length count)
  sourceDigits : chain.operation.takesSource = true →
    machine.memory.IsNumeral chain.numeration (machine.endOf chain.source)
      (chain.length count)

variable {chain : Chain} {machine : Machine FlatMemory} {count : Nat}

theorem writes_dataOperation (chain : Chain) :
    chain.dataOperation.writes = true := by
  rw [dataOperation]
  split <;> rfl

@[simp]
theorem memory_lower (length : Nat) :
    (chain.lower machine length).memory = machine.memory := by
  rw [lower]
  split <;> rfl

@[simp]
theorem status_lower (length : Nat) :
    (chain.lower machine length).status = machine.status := by
  rw [lower]
  split <;> rfl

@[simp]
theorem model_lower (length : Nat) :
    (chain.lower machine length).model = machine.model := by
  rw [lower]
  split <;> rfl

@[simp]
theorem opcode_lower (length : Nat) :
    (chain.lower machine length).opcode = machine.opcode := by
  rw [lower]
  split <;> rfl

/-- Numbers that have no byte in common do not end at one place. -/
theorem Ready.distinct (ready : chain.Ready count machine)
    (positive : 0 < count) (takes : chain.operation.takesSource = true) :
    chain.destination ≠ chain.source := by
  have long : 0 < chain.length count :=
    Nat.mul_pos (OperandSize.bytes_pos ready.sized) positive
  intro same
  have := ready.apart takes
  rw [same] at this
  omega

/-- The first number. -/
def sourceNumber (chain : Chain) (count : Nat) (machine : Machine FlatMemory) :
    Nat :=
  machine.memory.numeral chain.numeration (machine.endOf chain.source)
    (chain.length count)

/-- The second number. -/
def destinationNumber (chain : Chain) (count : Nat)
    (machine : Machine FlatMemory) : Nat :=
  machine.memory.numeral chain.numeration (machine.endOf chain.destination)
    (chain.length count)

/-- The number that is left in place of the second. -/
def resultNumber (chain : Chain) (count : Nat)
    (start left : Machine FlatMemory) : Nat :=
  left.memory.numeral chain.numeration (start.endOf chain.destination)
    (chain.length count)

/-- One operand of each number is fetched. -/
theorem fetch_operands (ready : chain.Ready 1 machine) :
    ∃ source destination, ∃ middle : Machine FlatMemory,
      (chain.operation.takesSource = true →
        machine.memory.run?
          (machine.registers.below chain.source chain.size.bytes)
          chain.size.bytes = some (chain.size.bytesOf source)) ∧
      machine.memory.run?
          (machine.registers.below chain.destination chain.size.bytes)
          chain.size.bytes = some (chain.size.bytesOf destination) ∧
      chain.instruction.source.fetch chain.size machine =
        .ok source middle ∧
      chain.instruction.destination.fetch chain.size middle =
        .ok
          (some (.memory
            (machine.registers.below chain.destination chain.size.bytes)),
            destination)
          (chain.lower machine chain.size.bytes) := by
  have one : chain.length 1 = chain.size.bytes := Nat.mul_one _
  have destinationPoints := ready.destination
  rw [one] at destinationPoints
  cases takes : chain.operation.takesSource with
  | false =>
      obtain ⟨value, -, bytes, fetched⟩ :=
        AddressingMode.fetch_predecrement ready.sized destinationPoints
      refine ⟨0, value, machine, nofun, bytes, ?_, ?_⟩
      · rw [instruction, takes]
        rfl
      · simp only [instruction, Destination.fetch, Execution.bind_apply,
          fetched, Execution.pure_apply, lower, takes, Bool.false_eq_true,
          if_false]
  | true =>
      have sourcePoints := ready.source takes
      rw [one] at sourcePoints
      obtain ⟨source, -, sourceBytes, sourceFetched⟩ :=
        AddressingMode.fetch_predecrement ready.sized sourcePoints
      have different := ready.distinct Nat.zero_lt_one takes
      have points : (machine.lower chain.source chain.size.bytes).PointsAbove
          chain.destination chain.size chain.size.bytes :=
        destinationPoints.below 0
          (Machine.endOf_lower_of_ne different _) (by omega) (fun _ => rfl)
          rfl rfl
      obtain ⟨destination, -, destinationBytes, destinationFetched⟩ :=
        AddressingMode.fetch_predecrement ready.sized points
      have place : (machine.lower chain.source
          chain.size.bytes).registers.below chain.destination
            chain.size.bytes =
          machine.registers.below chain.destination chain.size.bytes :=
        Registers.below_lower_of_ne _ different _ _
      rw [place] at destinationBytes destinationFetched
      refine ⟨source, destination, machine.lower chain.source chain.size.bytes,
        fun _ => sourceBytes, destinationBytes, ?_, ?_⟩
      · simp only [instruction, takes, if_true, Source.fetch,
          Execution.bind_apply, sourceFetched, Execution.pure_apply]
      · simp only [instruction, Destination.fetch, Execution.bind_apply,
          destinationFetched, Execution.pure_apply, lower, takes, if_true]

/-- The operands as the operation takes them: a negation subtracts from zero. -/
def arranged (chain : Chain) (source destination : UInt32) : Operands :=
  if chain.operation.takesSource then ⟨source, destination⟩
  else ⟨destination, 0⟩

theorem operands_instruction (chain : Chain) (source destination : UInt32) :
    chain.instruction.operands source destination =
      chain.arranged source destination := by
  obtain ⟨operation, numeration, size, first, second⟩ := chain
  cases operation <;> cases numeration <;> rfl

theorem executeOpcode_eq (ready : chain.Ready count machine) :
    Execution.executeOpcode machine = chain.instruction.execute machine := by
  have old : (Instruction.data chain.instruction).since = .mc68000 := by
    obtain ⟨operation, numeration, size, source, destination⟩ := chain
    cases operation <;> cases numeration <;> rfl
  have unreserved :
      (Instruction.data chain.instruction).privilegedSince? = none := by
    obtain ⟨operation, numeration, size, source, destination⟩ := chain
    cases operation <;> cases numeration <;> rfl
  rw [Execution.executeOpcode_of_admitted
    (Instruction.admit_of_decode? ready.decoded old unreserved _ _)]
  rfl

/-- The machine after a value has replaced one operand of the destination. -/
def replace (chain : Chain) (machine : Machine FlatMemory) (value : UInt32)
    (codes : ConditionCodes) : Machine FlatMemory :=
  chain.advance machine chain.size.bytes codes
    (machine.memory.overwrite
      (machine.registers.below chain.destination chain.size.bytes)
      ((chain.size.bytesOf value).map some))

/-- A result is written where the destination was fetched. -/
theorem write_result (ready : chain.Ready 1 machine) (value : UInt32)
    (codes : ConditionCodes) :
    (Location.memory (machine.registers.below chain.destination
        chain.size.bytes)).write chain.size value
          ((chain.lower machine chain.size.bytes).setConditionCodes codes) =
      .ok () (chain.replace machine value codes) := by
  have points := ready.destination
  rw [length, Nat.mul_one] at points
  rw [replace, advance, ← chain.memory_lower chain.size.bytes]
  refine Execution.writeData_flat ready.sized ?_ ?_
  · intro wide
    have aligned := points.aligned_below (Nat.le_refl _)
      OperandSize.even_bytes wide
    rw [Machine.misaligned] at aligned ⊢
    rw [← aligned]
    exact congrArg (fun model : Model => model.needsAlignedData && _)
      (chain.model_lower _)
  · show _ ≤ (chain.lower machine chain.size.bytes).memory.size
    rw [memory_lower, Machine.toNat_below_add points.unwrapped]
    exact points.mapped

/-- The instruction takes one operand of each number and puts its result in
place of the destination. -/
theorem executes_result (ready : chain.Ready 1 machine) :
    ∃ source destination,
      (chain.operation.takesSource = true →
        chain.sourceNumber 1 machine =
            chain.numeration.numberOf chain.size source ∧
          ∀ byte ∈ chain.size.bytesOf source, chain.numeration.IsDigit byte) ∧
      chain.destinationNumber 1 machine =
        chain.numeration.numberOf chain.size destination ∧
      (∀ byte ∈ chain.size.bytesOf destination,
        chain.numeration.IsDigit byte) ∧
      ∀ value codes,
        chain.dataOperation.compute machine.status chain.size
            (chain.arranged source destination) =
          .result value chain.size codes →
        Execution.executeOpcode machine =
          .ok ()
            (chain.replace machine value
              (chain.dataOperation.flagRule.apply chain.size
                (chain.arranged source destination).source
                (chain.arranged source destination).destination value
                codes)) := by
  obtain ⟨source, destination, middle, sourceBytes, destinationBytes,
    sourceFetched, destinationFetched⟩ := fetch_operands ready
  have one : chain.length 1 = chain.size.bytes := Nat.mul_one _
  have destinationPoints := ready.destination
  have destinationDigits := ready.destinationDigits
  have sourcePoints := ready.source
  have sourceDigits := ready.sourceDigits
  rw [one] at destinationPoints destinationDigits sourcePoints sourceDigits
  have destinationPlace :=
    Machine.toNat_below_add destinationPoints.unwrapped
  have sourcePlace (takes : chain.operation.takesSource = true) :=
    Machine.toNat_below_add (sourcePoints takes).unwrapped
  rw [sourceNumber, destinationNumber, one]
  refine ⟨source, destination, fun takes => ⟨?_, ?_⟩, ?_, ?_, ?_⟩
  · exact FlatMemory.numeral_of_operand (sourceBytes takes)
      (sourcePlace takes)
  · exact (FlatMemory.isNumeral_of_operand (sourceBytes takes)
      (sourcePlace takes)).mp (sourceDigits takes)
  · exact FlatMemory.numeral_of_operand destinationBytes destinationPlace
  · exact (FlatMemory.isNumeral_of_operand destinationBytes
      destinationPlace).mp destinationDigits
  · intro value codes computed
    rw [executeOpcode_eq ready,
      DataInstruction.execute_of_result sourceFetched destinationFetched,
      operands_instruction,
      DataInstruction.finish_of_written chain.writes_dataOperation
        (write_result ready value codes)]
    · rfl
    · rw [operands_instruction, status_lower]
      exact computed

/-- The value reads back from where it was put. -/
theorem run?_replace (ready : chain.Ready 1 machine) (value : UInt32)
    (codes : ConditionCodes) :
    (chain.replace machine value codes).memory.run?
        (machine.registers.below chain.destination chain.size.bytes)
        chain.size.bytes = some (chain.size.bytesOf value) := by
  have points := ready.destination
  rw [length, Nat.mul_one] at points
  have written := machine.memory.run?_overwrite_self
    (machine.registers.below chain.destination chain.size.bytes)
    (chain.size.bytesOf value) (by
      rw [OperandSize.length_bytesOf,
        Machine.toNat_below_add points.unwrapped]
      exact points.mapped)
  rwa [OperandSize.length_bytesOf] at written

theorem resultNumber_replace (ready : chain.Ready 1 machine) (value : UInt32)
    (codes : ConditionCodes) :
    chain.resultNumber 1 machine (chain.replace machine value codes) =
      chain.numeration.numberOf chain.size value := by
  have points := ready.destination
  rw [length, Nat.mul_one] at points
  rw [resultNumber, length, Nat.mul_one]
  exact FlatMemory.numeral_of_operand (run?_replace ready value codes)
    (Machine.toNat_below_add points.unwrapped)

/-! ## Runs -/

/-- What so many executions leave. -/
structure Runs (chain : Chain) (count : Nat)
    (start left : Machine FlatMemory) : Prop where
  advanced : left =
    chain.advance start (chain.length count) left.status.codes left.memory
  outside : FlatMemory.AgreeOutside
    (start.endOf chain.destination - chain.length count) (chain.length count)
    left.memory start.memory
  codes : left.status.codes.InRange
  digits : left.memory.IsNumeral chain.numeration
    (start.endOf chain.destination) (chain.length count)
  /-- The carry and the result make up the exact result. -/
  law :
    chain.operation.exact (chain.sourceNumber count start)
        (chain.destinationNumber count start)
        start.status.codes.extend.toNat =
      chain.resultNumber count start left +
        chain.operation.weight *
          (chain.numeration.base ^ chain.length count : Nat) *
            left.status.codes.extend.toNat
  zero : left.status.codes.has Flag.zero =
    (start.status.codes.has Flag.zero &&
      chain.resultNumber count start left == 0)

theorem length_succ (chain : Chain) (count : Nat) :
    chain.length (count + 1) = chain.length count + chain.length 1 := by
  rw [length, length, length, Nat.mul_add]

theorem advance_advance
    (distinct : chain.operation.takesSource = true →
      chain.destination ≠ chain.source) (first second : Nat)
    (firstCodes secondCodes : ConditionCodes)
    (firstMemory secondMemory : FlatMemory) :
    chain.advance (chain.advance machine first firstCodes firstMemory) second
        secondCodes secondMemory =
      chain.advance machine (first + second) secondCodes secondMemory := by
  simp only [advance, lower, Machine.lower, Machine.setConditionCodes]
  cases takes : chain.operation.takesSource with
  | false =>
      simp only [Bool.false_eq_true, if_false, Registers.lower_lower]
  | true =>
      have different := distinct takes
      simp only [if_true]
      rw [Registers.lower_comm _ different, Registers.lower_lower,
        Registers.lower_lower]

theorem endOf_advance_destination {amount : Nat} {codes : ConditionCodes}
    {memory : FlatMemory}
    (distinct : chain.operation.takesSource = true →
      chain.destination ≠ chain.source)
    (within : amount ≤ machine.endOf chain.destination) :
    (chain.advance machine amount codes memory).endOf chain.destination =
      machine.endOf chain.destination - amount := by
  show (chain.lower machine amount).endOf chain.destination = _
  rw [← Machine.toNat_below within, Machine.endOf, lower]
  split
  · rename_i takes
    rw [Machine.lower, Registers.get_lower_self, Machine.lower,
      Registers.below_lower_of_ne _ (distinct takes)]
  · rw [Machine.lower, Registers.get_lower_self]

theorem endOf_advance_source {amount : Nat} {codes : ConditionCodes}
    {memory : FlatMemory} (takes : chain.operation.takesSource = true)
    (distinct : chain.destination ≠ chain.source)
    (within : amount ≤ machine.endOf chain.source) :
    (chain.advance machine amount codes memory).endOf chain.source =
      machine.endOf chain.source - amount := by
  show (chain.lower machine amount).endOf chain.source = _
  rw [lower, takes, if_pos rfl, Machine.endOf_lower_of_ne distinct.symm,
    ← Machine.toNat_below within, Machine.endOf, Machine.lower,
    Registers.get_lower_self]

variable {start middle left : Machine FlatMemory}

theorem Runs.endOf_destination (runs : chain.Runs count start middle)
    (ready : chain.Ready (count + 1) start) :
    middle.endOf chain.destination =
      start.endOf chain.destination - chain.length count := by
  have unwrapped := ready.destination.unwrapped
  rw [length_succ] at unwrapped
  rw [runs.advanced]
  exact endOf_advance_destination (ready.distinct (Nat.succ_pos count))
    (by omega)

theorem Runs.endOf_source (runs : chain.Runs count start middle)
    (ready : chain.Ready (count + 1) start)
    (takes : chain.operation.takesSource = true) :
    middle.endOf chain.source =
      start.endOf chain.source - chain.length count := by
  have unwrapped := (ready.source takes).unwrapped
  rw [length_succ] at unwrapped
  rw [runs.advanced]
  exact endOf_advance_source takes
    (ready.distinct (Nat.succ_pos count) takes) (by omega)

/-- Chains of multi-byte operands move by whole words. -/
theorem even_length (count : Nat) (wide : chain.size ≠ .byte) :
    chain.length count % 2 = 0 := by
  rw [length, Nat.mul_mod, OperandSize.even_bytes wide, Nat.zero_mul,
    Nat.zero_mod]

/-- A machine that is ready for one execution more is ready for one after the
others. -/
theorem Runs.ready (runs : chain.Runs count start middle)
    (ready : chain.Ready (count + 1) start) : chain.Ready 1 middle := by
  have destinationEnd := runs.endOf_destination ready
  have sourceEnd := runs.endOf_source ready
  have destinationPoints := ready.destination
  have sourcePoints := ready.source
  have destinationDigits := ready.destinationDigits
  have sourceDigits := ready.sourceDigits
  have apart := ready.apart
  rw [length_succ] at destinationPoints destinationDigits
  rw [length_succ] at sourcePoints sourceDigits apart
  have model : middle.model = start.model := by
    rw [runs.advanced]
    exact chain.model_lower _
  have unwrapped := destinationPoints.unwrapped
  have opcode : middle.opcode = start.opcode := by
    rw [runs.advanced]
    exact chain.opcode_lower _
  constructor
  · rw [opcode]
    exact ready.decoded
  · exact ready.sized
  · exact runs.codes
  · exact destinationPoints.below _ destinationEnd (Nat.le_refl _)
      (chain.even_length count) runs.outside.1 model
  · intro takes
    exact (sourcePoints takes).below _ (sourceEnd takes) (Nat.le_refl _)
      (chain.even_length count) runs.outside.1 model
  · intro takes
    have := apart takes
    have := (sourcePoints takes).unwrapped
    have := sourceEnd takes
    omega
  · rw [destinationEnd,
      FlatMemory.isNumeral_iff_of_apart runs.outside (by omega) (by omega)]
    exact (FlatMemory.isNumeral_add.mp destinationDigits).1
  · intro takes
    have := apart takes
    have := (sourcePoints takes).unwrapped
    rw [sourceEnd takes,
      FlatMemory.isNumeral_iff_of_apart runs.outside (by omega) (by omega)]
    exact (FlatMemory.isNumeral_add.mp (sourceDigits takes)).1

/-- The source of a longer run is that of the next operand and the one so
far. -/
theorem Runs.sourceNumber_succ (runs : chain.Runs count start middle)
    (ready : chain.Ready (count + 1) start)
    (takes : chain.operation.takesSource = true) :
    chain.sourceNumber (count + 1) start =
      chain.sourceNumber 1 middle *
          chain.numeration.base ^ chain.length count +
        chain.sourceNumber count start := by
  have unwrapped := (ready.source takes).unwrapped
  have destinationUnwrapped := ready.destination.unwrapped
  have apart := ready.apart takes
  rw [length_succ] at unwrapped destinationUnwrapped apart
  rw [sourceNumber, length_succ, FlatMemory.numeral_add, sourceNumber,
    sourceNumber, runs.endOf_source ready takes,
    FlatMemory.numeral_eq_of_apart runs.outside (by omega) (by omega)]

theorem Runs.destinationNumber_succ (runs : chain.Runs count start middle)
    (ready : chain.Ready (count + 1) start) :
    chain.destinationNumber (count + 1) start =
      chain.destinationNumber 1 middle *
          chain.numeration.base ^ chain.length count +
        chain.destinationNumber count start := by
  have unwrapped := ready.destination.unwrapped
  rw [length_succ] at unwrapped
  rw [destinationNumber, length_succ, FlatMemory.numeral_add,
    destinationNumber, destinationNumber, runs.endOf_destination ready,
    FlatMemory.numeral_eq_of_apart runs.outside (by omega) (by omega)]

/-- What the next execution writes lies below what was written before. -/
theorem Runs.outside_next (before : chain.Runs count start middle)
    (ready : chain.Ready (count + 1) start)
    (after : chain.Runs 1 middle left) :
    FlatMemory.AgreeOutside
      (start.endOf chain.destination - chain.length count - chain.length 1)
      (chain.length 1) left.memory middle.memory := by
  have outside := after.outside
  rwa [before.endOf_destination ready] at outside

theorem Runs.resultNumber_succ (before : chain.Runs count start middle)
    (ready : chain.Ready (count + 1) start)
    (after : chain.Runs 1 middle left) :
    chain.resultNumber (count + 1) start left =
      chain.resultNumber 1 middle left *
          chain.numeration.base ^ chain.length count +
        chain.resultNumber count start middle := by
  have unwrapped := ready.destination.unwrapped
  rw [length_succ] at unwrapped
  rw [resultNumber, length_succ, FlatMemory.numeral_add, resultNumber,
    resultNumber, before.endOf_destination ready]
  congr 1
  exact FlatMemory.numeral_eq_of_apart (before.outside_next ready after)
    (by omega) (by omega)

/-- The next operands are the upper parts of longer numbers. -/
theorem Runs.next (before : chain.Runs count start middle)
    (ready : chain.Ready (count + 1) start)
    (after : chain.Runs 1 middle left) :
    chain.Runs (count + 1) start left := by
  have unwrapped := ready.destination.unwrapped
  rw [length_succ] at unwrapped
  have outside := before.outside_next ready after
  have result := before.resultNumber_succ ready after
  constructor
  · rw [length_succ,
      ← advance_advance (ready.distinct (Nat.succ_pos count)),
      ← before.advanced]
    exact after.advanced
  · rw [length_succ]
    exact (outside.mono (by omega) (by omega)).trans
      (before.outside.mono (by omega) (by omega))
  · exact after.codes
  · rw [length_succ, FlatMemory.isNumeral_add,
      ← before.endOf_destination ready]
    refine ⟨after.digits, ?_⟩
    rw [FlatMemory.isNumeral_iff_of_apart outside (by omega) (by omega)]
    exact before.digits
  · have upper := after.law
    rw [ChainedOperation.exact_congr fun takes => congrArg Nat.cast
      (before.sourceNumber_succ ready takes),
      before.destinationNumber_succ ready, result, length_succ, pow_add]
    push_cast
    rw [ChainedOperation.exact_append _ (by exact_mod_cast before.law), upper]
    push_cast
    ring
  · have scale : 0 < chain.numeration.base ^ chain.length count :=
      Nat.pow_pos (Nat.zero_lt_of_lt chain.numeration.one_lt_base)
    rw [after.zero, before.zero, result, Bool.eq_iff_iff]
    simp only [Bool.and_eq_true, beq_iff_eq, Nat.add_eq_zero_iff,
      Nat.mul_eq_zero, scale.ne', or_false]
    tauto

/-- What a run leaves as it was: everything but the destination, the address
registers and the condition codes. -/
structure Keeps (chain : Chain) (count : Nat)
    (start left : Machine FlatMemory) : Prop where
  advanced : left =
    chain.advance start (chain.length count) left.status.codes left.memory
  outside : FlatMemory.AgreeOutside
    (start.endOf chain.destination - chain.length count) (chain.length count)
    left.memory start.memory
  source : chain.operation.takesSource = true →
    left.memory.numeral chain.numeration (start.endOf chain.source)
        (chain.length count) =
      chain.sourceNumber count start

theorem Runs.keeps (runs : chain.Runs count start left)
    (ready : chain.Ready count start) : chain.Keeps count start left := by
  refine ⟨runs.advanced, runs.outside, fun takes => ?_⟩
  have apart := ready.apart takes
  have unwrapped := ready.destination.unwrapped
  exact FlatMemory.numeral_eq_of_apart runs.outside (by omega)
    (ready.source takes).unwrapped

/-- The exact result of a run. -/
def exactResult (chain : Chain) (count : Nat) (start : Machine FlatMemory) :
    Int :=
  chain.operation.exact (chain.sourceNumber count start)
    (chain.destinationNumber count start) start.status.codes.extend.toNat

/-- The result is the exact one as far as it has digits. -/
theorem Runs.resultNumber_eq (runs : chain.Runs count start left) :
    (chain.resultNumber count start left : Int) =
      chain.exactResult count start %
        (chain.numeration.base ^ chain.length count : Nat) := by
  have bounded : chain.resultNumber count start left <
      chain.numeration.base ^ chain.length count :=
    FlatMemory.numeral_lt runs.digits
  rw [exactResult, runs.law, mul_right_comm, Int.add_mul_emod_self_right,
    ← Int.natCast_mod, Nat.mod_eq_of_lt bounded]

/-- The carry tells that the exact result is no number of that length. -/
theorem Runs.carry_eq (runs : chain.Runs count start left) {carry : Bool}
    (carries : left.status.codes.extend.toNat = carry.toNat) :
    carry = !decide (0 ≤ chain.exactResult count start ∧
      chain.exactResult count start <
        (chain.numeration.base ^ chain.length count : Nat)) := by
  have law := runs.law
  have bounded : chain.resultNumber count start left <
      chain.numeration.base ^ chain.length count :=
    FlatMemory.numeral_lt runs.digits
  rw [carries, ← exactResult] at law
  cases carry with
  | false =>
      rw [Bool.toNat_false, Nat.cast_zero, mul_zero, add_zero] at law
      rw [decide_eq_true (by omega)]
      rfl
  | true =>
      rw [Bool.toNat_true, Nat.cast_one, mul_one] at law
      rw [decide_eq_false]
      · rfl
      · rcases chain.operation.weight_eq with plus | minus
        · rw [plus] at law
          omega
        · rw [minus] at law
          omega

theorem Ready.of_succ (ready : chain.Ready (count + 1) machine) :
    chain.Ready count machine := by
  have longer := chain.length_succ count
  constructor
  · exact ready.decoded
  · exact ready.sized
  · exact ready.codes
  · exact ready.destination.below 0 rfl (by omega) (fun _ => rfl)
      rfl rfl
  · intro takes
    exact (ready.source takes).below 0 rfl (by omega)
      (fun _ => rfl) rfl rfl
  · intro takes
    have := ready.apart takes
    omega
  · have digits := ready.destinationDigits
    rw [length_succ] at digits
    exact (FlatMemory.isNumeral_add.mp digits).2
  · intro takes
    have digits := ready.sourceDigits takes
    rw [length_succ] at digits
    exact (FlatMemory.isNumeral_add.mp digits).2

theorem runs_zero (codes : machine.status.codes.InRange) :
    chain.Runs 0 machine machine := by
  have none : chain.length 0 = 0 := Nat.mul_zero _
  constructor
  · rw [none, advance, lower, Machine.lower]
    split <;> simp only [Machine.lower, Registers.lower_zero] <;> rfl
  · rw [none]
    exact ⟨rfl, fun _ _ => rfl⟩
  · exact codes
  · rw [none]
    exact fun _ early => absurd early (Nat.not_lt_zero _)
  · rw [resultNumber, sourceNumber, destinationNumber, none]
    cases chain.operation <;>
      simp [FlatMemory.numeral, ChainedOperation.exact, ChainedOperation.weight]
  · rw [resultNumber, none]
    simp [FlatMemory.numeral]

/-- A result with its carry makes up the exact result of one operand. -/
theorem runs_one (ready : chain.Ready 1 machine) {value : UInt32}
    {codes : ConditionCodes} (inRange : codes.InRange)
    (digits : ∀ byte ∈ chain.size.bytesOf value,
      chain.numeration.IsDigit byte)
    (law : chain.operation.exact (chain.sourceNumber 1 machine)
        (chain.destinationNumber 1 machine)
        machine.status.codes.extend.toNat =
      chain.numeration.numberOf chain.size value +
        chain.operation.weight *
          (chain.numeration.base ^ chain.size.bytes : Nat) *
            codes.extend.toNat)
    (zero : codes.has Flag.zero = (machine.status.codes.has Flag.zero &&
      chain.numeration.numberOf chain.size value == 0)) :
    chain.Runs 1 machine (chain.replace machine value codes) := by
  have one : chain.length 1 = chain.size.bytes := Nat.mul_one _
  have points := ready.destination
  rw [one] at points
  have place := Machine.toNat_below points.unwrapped
  constructor
  · rw [one]
    rfl
  · have outside := FlatMemory.agreeOutside_overwrite machine.memory
      (machine.registers.below chain.destination chain.size.bytes)
      ((chain.size.bytesOf value).map some)
    rw [List.length_map, OperandSize.length_bytesOf, place] at outside
    rw [one]
    exact outside
  · exact inRange
  · rw [one]
    exact (FlatMemory.isNumeral_of_operand (run?_replace ready value codes)
      (Machine.toNat_below_add points.unwrapped)).mpr digits
  · rw [resultNumber_replace ready, one]
    exact law
  · rw [resultNumber_replace ready]
    exact zero

/-- If one execution does it to one operand, so many do it to as many. -/
theorem exists_runs
    (executes : ∀ ⦃machine⦄, chain.Ready 1 machine →
      ∃ left, Execution.executeOpcode machine = .ok () left ∧
        chain.Runs 1 machine left)
    (ready : chain.Ready count start) :
    ∃ left, Execution.executeTimes count start = .ok () left ∧
      chain.Runs count start left := by
  induction count with
  | zero => exact ⟨start, rfl, runs_zero ready.codes⟩
  | succ count induction =>
      obtain ⟨middle, run, before⟩ := induction ready.of_succ
      obtain ⟨left, last, after⟩ := executes (before.ready ready)
      refine ⟨left, ?_, before.next ready after⟩
      rw [Execution.executeTimes, Execution.bind_apply, run]
      exact last

end Chain

end M68k

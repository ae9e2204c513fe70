import M68k.Proofs.ConditionCodeRange
import M68k.Proofs.FlatNumbers
import M68k.Proofs.Quotients
import M68k.Proofs.SystemState

/-!
# What data instructions touch

A data instruction moves the address registers of `(An)+` and `-(An)` and writes
at most one destination: the low bits of a data register, a whole address
register, or as many bytes of memory as its result has.  Besides these only the
program counter and the condition codes may change.
-/

namespace M68k

/-- The machine with other registers, whatever they have as program counter. -/
def Machine.withRegisters {σ : Type} (machine : Machine σ)
    (registers : Registers) (pc : UInt32) : Machine σ :=
  { machine with registers := { registers with pc } }

/-- The condition codes that are set last stay. -/
theorem Machine.setConditionCodes_last {σ : Type} (machine : Machine σ)
    (first last : ConditionCodes) :
    (machine.setConditionCodes first).setConditionCodes last =
      machine.setConditionCodes last :=
  rfl

/-! ## Registers that operands move -/

namespace AddressingMode

/-- The registers once an operand of a mode has been found. -/
def moved (mode : AddressingMode) (size : OperandSize)
    (registers : Registers) : Registers :=
  match mode with
  | postincrement number =>
      registers.set (.address number)
        (registers.get (.address number) + step number size)
  | predecrement number =>
      registers.set (.address number)
        (registers.get (.address number) - step number size)
  | _ => registers

/-- Where an operand of a mode is, if the registers alone tell. -/
def place? (mode : AddressingMode) (size : OperandSize)
    (registers : Registers) : Option Location :=
  match mode with
  | dataRegister number => some (.dataRegister number)
  | addressRegister number => some (.addressRegister number)
  | indirect number | postincrement number =>
      some (.memory (registers.get (.address number)))
  | predecrement number =>
      some (.memory (registers.get (.address number) - step number size))
  | _ => none

variable (mode : AddressingMode) (size : OperandSize)

theorem moved_withPc (registers : Registers) (pc : UInt32) :
    mode.moved size { registers with pc } =
      { mode.moved size registers with pc } := by
  cases mode <;> rfl

theorem place?_withPc (registers : Registers) (pc : UInt32) :
    mode.place? size { registers with pc } = mode.place? size registers := by
  cases mode <;> rfl

variable {mode size} {machine left : Machine FlatMemory} {location : Location}

theorem moved_of_resolve (run : mode.resolve size machine = .ok location left) :
    (∃ pc, left =
      machine.withRegisters (mode.moved size machine.registers) pc) ∧
      ∀ place ∈ mode.place? size machine.registers, location = place := by
  have fetched
      (fetches : Execution.Fetches (σ := FlatMemory) (mode.resolve size))
      (still : mode.moved size machine.registers = machine.registers)
      (told : mode.place? size machine.registers = none) :
      (∃ pc, left =
        machine.withRegisters (mode.moved size machine.registers) pc) ∧
        ∀ place ∈ mode.place? size machine.registers, location = place := by
    rw [still, told]
    exact ⟨fetches.eq_withPc run, fun _ member => nomatch member⟩
  cases mode with
  | dataRegister number | addressRegister number | indirect number
  | postincrement number | predecrement number =>
      cases run
      exact ⟨⟨machine.registers.pc, rfl⟩, fun _ => Option.some.inj⟩
  | displacement number | indexed number | absoluteShort | absoluteLong
  | pcDisplacement | pcIndexed =>
      exact fetched (.resolve rfl size) rfl rfl
  | immediate =>
      refine fetched ?_ rfl rfl
      cases size with
      | byte | word => exact .bind .fetchWord fun _ => .pure _
      | long | unsized => exact .bind .fetchLong fun _ => .pure _

theorem moved_of_fetch {value : UInt32}
    (run : mode.fetch size machine = .ok (location, value) left) :
    (∃ pc, left =
      machine.withRegisters (mode.moved size machine.registers) pc) ∧
      ∀ place ∈ mode.place? size machine.registers, location = place := by
  obtain ⟨found, middle, resolved, rest⟩ := Execution.bind_eq_ok run
  obtain ⟨read, after, fetched, returned⟩ := Execution.bind_eq_ok rest
  cases returned
  obtain ⟨⟨pc, rfl⟩, placed⟩ := moved_of_resolve resolved
  obtain ⟨laterPc, rfl⟩ :=
    (Execution.Fetches.readLocation location size).eq_withPc fetched
  exact ⟨⟨laterPc, rfl⟩, placed⟩

end AddressingMode

namespace Source

/-- The registers once a source has been fetched. -/
def moved (source : Source) (size : OperandSize) (registers : Registers) :
    Registers :=
  match source with
  | operand mode => mode.moved size registers
  | _ => registers

theorem moved_of_fetch {source : Source} {size : OperandSize}
    {machine left : Machine FlatMemory} {value : UInt32}
    (run : source.fetch size machine = .ok value left) :
    ∃ pc, left =
      machine.withRegisters (source.moved size machine.registers) pc := by
  cases source with
  | none | constant constant | dataRegister number =>
      cases run
      exact ⟨machine.registers.pc, rfl⟩
  | extensionWord =>
      have fetches : Execution.Fetches (σ := FlatMemory)
          (Source.extensionWord.fetch size) :=
        .bind .fetchWord fun _ => .pure _
      exact fetches.eq_withPc run
  | operand mode =>
      obtain ⟨found, after, fetched, returned⟩ := Execution.bind_eq_ok run
      cases returned
      exact (AddressingMode.moved_of_fetch fetched).1

end Source

namespace Destination

/-- The registers once a destination has been found. -/
def moved (destination : Destination) (size : OperandSize)
    (registers : Registers) : Registers :=
  match destination with
  | operand mode | store mode => mode.moved size registers
  | _ => registers

/-- Where a destination is, if the registers alone tell. -/
def place? (destination : Destination) (size : OperandSize)
    (registers : Registers) : Option Location :=
  match destination with
  | none => .none
  | operand mode | store mode => mode.place? size registers
  | dataRegister number => some (.dataRegister number)
  | addressRegister number => some (.addressRegister number)

variable (destination : Destination) (size : OperandSize)

theorem moved_withPc (registers : Registers) (pc : UInt32) :
    destination.moved size { registers with pc } =
      { destination.moved size registers with pc } := by
  cases destination with
  | operand mode | store mode => exact mode.moved_withPc size registers pc
  | _ => rfl

theorem place?_withPc (registers : Registers) (pc : UInt32) :
    destination.place? size { registers with pc } =
      destination.place? size registers := by
  cases destination with
  | operand mode | store mode => exact mode.place?_withPc size registers pc
  | _ => rfl

variable {destination size}

theorem moved_of_fetch {machine left : Machine FlatMemory}
    {location : Option Location} {value : UInt32}
    (run : destination.fetch size machine = .ok (location, value) left) :
    (∃ pc, left =
      machine.withRegisters (destination.moved size machine.registers) pc) ∧
      ∀ place ∈ destination.place? size machine.registers,
        location = some place := by
  cases destination with
  | none =>
      cases run
      exact ⟨⟨machine.registers.pc, rfl⟩, fun _ member => nomatch member⟩
  | dataRegister number | addressRegister number =>
      cases run
      exact ⟨⟨machine.registers.pc, rfl⟩, fun _ member => member⟩
  | operand mode =>
      obtain ⟨found, after, fetched, returned⟩ := Execution.bind_eq_ok run
      cases returned
      obtain ⟨moved, placed⟩ := AddressingMode.moved_of_fetch fetched
      exact ⟨moved, fun place member => congrArg some (placed place member)⟩
  | store mode =>
      obtain ⟨found, after, resolved, returned⟩ := Execution.bind_eq_ok run
      cases returned
      obtain ⟨moved, placed⟩ := AddressingMode.moved_of_resolve resolved
      exact ⟨moved, fun place member => congrArg some (placed place member)⟩

end Destination

namespace DataInstruction

/-- The registers once the operands have been fetched. -/
def moved (instruction : DataInstruction) (registers : Registers) : Registers :=
  instruction.destination.moved instruction.size
    (instruction.source.moved instruction.size registers)

/-- Where the destination is, if the registers alone tell. -/
def place? (instruction : DataInstruction) (registers : Registers) :
    Option Location :=
  instruction.destination.place? instruction.size
    (instruction.source.moved instruction.size registers)

theorem control_moved (instruction : DataInstruction) (registers : Registers)
    (control : ControlRegister) :
    (instruction.moved registers).control control =
      registers.control control := by
  have kept (mode : AddressingMode) (size : OperandSize)
      (registers : Registers) :
      (mode.moved size registers).control control =
        registers.control control := by
    cases mode with
    | postincrement number | predecrement number =>
        exact registers.control_set _ _ control
    | _ => rfl
  have source : (instruction.source.moved instruction.size
      registers).control control = registers.control control := by
    cases instruction.source with
    | operand mode => exact kept mode _ registers
    | _ => rfl
  rw [moved, ← source]
  cases instruction.destination with
  | operand mode | store mode => exact kept mode _ _
  | _ => rfl

theorem moved_of_fetchOperands {instruction : DataInstruction}
    {machine fetched : Machine FlatMemory} {location : Option Location}
    {source destination : UInt32}
    (run : instruction.fetchOperands machine =
      .ok (source, location, destination) fetched) :
    (∃ pc, fetched =
      machine.withRegisters (instruction.moved machine.registers) pc) ∧
      ∀ place ∈ instruction.place? machine.registers,
        location = some place := by
  obtain ⟨middle, sourceRun, destinationRun⟩ := fetchOperands_eq_ok run
  obtain ⟨middlePc, rfl⟩ := Source.moved_of_fetch sourceRun
  obtain ⟨⟨pc, rfl⟩, placed⟩ := Destination.moved_of_fetch destinationRun
  simp only [Machine.withRegisters, Destination.moved_withPc,
    Destination.place?_withPc] at placed ⊢
  exact ⟨⟨pc, rfl⟩, placed⟩

end DataInstruction

/-! ## Results -/

/-- A quotient is found unless the exact one does not fit. -/
theorem Signedness.divide?_eq_none_iff (reading : Signedness)
    {wide width : Nat} (positive : 0 < width) (dividend : BitVec wide)
    (divisor : BitVec width) :
    reading.divide? dividend divisor = none ↔
      ¬reading.Represents width ((reading.integerOf dividend).tdiv
        (reading.integerOf divisor)) := by
  rw [← reading.represents_iff positive, divide?]
  simp

namespace DataOperation

/-- A division whose quotient is no word. -/
def Overflows (operation : DataOperation) (source destination : UInt32) :
    Prop :=
  ∃ reading : Signedness, operation = reading.division ∧
    ¬reading.Represents 16 ((reading.read 32 destination.toNat).tdiv
      (reading.read 16 source.toNat))

section

variable {reading : Signedness} {codes : ConditionCodes} {operands : Operands}

theorem divide?_operands (reading : Signedness) (operands : Operands) :
    reading.divide? operands.destination.toBitVec
        operands.source.toUInt16.toBitVec = none ↔
      ¬reading.Represents 16
        ((reading.read 32 operands.destination.toNat).tdiv
          (reading.read 16 operands.source.toNat)) := by
  rw [reading.divide?_eq_none_iff (by decide), reading.integerOf_toUInt16,
    reading.integerOf_eq_read]
  rfl

theorem overflows_of_discard
    (computed : computeQuotient reading codes operands = .discard) :
    reading.division.Overflows operands.source operands.destination := by
  simp only [computeQuotient] at computed
  split at computed
  · cases computed
  · split at computed
    · rename_i none
      exact ⟨reading, rfl, (divide?_operands reading operands).mp none⟩
    · cases computed

theorem represents_of_result {value : UInt32} {size : OperandSize}
    {left : ConditionCodes}
    (computed : computeQuotient reading codes operands =
      .result value size left) :
    reading.Represents 16
      ((reading.read 32 operands.destination.toNat).tdiv
        (reading.read 16 operands.source.toNat)) := by
  simp only [computeQuotient] at computed
  split at computed
  · cases computed
  · split at computed
    · cases computed
    · rename_i division found
      by_contra large
      rw [(divide?_operands reading operands).mpr large] at found
      cases found

end

/-- Operations on bytes only. -/
def isByte : DataOperation → Bool
  | tas | abcd | sbcd | nbcd => true
  | _ => false

/-- Operations on words whose result is a long. -/
def isWidening : DataOperation → Bool
  | mulu | muls | divu | divs => true
  | _ => false

theorem size_of_compute {operation : DataOperation} {status : StatusRegister}
    {size written : OperandSize} {operands : Operands} {value : UInt32}
    {codes : ConditionCodes} (bytes : operation.isByte = true → size = .byte)
    (computed : operation.compute status size operands =
      .result value written codes) :
    written = if operation.isWidening then .long else size := by
  cases operation with
  | tas | abcd | sbcd | nbcd =>
      cases computed
      exact (bytes rfl).symm
  | divu | divs =>
      simp only [compute, computeQuotient] at computed
      split at computed
      · cases computed
      · split at computed
        · cases computed
        · cases computed
          rfl
  | chk =>
      simp only [compute, computeCheck] at computed
      split at computed
      · cases computed
      · split at computed <;> cases computed
  | _ =>
      cases computed
      rfl

end DataOperation

namespace DataInstruction

/-- The size at which a result is written. -/
def committedSize (instruction : DataInstruction) : OperandSize :=
  if instruction.operation.isWidening then .long else instruction.workingSize

theorem IsFormed.committedSize_ne_unsized {instruction : DataInstruction}
    (formed : instruction.IsFormed) :
    instruction.committedSize ≠ .unsized := by
  have sized := formed.sized
  unfold committedSize workingSize
  split
  · exact OperandSize.noConfusion
  · split
    · exact OperandSize.noConfusion
    · exact sized

theorem IsFormed.workingSize_byte {instruction : DataInstruction}
    (formed : instruction.IsFormed)
    (byte : instruction.operation.isByte = true) :
    instruction.workingSize = .byte := by
  have other {operations : List DataOperation}
      (wide : ∀ operation ∈ operations, operation.isByte = false)
      (operates : instruction.operation ∈ operations) :
      instruction.workingSize = .byte := by
    rw [wide _ operates] at byte
    cases byte
  cases formed with
  | unaryByte => rfl
  | extendedRegisters source destination operates
  | extendedMemory source destination operates =>
      obtain ⟨operates, -⟩ | ⟨-, rfl⟩ := operates
      · exact other (by decide) operates
      · rfl
  | immediate operates | unary operates | storeStatus operates
  | quickToAddress number operates | quick operates
  | toMemory number operates | toRegister number operates
  | onAddress number operates | product number operates =>
      exact other (by decide) operates
  | inRegister number operates =>
      have operates := List.mem_map_of_mem (f := Prod.fst) operates
      exact other (by decide) operates
  | _ => cases byte

/-- Results that an instruction does not write: those of comparisons and tests,
and quotients that do not fit. -/
def Withholds (instruction : DataInstruction) (source destination : UInt32) :
    Prop :=
  instruction.operation.writes = false ∨
    instruction.operation.Overflows source destination

section

variable {instruction : DataInstruction} {status : StatusRegister}
  {source destination : UInt32}

theorem withholds_of_discard (formed : instruction.IsFormed)
    (computed : instruction.operation.compute status instruction.workingSize
      (instruction.operands source destination) = .discard) :
    instruction.Withholds source destination := by
  obtain ⟨operation, size, src, place⟩ := instruction
  cases operation with
  | divu =>
      obtain ⟨mode, target, rfl, rfl, rfl⟩ :=
        Instruction.word_of_isFormed (by decide) formed
      have large : Signedness.unsigned.division.Overflows source destination :=
        DataOperation.overflows_of_discard computed
      exact .inr large
  | divs =>
      obtain ⟨mode, target, rfl, rfl, rfl⟩ :=
        Instruction.word_of_isFormed (by decide) formed
      have large : Signedness.signed.division.Overflows source destination :=
        DataOperation.overflows_of_discard computed
      exact .inr large
  | chk => exact .inl rfl
  | _ => cases computed

theorem not_withholds_of_result (formed : instruction.IsFormed)
    (writes : instruction.operation.writes = true) {value : UInt32}
    {size : OperandSize} {codes : ConditionCodes}
    (computed : instruction.operation.compute status instruction.workingSize
      (instruction.operands source destination) = .result value size codes) :
    ¬instruction.Withholds source destination := by
  rintro (unwritten | ⟨reading, division, large⟩)
  · rw [writes] at unwritten
    cases unwritten
  · obtain ⟨operation, size, src, place⟩ := instruction
    obtain rfl : operation = reading.division := division
    obtain ⟨mode, target, rfl, rfl, rfl⟩ :=
      Instruction.word_of_isFormed (by cases reading <;> decide) formed
    refine large ?_
    cases reading with
    | unsigned | signed =>
        exact DataOperation.represents_of_result computed

end

end DataInstruction

/-! ## Destinations -/

/-- A write that succeeds has put the operand's bytes in place. -/
theorem Execution.writeData_flat_eq_ok {machine left : Machine FlatMemory}
    {address value : UInt32} {size : OperandSize} (sized : size ≠ .unsized)
    (run : writeData address size value machine = .ok () left) :
    address.toNat + size.bytes ≤ machine.memory.size ∧
      left = { machine with
        memory := machine.memory.overwrite address
          ((size.bytesOf value).map some) } := by
  obtain ⟨space, middle, observed, rest⟩ := bind_eq_ok run
  cases observed
  obtain ⟨checked, after, aligned, access⟩ := bind_eq_ok rest
  rw [checkAlignment_apply] at aligned
  split at aligned
  · cases aligned
  · cases aligned
    have written {contents : List UInt8}
        (granted : onBus (FlatMemory.writeRun address (contents.map some))
          machine = .ok () left) :
        address.toNat + contents.length ≤ machine.memory.size ∧
          left = { machine with
            memory := machine.memory.overwrite address
              (contents.map some) } := by
      obtain ⟨memory, written, rfl⟩ := onBus_eq_ok granted
      obtain ⟨covered, rfl⟩ := FlatMemory.writeRun_eq_ok_iff.mp written
      rw [List.length_map] at covered
      exact ⟨covered, rfl⟩
    rw [← size.length_bytesOf value]
    cases size with
    | byte | word | long => exact written access
    | unsized => exact absurd rfl sized

namespace DataInstruction

/-- What an instruction writes once its operands are fetched. -/
inductive Commits (instruction : DataInstruction) (source destination : UInt32)
    (fetched : Machine FlatMemory) :
    Option Location → Machine FlatMemory → Prop where
  | nothing {location : Option Location}
      (withholds : instruction.Withholds source destination) :
      instruction.Commits source destination fetched location fetched
  | dataRegister {number : Fin 8} (value : UInt32)
      (commits : ¬instruction.Withholds source destination) :
      instruction.Commits source destination fetched
        (some (.dataRegister number))
        { fetched with
          registers := fetched.registers.set (.data number)
            (instruction.committedSize.merge
              (fetched.registers.get (.data number)) value) }
  | addressRegister {number : Fin 8} (value : UInt32)
      (commits : ¬instruction.Withholds source destination) :
      instruction.Commits source destination fetched
        (some (.addressRegister number))
        { fetched with
          registers := fetched.registers.set (.address number) value }
  | memory {address : UInt32} (value : UInt32)
      (commits : ¬instruction.Withholds source destination)
      (inside : address.toNat + instruction.committedSize.bytes ≤
        fetched.memory.size) :
      instruction.Commits source destination fetched (some (.memory address))
        { fetched with
          memory := fetched.memory.overwrite address
            ((instruction.committedSize.bytesOf value).map some) }

/-- What a successful instruction has done to a machine. -/
inductive Touches (instruction : DataInstruction)
    (machine : Machine FlatMemory) : Machine FlatMemory → Prop where
  | intro {source destination pc : UInt32} {location : Option Location}
      {committed : Machine FlatMemory} {codes : ConditionCodes}
      (fetches : instruction.fetchOperands machine =
        .ok (source, location, destination)
          (machine.withRegisters (instruction.moved machine.registers) pc))
      (places : ∀ place ∈ instruction.place? machine.registers,
        location = some place)
      (commits : instruction.Commits source destination
        (machine.withRegisters (instruction.moved machine.registers) pc)
        location committed)
      (inRange : machine.status.codes.InRange → codes.InRange) :
      instruction.Touches machine (committed.setConditionCodes codes)

variable {instruction : DataInstruction} {source destination value : UInt32}
  {fetched written : Machine FlatMemory} {location : Option Location}

/-- A place that is written has changed, and nothing else. -/
theorem commits_of_write {place : Location} {codes : ConditionCodes}
    (commits : ¬instruction.Withholds source destination)
    (sized : instruction.committedSize ≠ .unsized)
    (run : place.write instruction.committedSize value
      (fetched.setConditionCodes codes) = .ok () written) :
    ∃ committed, written = committed.setConditionCodes codes ∧
      instruction.Commits source destination fetched (some place)
        committed := by
  cases place with
  | dataRegister number =>
      cases run
      exact ⟨_, rfl, .dataRegister value commits⟩
  | addressRegister number =>
      cases run
      exact ⟨_, rfl, .addressRegister _ commits⟩
  | memory address =>
      obtain ⟨inside, rfl⟩ := Execution.writeData_flat_eq_ok sized run
      exact ⟨_, rfl, .memory value commits inside⟩
  | program address | immediate constant => cases run

/-- A computed result is written to the destination, unless the instruction only
compares or tests. -/
theorem touches_of_finish {machine left : Machine FlatMemory} {pc : UInt32}
    {size : OperandSize} {codes : ConditionCodes}
    (formed : instruction.IsFormed)
    (fetches : instruction.fetchOperands machine =
      .ok (source, location, destination)
        (machine.withRegisters (instruction.moved machine.registers) pc))
    (computed : instruction.operation.compute machine.status
      instruction.workingSize (instruction.operands source destination) =
        .result value size codes)
    (run : instruction.finish location
      (instruction.operands source destination) value size
      ((machine.withRegisters (instruction.moved machine.registers)
        pc).setConditionCodes codes) = .ok () left) :
    instruction.Touches machine left := by
  obtain ⟨-, places⟩ := moved_of_fetchOperands fetches
  have ranged (inRange : machine.status.codes.InRange) : codes.InRange := by
    have ranged := DataOperation.inRange_compute inRange instruction.operation
      instruction.workingSize (instruction.operands source destination)
    rw [computed] at ranged
    exact ranged
  cases writes : instruction.operation.writes with
  | false =>
      rw [finish_of_unwritten writes] at run
      cases run
      rw [Machine.setConditionCodes_last]
      exact .intro fetches places (.nothing (.inl writes))
        fun inRange => FlagRule.inRange_apply (ranged inRange) _ _ _ _ _
  | true =>
      have named : instruction.destination ≠ .none := by
        refine formed.named ?_
        rintro test
        rw [test] at writes
        cases writes
      obtain ⟨middle, -, destinationRun⟩ := fetchOperands_eq_ok fetches
      obtain ⟨place, rfl⟩ := Destination.exists_location named destinationRun
      cases write : place.write size value
          ((machine.withRegisters (instruction.moved machine.registers)
            pc).setConditionCodes codes) with
      | error fault after =>
          rw [finish_of_refused writes write] at run
          cases run
      | ok done written =>
          rw [finish_of_written writes write] at run
          cases run
          obtain rfl : size = instruction.committedSize :=
            DataOperation.size_of_compute formed.workingSize_byte computed
          obtain ⟨committed, rfl, commits⟩ := commits_of_write
            (not_withholds_of_result formed writes computed)
            formed.committedSize_ne_unsized write
          rw [Machine.setConditionCodes_last]
          exact .intro fetches places commits fun inRange =>
            FlagRule.inRange_apply (ranged inRange) _ _ _ _ _

theorem touches_of_execute {machine left : Machine FlatMemory}
    (formed : instruction.IsFormed)
    (run : instruction.execute machine = .ok () left) :
    instruction.Touches machine left := by
  cases fetches : instruction.fetchOperands machine with
  | error fault after =>
      rw [execute_of_unfetched fetches] at run
      cases run
  | ok found fetched =>
      obtain ⟨source, location, destination⟩ := found
      obtain ⟨⟨pc, rfl⟩, places⟩ := moved_of_fetchOperands fetches
      obtain ⟨middle, sourceRun, destinationRun⟩ := fetchOperands_eq_ok fetches
      cases computed : instruction.operation.compute machine.status
          instruction.workingSize
          (instruction.operands source destination) with
      | trap fault codes =>
          rw [execute_of_trap sourceRun destinationRun computed] at run
          cases run
      | discard =>
          rw [execute_of_discard sourceRun destinationRun computed] at run
          cases run
          have touched : instruction.Touches machine
              (Machine.setConditionCodes _ machine.status.codes) :=
            .intro fetches places
              (.nothing (withholds_of_discard formed computed)) id
          exact touched
      | result value size codes =>
          rw [execute_of_result sourceRun destinationRun computed] at run
          exact touches_of_finish formed fetches computed run

/-- The system state is not touched. -/
theorem Touches.sameSystem {machine left : Machine FlatMemory}
    (touches : instruction.Touches machine left) :
    left.SameSystem machine ∧ left.opcode = machine.opcode ∧
      left.visits = machine.visits := by
  obtain ⟨fetches, places, commits, inRange⟩ := touches
  have moved (pc : UInt32) (control : ControlRegister) :
      (machine.withRegisters (instruction.moved machine.registers)
        pc).registers.control control = machine.registers.control control := by
    rw [Machine.withRegisters, Registers.control_withPc, control_moved]
  cases commits with
  | nothing | memory =>
      exact ⟨⟨rfl, rfl, rfl, rfl, rfl, moved _⟩, rfl, rfl⟩
  | dataRegister | addressRegister =>
      refine ⟨⟨rfl, rfl, rfl, rfl, rfl, fun control => ?_⟩, rfl, rfl⟩
      exact (Registers.control_set _ _ _ control).trans (moved _ control)

end DataInstruction

/-- A data instruction that succeeds leaves a machine that differs in the
program counter, the condition codes, the address registers that its operands
move and at most one destination, and never in the system state. -/
theorem Execution.executeOpcode_touches {machine left : Machine FlatMemory}
    {instruction : DataInstruction}
    (decoded : Instruction.decode? machine.opcode = some (.data instruction))
    (run : executeOpcode machine = .ok () left) :
    instruction.Touches machine left ∧ left.SameSystem machine ∧
      left.opcode = machine.opcode ∧ left.visits = machine.visits := by
  have formed : instruction.IsFormed := Instruction.isFormed_of_decode? decoded
  have touches : instruction.Touches machine left := by
    refine DataInstruction.touches_of_execute formed ?_
    cases admitted : Instruction.admit machine.opcode machine.model
        machine.isSupervisor with
    | error fault =>
        rw [executeOpcode, admitted] at run
        cases run
    | ok found =>
        obtain rfl : Instruction.data instruction = found :=
          Option.some.inj
            (decoded.symm.trans (Instruction.admit_eq_ok admitted).1)
        rw [executeOpcode_of_admitted admitted] at run
        exact run
  exact ⟨touches, touches.sameSystem⟩

/-- A machine about to store a byte below the stack pointer, which stays even,
by MOVE.B D0,-(A7). -/
def Machine.storingByte : Machine FlatMemory where
  model := .mc68000
  opcode := 0x1F00
  registers :=
    { data := #v[0x89ABCDEF, 0, 0, 0, 0, 0, 0, 0]
      address := #v[0, 0, 0, 0, 0, 0, 0, 4] }
  memory := ⟨#[0, 0, 0, 0]⟩

theorem Machine.storingByte_touches :
    ∃ left, Execution.executeOpcode storingByte = .ok () left ∧
      DataInstruction.Touches
        ⟨.move, .byte, .operand (.dataRegister 0), .store (.predecrement 7)⟩
        storingByte left :=
  ⟨_, rfl, (Execution.executeOpcode_touches (by decide) rfl).1⟩

end M68k

import M68k.Execution
import M68k.Memory.Banked
import M68k.Proofs.DataExecution
import M68k.Proofs.DecodedModes
import M68k.Proofs.StepPhases

/-!
# Results that are refused

A memory can refuse the result of an instruction, and the instruction then
starts again from its stacked program counter.  Most instructions set their
condition codes once the result is written, so that they find the codes of the
first time when they start again.  Shifts, decimal operations and TAS have set
theirs by then, and find the codes of the result that was refused.
-/

namespace M68k

/-! ## Executions that leave the status alone -/

namespace Execution

variable {σ α β : Type}

/-- Wherever an execution ends, the status register is as before. -/
def KeepsStatus (execution : Execution σ α) : Prop :=
  ∀ machine, Ends (fun left => left.status = machine.status)
    (execution machine)

namespace KeepsStatus

theorem pure (value : α) : KeepsStatus (Pure.pure value : Execution σ α) :=
  fun _ => rfl

theorem throw (fault : Fault) :
    KeepsStatus (MonadExcept.throw fault : Execution σ α) :=
  fun _ => rfl

theorem observe (view : Machine σ → α) :
    KeepsStatus (Execution.observe view) :=
  fun _ => rfl

theorem setRegister (register : Register) (value : UInt32) :
    KeepsStatus (σ := σ) (Execution.setRegister register value) :=
  fun _ => rfl

theorem onBus (transaction : Bus σ α) :
    KeepsStatus (Execution.onBus transaction) := by
  intro machine
  refine (ends_onBus_onlyMemory transaction machine).mono ?_
  rintro left ⟨memory, rfl⟩
  rfl

theorem bind {first : Execution σ α} {next : α → Execution σ β}
    (keeps : KeepsStatus first) (goesOn : ∀ value, KeepsStatus (next value)) :
    KeepsStatus (first >>= next) := by
  intro machine
  refine (keeps machine).bind (fun _ same => same) ?_
  intro value left _ same
  exact (goesOn value left).mono fun _ still => still.trans same

theorem ite {condition : Prop} [Decidable condition]
    {first second : Execution σ α} (holds : KeepsStatus first)
    (fails : KeepsStatus second) :
    KeepsStatus (if condition then first else second) := by
  split
  · exact holds
  · exact fails

theorem status_of_error {execution : Execution σ α}
    (keeps : KeepsStatus execution) {machine left : Machine σ} {fault : Fault}
    (run : execution machine = .error fault left) :
    left.status = machine.status := by
  have ends := keeps machine
  rw [run] at ends
  exact ends

variable [Memory σ]

theorem ofLocates {execution : Execution σ α} (locates : Locates execution) :
    KeepsStatus execution :=
  fun machine => (locates machine).mono fun _ => OnlyLocated.status

theorem writeIn (space : FunctionCode) (address : UInt32) (size : OperandSize)
    (value : UInt32) :
    KeepsStatus (σ := σ) (Execution.writeIn space address size value) := by
  intro machine
  refine (ends_writeIn space address size value machine).mono ?_
  rintro left ⟨memory, rfl⟩
  rfl

theorem writeData (address : UInt32) (size : OperandSize) (value : UInt32) :
    KeepsStatus (σ := σ) (Execution.writeData address size value) :=
  (observe _).bind fun space => writeIn space address size value

theorem writeLocation (location : Location) (size : OperandSize)
    (value : UInt32) :
    KeepsStatus (σ := σ) (location.write size value) := by
  cases location with
  | dataRegister number => exact (observe _).bind fun _ => setRegister _ _
  | addressRegister number => exact setRegister _ _
  | memory address => exact writeData address size value
  | program address => exact throw _
  | immediate constant => exact throw _

/-! ### Transfers to memory -/

theorem storeAscending (size : OperandSize) (address : UInt32)
    (registers : List Register) :
    KeepsStatus (σ := σ)
      (Execution.storeAscending size address registers) := by
  induction registers generalizing address with
  | nil => exact pure ()
  | cons first rest induction =>
      exact (observe _).bind fun _ => (writeData _ _ _).bind fun _ =>
        induction _

theorem storeDescending (size : OperandSize) (special : Register)
    (specialValue address : UInt32) (registers : List Register) :
    KeepsStatus (σ := σ)
      (Execution.storeDescending size special specialValue address
        registers) := by
  induction registers generalizing address with
  | nil => exact pure address
  | cons first rest induction =>
      refine .ite ?_ ?_
      · exact (pure specialValue).bind fun _ => (writeData _ _ _).bind fun _ =>
          induction _
      · exact (observe _).bind fun _ => (writeData _ _ _).bind fun _ =>
          induction _

theorem resolveAddress (mode : AddressingMode) (size : OperandSize) :
    KeepsStatus (σ := σ) (mode.resolveAddress size) := by
  refine (ofLocates (.resolve mode size)).bind fun location => ?_
  cases location.address? with
  | none => exact throw _
  | some address => exact pure address

theorem movemStore (size : OperandSize) (mode : AddressingMode) :
    KeepsStatus (σ := σ) (Execution.movemStore size mode) := by
  refine (ofLocates Fetches.fetchWord.locates).bind fun mask => ?_
  cases mode with
  | predecrement number =>
      refine (observe _).bind fun initial => bind ?_ fun stored => ?_
      · exact (observe _).bind fun final => .ite (pure _) (pure _)
      · exact (storeDescending _ _ _ _ _).bind fun _ => setRegister _ _
  | _ => exact (resolveAddress _ size).bind fun _ => storeAscending _ _ _

theorem movepStore (size : OperandSize) (data address : Fin 8) :
    KeepsStatus (σ := σ) (Execution.movepStore size data address) := by
  refine bind (ofLocates ?_) fun start => ?_
  · exact Fetches.fetchDisplacement.locates.bind fun _ =>
      (Locates.observe _).bind fun _ => .pure _
  · exact (observe _).bind fun _ => (observe _).bind fun _ => onBus _

theorem moves (size : OperandSize) (mode : AddressingMode) :
    KeepsStatus (σ := σ) (Execution.moves size mode) := by
  refine (ofLocates Fetches.fetchWord.locates).bind fun extension => ?_
  refine (resolveAddress mode size).bind fun address => .ite ?_ ?_
  · exact (observe _).bind fun _ => (observe _).bind fun _ => writeIn _ _ _ _
  · refine (observe _).bind fun space => bind ?_ fun value =>
      writeLocation _ _ _
    intro machine
    refine (ends_readIn _ address size machine).mono ?_
    rintro left ⟨memory, rfl⟩
    rfl

end KeepsStatus

end Execution

/-! ## Codes set before the write -/

namespace DataOperation

/-- Operations that set the condition codes before their result is written. -/
def setsCodesFirst : DataOperation → Bool
  | tas | abcd | sbcd | nbcd | shift _ => true
  | _ => false

/-- Operations that end with a trap instead of a result. -/
def traps : DataOperation → Bool
  | divu | divs | chk => true
  | _ => false

variable {operation : DataOperation} {status : StatusRegister}
  {size : OperandSize} {operands : Operands} {codes : ConditionCodes}

theorem codes_of_compute {value : UInt32} {written : OperandSize}
    (late : operation.setsCodesFirst = false)
    (computed : operation.compute status size operands =
      .result value written codes) :
    codes = status.codes := by
  cases operation with
  | tas | abcd | sbcd | nbcd | shift => cases late
  | divu | divs =>
    simp only [compute, computeQuotient] at computed
    split at computed
    · cases computed
    · split at computed
      · cases computed
      · cases computed
        rfl
  | chk =>
    simp only [compute, computeCheck] at computed
    split at computed
    · cases computed
    · split at computed <;> cases computed
  | _ =>
    cases computed
    rfl

theorem traps_of_compute {fault : Fault}
    (computed : operation.compute status size operands = .trap fault codes) :
    operation.traps = true := by
  cases operation with
  | divu | divs | chk => rfl
  | _ => cases computed

end DataOperation

namespace Destination

/-- Whether a result goes to an operand in memory. -/
def isInMemory : Destination → Bool
  | operand mode | store mode => mode.isMemory
  | _ => false

end Destination

/-- A refused write is a reason to start again. -/
theorem Location.restarts_of_write {σ : Type} [Memory σ]
    {location : Location} {size : OperandSize} {value : UInt32}
    {machine left : Machine σ} {fault : Fault}
    (run : location.write size value machine = .error fault left) :
    fault.restartsInstruction = true := by
  have refused {transaction : Bus σ Unit}
      (run : Execution.onBus transaction machine = .error fault left) :
      fault = .busError := by
    rw [Execution.onBus] at run
    split at run
    · cases run
    · cases run
      rfl
  cases location with
  | dataRegister number | addressRegister number => cases run
  | program address | immediate constant =>
      cases run
      rfl
  | memory address =>
      simp only [write, Execution.writeData, Execution.dataSpace,
        Execution.observe, Execution.writeIn, Execution.bind_apply,
        Execution.checkAlignment_apply] at run
      by_cases odd : size ≠ .byte ∧ machine.misaligned address = true
      · rw [if_pos odd] at run
        cases run
        rfl
      · rw [if_neg odd] at run
        cases size with
        | unsized => cases run
        | byte | word | long =>
            rw [refused run]
            rfl

namespace DataInstruction

/-- No instruction traps whose result goes to memory. -/
theorem IsFormed.traps_eq_false {instruction : DataInstruction}
    (formed : instruction.IsFormed)
    (inMemory : instruction.destination.isInMemory = true) :
    instruction.operation.traps = false := by
  have other {operations : List DataOperation}
      (plain : ∀ operation ∈ operations, operation.traps = false)
      (operates : instruction.operation ∈ operations) :
      instruction.operation.traps = false :=
    plain _ operates
  cases formed with
  | immediate operates | unary operates | unaryByte operates
  | storeStatus operates | quick operates | toMemory number operates =>
      exact other (by decide) operates
  | extendedMemory source destination operates =>
      obtain ⟨operates, -⟩ | ⟨operates, -⟩ := operates
      · exact other (by decide) operates
      · exact other (by decide) operates
  | check number | product number | toRegister number | onAddress number
  | inRegister number | quickToAddress number
  | extendedRegisters source destination =>
      cases inMemory
  | _ => rfl

/-! ## Refused results -/

section

variable {σ : Type} [Memory σ]

/-- How a data instruction is left that does not finish. -/
inductive Unfinished (instruction : DataInstruction) (machine : Machine σ)
    (fault : Fault) (left : Machine σ) : Prop where
  /-- An operand was not fetched. -/
  | unfetched
      (run : instruction.fetchOperands machine = .error fault left)
      (status : left.status = machine.status)
  /-- The result was not written. -/
  | unwritten {location : Location} {source destination value : UInt32}
      {size : OperandSize} {codes : ConditionCodes} {fetched : Machine σ}
      (fetches : instruction.fetchOperands machine =
        .ok (source, some location, destination) fetched)
      (computes : instruction.operation.compute machine.status
        instruction.workingSize (instruction.operands source destination) =
          .result value size codes)
      (refused : location.write size value (fetched.setConditionCodes codes) =
        .error fault left)
      (restarts : fault.restartsInstruction = true)
      (status : left.status = { machine.status with codes })

variable {instruction : DataInstruction} {machine left : Machine σ}
  {fault : Fault}

theorem Unfinished.status
    (unfinished : instruction.Unfinished machine fault left)
    (late : instruction.operation.setsCodesFirst = false) :
    left.status = machine.status := by
  cases unfinished with
  | unfetched run status => exact status
  | unwritten fetches computes refused restarts status =>
      rw [status, DataOperation.codes_of_compute late computes]

theorem unfinished_of_execute
    (inMemory : instruction.destination.isInMemory = true)
    (traps : instruction.operation.traps = false)
    (run : instruction.execute machine = .error fault left) :
    instruction.Unfinished machine fault left := by
  have located := instruction.locates_fetchOperands machine
  cases fetches : instruction.fetchOperands machine with
  | error refusal after =>
      have same := run.symm.trans (execute_of_unfetched fetches)
      cases same
      rw [fetches] at located
      exact .unfetched fetches located.status
  | ok found fetched =>
      obtain ⟨source, location, destination⟩ := found
      rw [fetches] at located
      obtain ⟨middle, sourceFetched, destinationFetched⟩ :=
        fetchOperands_eq_ok fetches
      have exists_place : ∃ place, location = some place := by
        refine Destination.exists_location ?_ destinationFetched
        intro none
        rw [none] at inMemory
        cases inMemory
      obtain ⟨place, rfl⟩ := exists_place
      -- Only a result that is refused is left, as nothing else can fail.
      cases computes : instruction.operation.compute fetched.status
          instruction.workingSize
          (instruction.operands source destination) with
      | trap trapped codes =>
          rw [DataOperation.traps_of_compute computes] at traps
          cases traps
      | discard =>
          rw [execute_of_discard sourceFetched destinationFetched computes]
            at run
          cases run
      | result value size codes =>
          rw [execute_of_result sourceFetched destinationFetched computes]
            at run
          cases writes : instruction.operation.writes with
          | false =>
              rw [finish_of_unwritten writes] at run
              cases run
          | true =>
              cases write : place.write size value
                  (fetched.setConditionCodes codes) with
              | ok done written =>
                  rw [finish_of_written writes write] at run
                  cases run
              | error refusal after =>
                  rw [finish_of_refused writes write] at run
                  cases run
                  have status := (Execution.KeepsStatus.writeLocation place
                    size value).status_of_error write
                  rw [located.status] at computes
                  refine .unwritten fetches computes write
                    (Location.restarts_of_write write) (status.trans ?_)
                  rw [← located.status]
                  rfl

end

end DataInstruction

namespace Instruction

/-- Instructions whose result goes to an operand in memory. -/
def storesOperand : Instruction → Bool
  | data instruction => instruction.destination.isInMemory
  | movemStore _ _ | movepStore _ _ _ | moves _ _ => true
  | _ => false

/-- Instructions that set the condition codes before their result is written. -/
def setsCodesFirst : Instruction → Bool
  | data instruction => instruction.operation.setsCodesFirst
  | _ => false

end Instruction

/-- An instruction that ends with a fault before its result is in memory leaves
the status register alone, unless it is a shift, a decimal operation or TAS.
These keep it until they have fetched their operands, but when the write is
refused, the condition codes are those of the result. -/
theorem Execution.executeOpcode_unwritten {σ : Type} [Memory σ]
    {machine left : Machine σ} {instruction : Instruction} {fault : Fault}
    (admitted : Instruction.admit machine.opcode machine.model
      machine.isSupervisor = .ok instruction)
    (stores : instruction.storesOperand = true)
    (run : executeOpcode machine = .error fault left) :
    (instruction.setsCodesFirst = false → left.status = machine.status) ∧
      ∀ computing, instruction = .data computing →
        computing.Unfinished machine fault left := by
  rw [executeOpcode_of_admitted admitted] at run
  have transfer (keeps : KeepsStatus (σ := σ) instruction.execute)
      (other : ∀ computing, instruction ≠ .data computing) :
      (instruction.setsCodesFirst = false → left.status = machine.status) ∧
        ∀ computing, instruction = .data computing →
          computing.Unfinished machine fault left :=
    ⟨fun _ => keeps.status_of_error run,
      fun computing same => absurd same (other computing)⟩
  cases instruction with
  | data computing =>
      have formed : computing.IsFormed :=
        Instruction.isFormed_of_decode? (Instruction.admit_eq_ok admitted).1
      have unfinished := DataInstruction.unfinished_of_execute stores
        (formed.traps_eq_false stores) run
      refine ⟨unfinished.status, ?_⟩
      rintro _ ⟨⟩
      exact unfinished
  | movemStore size mode =>
      exact transfer (.movemStore size mode) fun _ => Instruction.noConfusion
  | movepStore size number address =>
      exact transfer (.movepStore size number address) fun _ =>
        Instruction.noConfusion
  | moves size mode =>
      exact transfer (.moves size mode) fun _ => Instruction.noConfusion
  | _ => cases stores

namespace Machine

/-- A memory with two bytes that can be read but not written. -/
def protectedWord : BankedMemory where
  banks := #[#[0x40, 0x00]]
  bankOf := .replicate 8 (some 0)
  base := 0
  readOnly := [(0, 2)]

/-- A machine about to negate the protected word with borrow, by NEGX.W (A0). -/
def negatingProtected : Machine BankedMemory where
  model := .mc68000
  opcode := 0x4050
  status := { codes := { extend := 1 } }
  memory := protectedWord

theorem negatingProtected_keeps :
    ∃ left,
      Execution.executeOpcode negatingProtected = .error .busError left ∧
        left.status = negatingProtected.status := by
  have admitted : Instruction.admit negatingProtected.opcode
      negatingProtected.model negatingProtected.isSupervisor =
        .ok (.data ⟨.negx, .word, .none, .operand (.indirect 0)⟩) := by
    decide
  have run : Execution.executeOpcode negatingProtected =
      .error .busError _ := rfl
  exact ⟨_, run,
    (Execution.executeOpcode_unwritten admitted (by decide) run).1 rfl⟩

/-- A machine about to rotate the protected word through the extend flag, by
ROXL.W (A0). -/
def rotatingProtected : Machine BankedMemory where
  model := .mc68000
  opcode := 0xE5D0
  status := { codes := { extend := 1 } }
  memory := protectedWord

/-- The extend flag is gone when the instruction starts again. -/
theorem rotatingProtected_changes :
    ∃ left,
      Execution.executeOpcode rotatingProtected = .error .busError left ∧
        Fault.busError.restartsInstruction = true ∧
        rotatingProtected.status.codes.extend = 1 ∧
        left.status.codes.extend = 0 :=
  ⟨_, rfl, rfl, rfl, rfl⟩

end Machine

end M68k

import M68k.Execution.Data
import M68k.Proofs.FetchExecutions

/-!
# Data instructions from their operands on

Once the operands are fetched, a data instruction is a computation, a write and
a flag rule.
-/

namespace M68k

/-- What is fetched as a destination is a place to write to. -/
theorem Destination.exists_location {σ : Type} [Memory σ]
    {destination : Destination} (named : destination ≠ .none)
    {size : OperandSize} {machine left : Machine σ} {location : Option Location}
    {value : UInt32}
    (run : destination.fetch size machine = .ok (location, value) left) :
    ∃ place, location = some place := by
  cases destination with
  | none => exact absurd rfl named
  | dataRegister number | addressRegister number =>
      cases run
      exact ⟨_, rfl⟩
  | operand mode =>
      obtain ⟨found, after, -, returned⟩ := Execution.bind_eq_ok run
      cases returned
      exact ⟨_, rfl⟩
  | store mode =>
      obtain ⟨found, after, -, returned⟩ := Execution.bind_eq_ok run
      cases returned
      exact ⟨_, rfl⟩

namespace DataInstruction

variable {σ : Type} [Memory σ] {instruction : DataInstruction}

/-- Fetches the source and then the destination. -/
def fetchOperands (instruction : DataInstruction) :
    Execution σ (UInt32 × Option Location × UInt32) := do
  let source ← instruction.source.fetch instruction.size
  let (location, destination) ← instruction.destination.fetch instruction.size
  return (source, location, destination)

theorem locates_fetchOperands (instruction : DataInstruction) :
    Execution.Locates (σ := σ) instruction.fetchOperands :=
  (Execution.Locates.fetchSource instruction.source _).bind fun _ =>
    (Execution.Locates.fetchDestination instruction.destination _).bind
      fun _ => .pure _

theorem fetchOperands_eq_ok {machine fetched : Machine σ}
    {location : Option Location} {source destination : UInt32}
    (run : instruction.fetchOperands machine =
      .ok (source, location, destination) fetched) :
    ∃ middle,
      instruction.source.fetch instruction.size machine = .ok source middle ∧
        instruction.destination.fetch instruction.size middle =
          .ok (location, destination) fetched := by
  obtain ⟨found, middle, sourceRun, rest⟩ := Execution.bind_eq_ok run
  obtain ⟨place, after, destinationRun, returned⟩ := Execution.bind_eq_ok rest
  cases returned
  exact ⟨middle, sourceRun, destinationRun⟩

theorem execute_of_unfetched {machine left : Machine σ} {fault : Fault}
    (run : instruction.fetchOperands machine = .error fault left) :
    instruction.execute machine = .error fault left := by
  simp only [fetchOperands, execute, Execution.bind_apply] at run ⊢
  cases sourceRun : instruction.source.fetch instruction.size machine with
  | error refusal after =>
      rw [sourceRun] at run
      cases run
      rfl
  | ok source middle =>
      rw [sourceRun] at run
      dsimp only at run ⊢
      cases destinationRun : instruction.destination.fetch instruction.size
          middle with
      | error refusal after =>
          rw [destinationRun] at run
          cases run
          rfl
      | ok place after =>
          rw [destinationRun] at run
          cases run

theorem workingSize_of_data
    (data : instruction.destination.isAddressRegister = false) :
    instruction.workingSize = instruction.size := by
  rw [workingSize, data]
  rfl

theorem widen_of_data
    (data : instruction.destination.isAddressRegister = false)
    (source : UInt32) : instruction.widen source = source := by
  rw [widen, data]
  rfl

theorem workingSize_of_address {number : Fin 8}
    (whole : instruction.destination = .addressRegister number) :
    instruction.workingSize = .long := by
  rw [workingSize, whole]
  rfl

/-- The operands as an instruction computes with them. -/
def operands (instruction : DataInstruction) (source destination : UInt32) :
    Operands :=
  instruction.operation.arrange instruction.workingSize
    ⟨instruction.widen source, destination⟩

section

variable {machine middle fetched : Machine σ} {location : Option Location}
  {source destination : UInt32}
  (sourceFetched : instruction.source.fetch instruction.size machine =
    .ok source middle)
  (destinationFetched : instruction.destination.fetch instruction.size middle =
    .ok (location, destination) fetched)

include sourceFetched destinationFetched

theorem execute_of_trap {fault : Fault} {codes : ConditionCodes}
    (computed : instruction.operation.compute fetched.status
      instruction.workingSize (instruction.operands source destination) =
        .trap fault codes) :
    instruction.execute machine =
      .error fault (fetched.setConditionCodes codes) := by
  rw [operands] at computed
  simp only [execute, Execution.bind_apply, sourceFetched, destinationFetched,
    Execution.status, Execution.observe, computed, Execution.setConditionCodes,
    Execution.update, Execution.throw_apply]

theorem execute_of_discard
    (computed : instruction.operation.compute fetched.status
      instruction.workingSize (instruction.operands source destination) =
        .discard) :
    instruction.execute machine = .ok () fetched := by
  rw [operands] at computed
  simp only [execute, Execution.bind_apply, sourceFetched, destinationFetched,
    Execution.status, Execution.observe, computed, Execution.pure_apply]

/-- A computation with a result goes on with the write. -/
theorem execute_of_result {value : UInt32} {size : OperandSize}
    {codes : ConditionCodes}
    (computed : instruction.operation.compute fetched.status
      instruction.workingSize (instruction.operands source destination) =
        .result value size codes) :
    instruction.execute machine =
      instruction.finish location (instruction.operands source destination)
        value size (fetched.setConditionCodes codes) := by
  rw [operands] at computed
  simp only [execute, Execution.bind_apply, sourceFetched, destinationFetched,
    Execution.status, Execution.observe, computed, Execution.setConditionCodes,
    Execution.update]
  rfl

end

/-- A result that is written sets the flags after that. -/
theorem finish_of_written {machine written : Machine σ} {location : Location}
    {operands : Operands} {value : UInt32} {size : OperandSize}
    (writes : instruction.operation.writes = true)
    (run : location.write size value machine = .ok () written) :
    instruction.finish (some location) operands value size machine =
      .ok ()
        (written.setConditionCodes
          (instruction.flagRule.apply size operands.source
            operands.destination value written.status.codes)) := by
  simp only [finish, writes, if_true, Execution.bind_apply, run,
    Execution.status, Execution.observe, Execution.setConditionCodes,
    Execution.update]

/-- A result that is not written only sets the flags. -/
theorem finish_of_unwritten {location : Option Location} {operands : Operands}
    {value : UInt32} {size : OperandSize}
    (unwritten : instruction.operation.writes = false) (machine : Machine σ) :
    instruction.finish location operands value size machine =
      .ok ()
        (machine.setConditionCodes
          (instruction.flagRule.apply size operands.source
            operands.destination value machine.status.codes)) := by
  simp only [finish, unwritten, Bool.false_eq_true, if_false,
    Execution.bind_apply, Execution.status, Execution.observe,
    Execution.setConditionCodes, Execution.update]

theorem finish_of_refused {machine left : Machine σ} {location : Location}
    {operands : Operands} {value : UInt32} {size : OperandSize} {fault : Fault}
    (writes : instruction.operation.writes = true)
    (run : location.write size value machine = .error fault left) :
    instruction.finish (some location) operands value size machine =
      .error fault left := by
  simp only [finish, writes, if_true, Execution.bind_apply, run]

/-- A result that no flag rule looks at is only written. -/
theorem finish_of_keep {location : Location} {operands : Operands}
    {value : UInt32} {size : OperandSize}
    (writes : instruction.operation.writes = true)
    (keeps : instruction.flagRule = .keep) :
    instruction.finish (some location) operands value size =
      location.write (σ := σ) size value := by
  funext machine
  simp only [finish, writes, keeps, if_true, Execution.bind_apply]
  cases run : location.write size value machine with
  | error fault left => rfl
  | ok done left => rfl

end DataInstruction

end M68k

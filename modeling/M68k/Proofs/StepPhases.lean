import M68k.Machine.Step
import M68k.Proofs.Invariant
import M68k.Proofs.StatusWord

/-!
# The two phases of a step

A step executes an instruction and fetches the next opcode, and then enters at
most one exception.  The first phase ends with the exception that is to be
entered, if there is one.
-/

namespace M68k

/-! ## Admission -/

/-- An admitted instruction is the opcode's, the model has it, and it is not
reserved to a mode that the machine is not in. -/
theorem Instruction.admit_eq_ok {opcode : UInt16} {model : Model}
    {supervisor : Bool} {instruction : Instruction}
    (admitted : Instruction.admit opcode model supervisor = .ok instruction) :
    decode? opcode = some instruction ∧ ¬model < instruction.since ∧
      (supervisor = true ∨ instruction.isPrivilegedOn model = false) := by
  unfold Instruction.admit at admitted
  split at admitted
  · cases admitted
  · rename_i found decoded
    split at admitted
    · cases admitted
    · rename_i present
      split at admitted
      · cases admitted
      · rename_i allowed
        cases admitted
        refine ⟨decoded, present, ?_⟩
        cases supervisor <;> simp_all

theorem Instruction.admit_ne_breakpoint (opcode : UInt16) (model : Model)
    (supervisor : Bool) :
    Instruction.admit opcode model supervisor ≠ .error .breakpoint := by
  intro refused
  unfold Instruction.admit at refused
  split at refused
  · cases refused
  · split at refused
    · cases refused
    · split at refused <;> cases refused

/-- Every mode may execute an instruction that is not reserved. -/
theorem Instruction.admit_of_present {opcode : UInt16} {model : Model}
    {instruction : Instruction} (decoded : decode? opcode = some instruction)
    (present : ¬model < instruction.since)
    (unreserved : instruction.privilegedSince? = none) (supervisor : Bool) :
    Instruction.admit opcode model supervisor = .ok instruction := by
  have allowed : instruction.isPrivilegedOn model = false := by
    rw [isPrivilegedOn, unreserved]
    rfl
  unfold Instruction.admit
  simp only [decoded, present, allowed, if_false, Bool.and_false,
    Bool.false_eq_true]

/-- Every model has an instruction of the first one, and every mode may execute
it unless it is reserved. -/
theorem Instruction.admit_of_decode? {opcode : UInt16}
    {instruction : Instruction} (decoded : decode? opcode = some instruction)
    (old : instruction.since = .mc68000)
    (unreserved : instruction.privilegedSince? = none) (model : Model)
    (supervisor : Bool) :
    Instruction.admit opcode model supervisor = .ok instruction := by
  refine admit_of_present decoded ?_ unreserved supervisor
  rw [old]
  exact Nat.not_lt_zero _

/-- An opcode does what its instruction does. -/
theorem Execution.executeOpcode_of_admitted {σ : Type} [Memory σ]
    {machine : Machine σ} {instruction : Instruction}
    (admitted : Instruction.admit machine.opcode machine.model
      machine.isSupervisor = .ok instruction) :
    Execution.executeOpcode machine = instruction.execute machine := by
  rw [Execution.executeOpcode, admitted]

/-- A refused opcode leaves the machine alone. -/
theorem ends_executeOpcode {σ : Type} [Memory σ]
    {property : Machine σ → Prop} {machine : Machine σ}
    (refused : property machine)
    (admitted : ∀ instruction, Instruction.admit machine.opcode machine.model
        machine.isSupervisor = .ok instruction →
      Ends property (instruction.execute machine)) :
    Ends property (Execution.executeOpcode machine) := by
  rw [Execution.executeOpcode]
  split
  · exact refused
  · rename_i instruction found
    exact admitted instruction found

theorem Instruction.bkpt_or_ordinary (instruction : Instruction) :
    (∃ vector, instruction = .bkpt vector) ∨
      ∀ vector, instruction ≠ .bkpt vector := by
  rw [← not_exists]
  exact Classical.em _

/-! ## Phases -/

theorem Fault.vectorOffset?_eq_none_iff {fault : Fault} :
    fault.vectorOffset? = none ↔ fault = .breakpoint := by
  cases fault <;> simp [vectorOffset?, vector?]

theorem Execution.prefetch_ne_breakpoint {σ : Type} [Memory σ]
    {machine left : Machine σ} {fault : Fault}
    (run : prefetch machine = .error fault left) : fault ≠ .breakpoint := by
  rw [prefetch_apply] at run
  split at run
  · cases run
    decide
  · split at run
    · cases run
    · cases run
      decide

/-- An exception that is to be entered. -/
structure PendingEntry where
  frame : ExceptionFrame
  vectorOffset : UInt16
deriving DecidableEq, Repr

namespace Machine

variable {σ : Type}

/-- The exception that delivers a fault of the instruction at an address, and
the machine in which it is entered. -/
def pendingFault (machine : Machine σ) (fault : Fault)
    (instruction : UInt32) : Machine σ × Option PendingEntry :=
  match fault.vectorOffset? with
  | none => (machine, none)
  | some offset =>
      (if fault.restartsInstruction then machine.withPc instruction
        else machine,
        some ⟨.ofFormat fault.frameFormat instruction, offset⟩)

/-- A property of the ends of an entry that a halt keeps. -/
theorem haltOnFault_property {property : Machine σ → Prop}
    {result : EStateM.Result Fault (Machine σ) Unit}
    (ends : Ends property result)
    (halted : ∀ machine, property machine →
      property { machine with condition := .halted }) :
    property (haltOnFault result) := by
  cases result with
  | ok value machine => exact ends
  | error fault machine => exact halted machine ends

variable [Memory σ]

/-- The first phase of a step: everything before an exception is entered. -/
def beforeEntry (machine : Machine σ) : Machine σ × Option PendingEntry :=
  let instruction := machine.registers.pc
  match Execution.executeOpcode (machine.withPc (instruction + 2)) with
  | .error fault left => left.pendingFault fault instruction
  | .ok _ left =>
      if left.condition ≠ .running then (left, none)
      else if machine.status.trace then
        (left, some ⟨.sixWord instruction, vectorTableOffset traceVector⟩)
      else
        match Execution.prefetch left with
        | .ok _ fetched => (fetched, none)
        | .error fault fetched =>
            fetched.pendingFault fault fetched.registers.pc

/-- A property of the ends of the instruction holds after the first phase, if a
fetch and a correction of the program counter keep it. -/
theorem beforeEntry_property {property : Machine σ → Prop}
    {machine : Machine σ}
    (executed : Ends property
      (Execution.executeOpcode (machine.withPc (machine.registers.pc + 2))))
    (counter : ∀ left, property left → ∀ pc, property (left.withPc pc))
    (fetched : ∀ left, property left → ∀ opcode memory,
      property { left with opcode, memory }) :
    property machine.beforeEntry.1 := by
  have pending (left : Machine σ) (kept : property left) (fault : Fault)
      (instruction : UInt32) :
      property (left.pendingFault fault instruction).1 := by
    rw [pendingFault]
    split
    · exact kept
    · split
      · exact counter left kept instruction
      · exact kept
  rw [beforeEntry]
  generalize Execution.executeOpcode
    (machine.withPc (machine.registers.pc + 2)) = result at executed ⊢
  cases result with
  | error fault left => exact pending left executed fault _
  | ok value left =>
      simp only
      split
      · exact executed
      · split
        · exact executed
        · have prefetched : Ends property (Execution.prefetch left) := by
            refine (ends_prefetch left).mono ?_
            rintro _ ⟨opcode, memory, rfl⟩
            exact fetched left executed opcode memory
          generalize Execution.prefetch left = result at prefetched ⊢
          cases result with
          | ok value after => exact prefetched
          | error fault after => exact pending after prefetched fault _

/-- Without a pending exception the first phase ends with a breakpoint, with an
instruction that stops the machine, or with a prefetch. -/
theorem beforeEntry_eq_none {machine left : Machine σ}
    (begun : machine.beforeEntry = (left, none)) :
    Execution.executeOpcode (machine.withPc (machine.registers.pc + 2)) =
        .error .breakpoint left ∨
      left.condition ≠ .running ∨
        ∃ executed, Execution.prefetch executed = .ok () left := by
  have unpending {ended : Machine σ} {fault : Fault} {instruction : UInt32}
      (found : ended.pendingFault fault instruction = (left, none)) :
      fault = .breakpoint ∧ ended = left := by
    rw [pendingFault] at found
    split at found
    · rename_i vectorless
      cases found
      exact ⟨Fault.vectorOffset?_eq_none_iff.mp vectorless, rfl⟩
    · cases found
  rw [beforeEntry] at begun
  cases executed : Execution.executeOpcode
      (machine.withPc (machine.registers.pc + 2)) with
  | error fault ended =>
      rw [executed] at begun
      obtain ⟨rfl, rfl⟩ := unpending begun
      exact .inl rfl
  | ok value ended =>
      simp only [executed] at begun
      split at begun
      · rename_i halted
        cases begun
        exact .inr (.inl halted)
      · split at begun
        · cases begun
        · cases fetching : Execution.prefetch ended with
          | ok value fetched =>
              rw [fetching] at begun
              cases begun
              exact .inr (.inr ⟨ended, fetching⟩)
          | error fault fetched =>
              rw [fetching] at begun
              exact absurd (unpending begun).1
                (Execution.prefetch_ne_breakpoint fetching)

/-- The second phase of a step: the entry, if one is pending. -/
def enterPending : Machine σ × Option PendingEntry → Machine σ
  | (machine, none) => machine
  | (machine, some pending) =>
      haltOnFault
        (Execution.enterException pending.frame pending.vectorOffset machine)

theorem enterPending_pendingFault (machine : Machine σ) (fault : Fault)
    (instruction : UInt32) :
    enterPending (machine.pendingFault fault instruction) =
      machine.deliver fault instruction := by
  rw [pendingFault, deliver]
  cases fault.vectorOffset? <;> rfl

/-- A step is its two phases. -/
theorem step_eq_enterPending (machine : Machine σ) :
    machine.step = enterPending machine.beforeEntry := by
  simp only [step, beforeEntry]
  cases executed : Execution.executeOpcode
      (machine.withPc (machine.registers.pc + 2)) with
  | error fault left =>
      simp only [enterPending_pendingFault]
      cases fault <;> rfl
  | ok value left =>
      simp only
      by_cases running : left.condition = .running
      · by_cases traced : machine.status.trace = true
        · simp [running, traced, enterTrace, enterPending]
        · simp only [running, traced, fetchNext]
          cases Execution.prefetch left with
          | ok value fetched => simp [enterPending]
          | error fault fetched => simp [enterPending_pendingFault]
      · simp [running, enterPending]

/-- A step without a fault and without a trace. -/
theorem step_of_executeOpcode {machine executed fetched : Machine σ}
    (run : Execution.executeOpcode
      (machine.withPc (machine.registers.pc + 2)) = .ok () executed)
    (running : executed.condition = .running)
    (untraced : machine.status.trace = false)
    (fetching : Execution.prefetch executed = .ok () fetched) :
    machine.step = fetched := by
  rw [step]
  simp [run, running, untraced, fetchNext, fetching]

/-! ## Interrupts -/

/-- The entry of the interrupt at a level, by a machine that is awake. -/
def interruptEntry (machine : Machine σ) (level : UInt8) :
    EStateM.Result Fault (Machine σ) Unit :=
  Execution.enterException .short
    (vectorTableOffset (autovectorBase + (level &&& 7)))
    { machine with condition := .running }

theorem interrupt_eq_entry (machine : Machine σ) (level : UInt8) :
    machine.interrupt level =
      if machine.acceptsInterrupt (level &&& 7) then
        match machine.interruptEntry level with
        | .ok _ entered => (true, entered.withInterruptMask (level &&& 7))
        | .error _ entered => (false, { entered with condition := .halted })
      else (false, machine) :=
  rfl

/-- An interrupt is refused, or taken, or its entry fails and halts the
machine. -/
theorem interrupt_cases (machine : Machine σ) (level : UInt8) :
    (machine.acceptsInterrupt (level &&& 7) = false ∧
        machine.interrupt level = (false, machine)) ∨
      (machine.acceptsInterrupt (level &&& 7) = true ∧
        ((∃ entered, machine.interruptEntry level = .ok () entered ∧
            machine.interrupt level =
              (true, entered.withInterruptMask (level &&& 7))) ∨
          ∃ fault entered, machine.interruptEntry level =
              .error fault entered ∧
            machine.interrupt level =
              (false, { entered with condition := .halted }))) := by
  rw [interrupt_eq_entry]
  cases accepted : machine.acceptsInterrupt (level &&& 7) with
  | false => exact .inl ⟨rfl, rfl⟩
  | true =>
      refine .inr ⟨rfl, ?_⟩
      cases machine.interruptEntry level with
      | ok value entered => exact .inl ⟨entered, rfl, rfl⟩
      | error fault entered => exact .inr ⟨fault, entered, rfl, rfl⟩

end Machine

/-! ## Resets and breakpoints -/

/-- A completed loading of the reset vectors ends with a prefetch. -/
theorem Machine.loadResetVectors_eq_ok {σ : Type} [Memory σ]
    {machine started : Machine σ}
    (run : loadResetVectors machine = .ok () started) :
    ∃ loaded, Execution.prefetch loaded = .ok () started := by
  simp only [loadResetVectors, Execution.bind_apply, Execution.setRegister,
    Execution.setPc, Execution.update] at run
  split at run
  · split at run
    · exact ⟨_, run⟩
    · cases run
  · cases run

/-- A breakpoint that no handler serves goes back to its own address and leaves
the opcode of an illegal instruction. -/
theorem Execution.bkpt_detached {σ : Type} {machine : Machine σ}
    (detached : machine.handler = none) (vector : Fin 8) :
    Execution.bkpt vector machine =
      .error .breakpoint
        { machine.withPc (machine.registers.pc - 2) with
          opcode := illegalOpcode } := by
  cases machine
  simp only at detached
  subst detached
  rfl

/-- A breakpoint never succeeds. -/
theorem Execution.bkpt_ne_ok {σ : Type} (vector : Fin 8)
    (machine : Machine σ) (value : Unit) (left : Machine σ) :
    Execution.bkpt vector machine ≠ .ok value left := by
  simp only [bkpt, pc, setPc, setOpcode, observe, update, askHandler,
    bind_apply]
  generalize Machine.askHandler _ vector = result
  obtain ⟨_ | opcode, after⟩ := result
  · rintro ⟨⟩
  · rintro ⟨⟩

end M68k

import M68k.Memory.Flat
import M68k.Proofs.InstructionFaults
import M68k.Proofs.StepPhases

/-!
# Opcodes that are refused

An opcode is refused, before anything else happens, if it stands for no
instruction of the model or for one that is reserved to the supervisor.  The
refusal is all that happens, so the step is the entry of an exception from the
machine as it was.  No other instruction is ever found privileged, and few are
found illegal.
-/

namespace M68k

namespace Instruction

/-! ## Opcodes of undefined instructions -/

/-- Instructions of line 4 whose opcode names no addressing mode and no
register. -/
def isSingle : Instruction → Bool
  | illegal | movecLoad | movecStore => true
  | _ => false

section

variable (word : UInt16)

theorem decodes_leaOrChk_shared (mode : AddressingMode) :
    Decodes (fun instruction => instruction.isSingle = false)
      (decodeLeaOrChk word mode) := by
  simp only [decodeLeaOrChk]
  split
  · exact .guarded fun _ => rfl
  · exact .guarded fun _ => rfl
  · exact .guarded fun _ => rfl
  · exact .none

theorem decodes_oneOperand_shared (mode : AddressingMode) :
    Decodes (fun instruction => instruction.isSingle = false)
      (decodeOneOperand word mode) := by
  simp only [decodeOneOperand]
  split
  all_goals
    first
    | exact .guarded fun _ => rfl
    | exact .bind fun _ _ => .guarded fun _ => rfl
    | exact .none

end

theorem decodeLine4Fixed_of_decode? {word : UInt16} {instruction : Instruction}
    (decoded : decode? word = some instruction)
    (single : instruction.isSingle = true) :
    decodeLine4Fixed word = some instruction := by
  have here : ¬instruction.IsElsewhere := by
    cases instruction with
    | illegal | movecLoad | movecStore => exact id
    | _ => cases single
  have line := decodeLine4_of_decode? decoded here
  unfold decodeLine4 at line
  split at line
  · rename_i found fixed
    cases line
    exact fixed
  · obtain ⟨mode, -, line⟩ := Option.bind_eq_some_iff.mp line
    have shared : instruction.isSingle = false := by
      split at line
      · exact decodes_leaOrChk_shared word mode instruction line
      · exact decodes_oneOperand_shared word mode instruction line
    rw [single] at shared
    cases shared

/-- The only opcodes of instructions that are undefined without an undefined
operand. -/
theorem opcode_of_isSingle {word : UInt16} {instruction : Instruction}
    (decoded : decode? word = some instruction)
    (single : instruction.isSingle = true) :
    word = 0x4AFC ∧ instruction = illegal ∨
      word = 0x4E7A ∧ instruction = movecLoad ∨
        word = 0x4E7B ∧ instruction = movecStore := by
  have fixed := decodeLine4Fixed_of_decode? decoded single
  simp only [decodeLine4Fixed] at fixed
  split at fixed
  case h_12 =>
    split at fixed <;> cases fixed <;> cases single
  all_goals
    cases fixed
    first
    | cases single; done
    | simp

/-! ## Places of operands -/

/-- The modes of which an instruction takes the address only.  A register list
takes the register of a mode that moves it. -/
def addresses : Instruction → List AddressingMode
  | lea mode _ | pea mode | jmp mode | jsr mode | moves _ mode => [mode]
  | movemStore _ mode => if mode.isPredecrement then [] else [mode]
  | movemLoad _ mode => if mode.isPostincrement then [] else [mode]
  | _ => []

theorem hasAddress_of_mem_addresses {instruction : Instruction}
    (takes : instruction.takesItsModes = true) {mode : AddressingMode}
    (member : mode ∈ instruction.addresses) : mode.hasAddress = true := by
  cases instruction with
  | lea taken number | pea taken | jmp taken | jsr taken =>
      obtain rfl := List.mem_singleton.mp member
      exact AddressingMode.hasAddress_of_isControl takes
  | moves size taken =>
      obtain rfl := List.mem_singleton.mp member
      exact AddressingMode.hasAddress_of_isMemoryAlterable takes
  | movemStore size taken =>
      cases taken with
      | predecrement number => cases member
      | dataRegister number | addressRegister number | immediate => cases takes
      | _ =>
          obtain rfl := List.mem_singleton.mp member
          rfl
  | movemLoad size taken =>
      cases taken with
      | postincrement number => cases member
      | dataRegister number | addressRegister number | immediate => cases takes
      | _ =>
          obtain rfl := List.mem_singleton.mp member
          rfl
  | _ => cases member

/-- An instruction finds addresses for the operands that need one, and a place
that can be written for its result. -/
structure FindsPlaces (σ : Type) [Memory σ] (instruction : Instruction) :
    Prop where
  address : ∀ mode ∈ instruction.addresses,
    ∀ {size : OperandSize} {machine left : Machine σ} {location : Location},
      mode.resolve size machine = .ok location left →
        ∃ address, location.address? = some address
  result : ∀ {computing : DataInstruction}, instruction = data computing →
    computing.operation.writes = true →
      ∀ {machine fetched : Machine σ} {source destination : UInt32}
        {location : Option Location},
        computing.fetchOperands machine =
            .ok (source, location, destination) fetched →
          ∃ place, location = some place ∧ place.isAlterable = true

theorem findsPlaces_of_isFormed {σ : Type} [Memory σ]
    {instruction : Instruction} (formed : instruction.IsFormed) :
    instruction.FindsPlaces σ where
  address mode member _ _ _ _ run :=
    AddressingMode.exists_address_of_resolve
      (hasAddress_of_mem_addresses formed.takesItsModes member) run
  result {computing} same writes _ _ _ _ _ run := by
    subst same
    obtain ⟨middle, -, destinationRun⟩ :=
      DataInstruction.fetchOperands_eq_ok run
    exact Destination.isAlterable_of_fetch
      (DataInstruction.IsFormed.isAlterable formed writes) destinationRun

end Instruction

/-! ## Gates -/

namespace Machine

variable {σ : Type} [Memory σ] {machine left : Machine σ} {fault : Fault}

/-- Why the machine does not execute its opcode at all. -/
inductive Refuses (machine : Machine σ) : Fault → Prop where
  | undecoded (none : Instruction.decode? machine.opcode = none) :
      machine.Refuses .illegalInstruction
  | newer {instruction : Instruction}
      (decoded : Instruction.decode? machine.opcode = some instruction)
      (newer : machine.model < instruction.since) :
      machine.Refuses .illegalInstruction
  | privileged {instruction : Instruction}
      (decoded : Instruction.decode? machine.opcode = some instruction)
      (present : ¬machine.model < instruction.since)
      (user : machine.isSupervisor = false)
      (privileged : instruction.isPrivilegedOn machine.model = true) :
      machine.Refuses .privilegeViolation

/-- Why the machine finds its opcode illegal. -/
inductive FindsIllegal (machine : Machine σ) : Prop where
  | refused (refuses : machine.Refuses .illegalInstruction)
  /-- ILLEGAL -/
  | illegal (opcode : machine.opcode = 0x4AFC)
  /-- MOVEC -/
  | control (opcode : machine.opcode = 0x4E7A ∨ machine.opcode = 0x4E7B)
      (missing : Execution.NamesNoControl machine)
  | operand {instruction : Instruction}
      (decoded : Instruction.decode? machine.opcode = some instruction)
      (undefined : instruction.FindsUndefined machine)

omit [Memory σ] in
theorem admit_of_refuses (refuses : machine.Refuses fault) :
    Instruction.admit machine.opcode machine.model machine.isSupervisor =
      .error fault := by
  unfold Instruction.admit
  cases refuses with
  | undecoded none => rw [none]
  | newer decoded newer =>
      rw [decoded]
      exact if_pos newer
  | privileged decoded present user privileged =>
      rw [decoded]
      dsimp only
      rw [if_neg present, user, privileged]
      rfl

omit [Memory σ] in
theorem refuses_of_unadmitted
    (refused : Instruction.admit machine.opcode machine.model
      machine.isSupervisor = .error fault) :
    machine.Refuses fault := by
  unfold Instruction.admit at refused
  split at refused
  · rename_i none
    cases refused
    exact .undecoded none
  · rename_i instruction decoded
    split at refused
    · rename_i newer
      cases refused
      exact .newer decoded newer
    · rename_i present
      split at refused
      · rename_i reserved
        cases refused
        obtain ⟨user, privileged⟩ := Bool.and_eq_true_iff.mp reserved
        exact .privileged decoded present (Bool.not_inj user) privileged
      · cases refused

/-- An opcode is refused with nothing done. -/
theorem executeOpcode_of_unadmitted
    (refused : Instruction.admit machine.opcode machine.model
      machine.isSupervisor = .error fault) :
    Execution.executeOpcode machine = .error fault machine := by
  rw [Execution.executeOpcode, refused]

/-- What an instruction is refused for is the opcode, or an extension word that
is undefined. -/
theorem refuses_or_isUndefined
    (run : Execution.executeOpcode machine = .error fault left)
    (refuses : fault.refuses = true) :
    machine.Refuses fault ∨
      fault = .illegalInstruction ∧ ∃ instruction,
        Instruction.decode? machine.opcode = some instruction ∧
          instruction.IsUndefined machine := by
  cases admitted : Instruction.admit machine.opcode machine.model
      machine.isSupervisor with
  | error refusal =>
      rw [Execution.executeOpcode, admitted] at run
      cases run
      exact .inl (refuses_of_unadmitted admitted)
  | ok instruction =>
      have decoded := (Instruction.admit_eq_ok admitted).1
      rw [Execution.executeOpcode_of_admitted admitted] at run
      obtain ⟨illegal, undefined⟩ := Instruction.illegalBy_execute
        (Instruction.isFormed_of_decode? decoded) run refuses
      exact .inr ⟨illegal, instruction, decoded, undefined⟩

theorem findsIllegal_of_isUndefined {instruction : Instruction}
    (decoded : Instruction.decode? machine.opcode = some instruction)
    (undefined : instruction.IsUndefined machine) : machine.FindsIllegal := by
  cases single : instruction.isSingle with
  | true =>
      obtain ⟨opcode, rfl⟩ | ⟨opcode, rfl⟩ | ⟨opcode, rfl⟩ :=
        Instruction.opcode_of_isSingle decoded single
      · exact .illegal opcode
      · exact .control (.inl opcode) undefined
      · exact .control (.inr opcode) undefined
  | false =>
      refine .operand decoded ?_
      cases instruction with
      | illegal | movecLoad | movecStore => cases single
      | _ => exact undefined

/-- An exception for the instruction itself is entered from the machine before
the step. -/
theorem step_of_refuses {vector : UInt8}
    (refuses : machine.Refuses fault) (delivered : fault.vector? = some vector)
    (short : fault.frameFormat = .short)
    (restarts : fault.restartsInstruction = true) :
    machine.step = haltOnFault
      (Execution.enterException .short (vectorTableOffset vector) machine) := by
  have admitted := admit_of_refuses refuses
  have run (pc : UInt32) : Execution.executeOpcode (machine.withPc pc) =
      .error fault (machine.withPc pc) :=
    executeOpcode_of_unadmitted admitted
  have offset : fault.vectorOffset? = some (vectorTableOffset vector) := by
    rw [Fault.vectorOffset?, delivered]
    rfl
  simp only [step, run]
  split
  · rename_i same
    cases same
    cases delivered
  · rename_i same
    cases same
    rw [deliver, offset, short]
    simp only [restarts, if_true]
    rfl
  · rename_i same
    cases same

/-- How the opcode of a machine is gated. -/
structure IsGated (machine : Machine σ) : Prop where
  /-- A refusal is all that happens. -/
  refuses : ∀ {fault}, machine.Refuses fault →
    Execution.executeOpcode machine = .error fault machine
  entersIllegal : machine.Refuses .illegalInstruction →
    machine.step = haltOnFault
      (Execution.enterException .short (vectorTableOffset 4) machine)
  entersPrivileged : machine.Refuses .privilegeViolation →
    machine.step = haltOnFault
      (Execution.enterException .short (vectorTableOffset 8) machine)
  privileged : ∀ {left},
    Execution.executeOpcode machine = .error .privilegeViolation left →
      machine.Refuses .privilegeViolation
  illegal : ∀ {left},
    Execution.executeOpcode machine = .error .illegalInstruction left →
      machine.FindsIllegal
  findsPlaces : ∀ {instruction},
    Instruction.decode? machine.opcode = some instruction →
      instruction.FindsPlaces σ

/-- Every machine refuses an opcode that the model lacks or that is reserved to
the supervisor, and does nothing else then.  No other opcode is a privilege
violation, and no other is illegal but ILLEGAL, MOVEC with an unknown control
register and an indexed operand with an undefined extension word. -/
theorem isGated (machine : Machine σ) : machine.IsGated where
  refuses refuses := executeOpcode_of_unadmitted (admit_of_refuses refuses)
  entersIllegal refuses := step_of_refuses refuses rfl rfl rfl
  entersPrivileged refuses := step_of_refuses refuses rfl rfl rfl
  privileged run := by
    obtain refuses | ⟨illegal, -⟩ := refuses_or_isUndefined run rfl
    · exact refuses
    · cases illegal
  illegal run := by
    obtain refuses | ⟨-, instruction, decoded, undefined⟩ :=
      refuses_or_isUndefined run rfl
    · exact .refused refuses
    · exact findsIllegal_of_isUndefined decoded undefined
  findsPlaces decoded :=
    Instruction.findsPlaces_of_isFormed
      (Instruction.isFormed_of_decode? decoded)

end Machine

end M68k

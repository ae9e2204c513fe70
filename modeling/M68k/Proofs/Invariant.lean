import M68k.Proofs.SystemCoupling

/-!
# Invariants of executions

A property of one machine is a coupling of the machine with itself.  An
invariant of ordinary instructions is kept by the updates and accesses that
these instructions make, and then holds wherever such an instruction ends,
whether normally or with a fault.
-/

namespace M68k

variable {σ α β : Type}

/-- The machine an execution ends with has a property. -/
def Ends (property : Machine σ → Prop) :
    EStateM.Result Fault (Machine σ) α → Prop
  | .ok _ left | .error _ left => property left

namespace Ends

variable {property final : Machine σ → Prop}

theorem mono {result : EStateM.Result Fault (Machine σ) α}
    (ends : Ends property result)
    (weaker : ∀ machine, property machine → final machine) :
    Ends final result := by
  cases result with
  | ok value left => exact weaker left ends
  | error fault left => exact weaker left ends

/-- A fault ends the whole execution, so it has to do for the last property. -/
theorem bind {first : Execution σ α} {next : α → Execution σ β}
    {machine : Machine σ} (ends : Ends property (first machine))
    (weaker : ∀ left, property left → final left)
    (goesOn : ∀ value left, first machine = .ok value left →
      property left → Ends final (next value left)) :
    Ends final ((first >>= next) machine) := by
  rw [Execution.bind_apply]
  cases run : first machine with
  | ok value left =>
      rw [run] at ends
      exact goesOn value left run ends
  | error fault left =>
      rw [run] at ends
      exact weaker left ends

end Ends

/-- One machine with a property, as a relation. -/
def Diagonal (property : Machine σ → Prop) (left right : Machine σ) : Prop :=
  left = right ∧ property left

theorem Agree.ends {property : Machine σ → Prop}
    {result : EStateM.Result Fault (Machine σ) α}
    (agree : Agree (Diagonal property) result result) :
    Ends property result := by
  cases agree with
  | ok related => exact related.2
  | error ordinary related => exact related.2

theorem Coupled.ends {property : Machine σ → Prop} {first : Execution σ α}
    (coupled : Coupled (Diagonal property) first first) {machine : Machine σ}
    (holds : property machine) : Ends property (first machine) :=
  (coupled machine machine ⟨rfl, holds⟩).ends

theorem Coupled.ne_breakpoint {property : Machine σ → Prop}
    {first : Execution σ α}
    (coupled : Coupled (Diagonal property) first first)
    {machine left : Machine σ} {fault : Fault} (holds : property machine)
    (run : first machine = .error fault left) : fault ≠ .breakpoint := by
  have agree := coupled machine machine ⟨rfl, holds⟩
  rw [run] at agree
  cases agree with
  | error ordinary related => exact ordinary

/-- A transaction, granted or refused, changes the memory only. -/
theorem ends_onBus (transaction : Bus σ α) (machine : Machine σ) :
    Ends (· = { machine with memory := transaction.leaves machine.memory })
      (Execution.onBus transaction machine) := by
  simp only [Execution.onBus, Bus.leaves]
  cases transaction machine.memory <;> rfl

/-- An access agrees with itself whatever it answers. -/
theorem agree_onBus {property : Machine σ → Prop} {machine : Machine σ}
    {transaction : Bus σ α}
    (holds : property
      { machine with memory := transaction.leaves machine.memory }) :
    Agree (Diagonal property) (Execution.onBus transaction machine)
      (Execution.onBus transaction machine) :=
  .onBus rfl ⟨rfl, holds⟩

/-! ## What accesses change -/

/-- Only the memory of a machine may have changed. -/
def OnlyMemory (start left : Machine σ) : Prop :=
  ∃ memory, left = { start with memory }

theorem ends_onBus_onlyMemory (transaction : Bus σ α) (machine : Machine σ) :
    Ends (OnlyMemory machine) (Execution.onBus transaction machine) :=
  (ends_onBus transaction machine).mono fun _ left => ⟨_, left⟩

theorem Ends.map_onlyMemory {first : Execution σ α} {machine : Machine σ}
    (ends : Ends (OnlyMemory machine) (first machine)) (change : α → β) :
    Ends (OnlyMemory machine)
      ((first >>= fun value => pure (change value)) machine) :=
  ends.bind (fun _ kept => kept) fun _ _ _ kept => kept

variable [Memory σ]

theorem ends_readIn (space : FunctionCode) (address : UInt32)
    (size : OperandSize) (machine : Machine σ) :
    Ends (OnlyMemory machine)
      (Execution.readIn space address size machine) := by
  simp only [Execution.readIn, Execution.bind_apply,
    Execution.checkAlignment_apply]
  by_cases refused : size ≠ .byte ∧ machine.misaligned address = true
  · rw [if_pos refused]
    exact ⟨machine.memory, rfl⟩
  · rw [if_neg refused]
    cases size with
    | byte | word => exact (ends_onBus_onlyMemory _ machine).map_onlyMemory _
    | long => exact ends_onBus_onlyMemory _ machine
    | unsized => exact ⟨machine.memory, rfl⟩

theorem ends_writeIn (space : FunctionCode) (address : UInt32)
    (size : OperandSize) (value : UInt32) (machine : Machine σ) :
    Ends (OnlyMemory machine)
      (Execution.writeIn space address size value machine) := by
  simp only [Execution.writeIn, Execution.bind_apply,
    Execution.checkAlignment_apply]
  by_cases refused : size ≠ .byte ∧ machine.misaligned address = true
  · rw [if_pos refused]
    exact ⟨machine.memory, rfl⟩
  · rw [if_neg refused]
    cases size with
    | byte | word | long => exact ends_onBus_onlyMemory _ machine
    | unsized => exact ⟨machine.memory, rfl⟩

theorem ends_instructionWordAt (address : UInt32) (machine : Machine σ) :
    Ends (OnlyMemory machine)
      (Execution.instructionWordAt address machine) := by
  simp only [Execution.instructionWordAt, Execution.programSpace,
    Execution.observe, Execution.bind_apply, Execution.ite_apply,
    Execution.throw_apply]
  split
  · exact ⟨machine.memory, rfl⟩
  · exact ends_onBus_onlyMemory _ machine

/-- A prefetch changes the opcode and the memory. -/
theorem ends_prefetch (machine : Machine σ) :
    Ends (fun left => ∃ opcode memory, left = { machine with opcode, memory })
      (Execution.prefetch machine) := by
  show Ends _ ((Execution.instructionWordAt machine.registers.pc >>=
    Execution.setOpcode) machine)
  refine (ends_instructionWordAt machine.registers.pc machine).bind ?_ ?_
  · rintro left ⟨memory, rfl⟩
    exact ⟨machine.opcode, memory, rfl⟩
  · rintro word left - ⟨memory, rfl⟩
    exact ⟨word, memory, rfl⟩

/-! ## Invariants -/

/-- A property that ordinary updates and accesses keep. -/
structure Invariant (property : Machine σ → Prop) : Prop where
  writeGeneral : ∀ {machine}, property machine → ∀ register value,
    property
      { machine with registers := machine.registers.set register value }
  writeCounter : ∀ {machine}, property machine → ∀ address,
    property (machine.withPc address)
  writeCodes : ∀ {machine}, property machine → ∀ codes,
    (machine.status.codes.InRange → codes.InRange) →
      property (machine.setConditionCodes codes)
  access : ∀ {machine}, property machine → ∀ space (access : Access),
    access.Aligned machine → access.InMode machine space →
      property
        { machine with
          memory := (access.ask space).leaves machine.memory }

theorem Invariant.coupling {property : Machine σ → Prop}
    (invariant : Invariant property) : Coupling (Diagonal property) where
  general := by rintro left _ ⟨rfl, -⟩ register; rfl
  counter := by rintro left _ ⟨rfl, -⟩; rfl
  status := by rintro left _ ⟨rfl, -⟩; rfl
  alignment := by rintro left _ ⟨rfl, -⟩; rfl
  extensions := by rintro left _ ⟨rfl, -⟩; rfl
  branches := by rintro left _ ⟨rfl, -⟩; rfl
  finalPointer := by rintro left _ ⟨rfl, -⟩; rfl
  writeGeneral := by
    rintro left _ ⟨rfl, holds⟩ register value
    exact ⟨rfl, invariant.writeGeneral holds register value⟩
  writeCounter := by
    rintro left _ ⟨rfl, holds⟩ address
    exact ⟨rfl, invariant.writeCounter holds address⟩
  writeCodes := by
    rintro left _ ⟨rfl, holds⟩ codes inRange
    exact ⟨rfl, invariant.writeCodes holds codes inRange⟩
  access := by
    rintro left _ ⟨rfl, holds⟩ space access aligned inMode
    exact agree_onBus (invariant.access holds space access aligned inMode)

/-- A prefetch keeps what ordinary instructions keep, unless it is about the
opcode. -/
theorem Invariant.ends_prefetch {property : Machine σ → Prop}
    (invariant : Invariant property)
    (writeOpcode : ∀ machine, property machine → ∀ opcode,
      property { machine with opcode })
    {machine : Machine σ} (holds : property machine) :
    Ends property (Execution.prefetch machine) := by
  refine (invariant.coupling.pc.ends holds).bind (fun _ kept => kept) ?_
  intro address left _ kept
  refine ((invariant.coupling.instructionWordAt address).ends kept).bind
    (fun _ kept => kept) ?_
  intro word left _ kept
  exact writeOpcode left kept word

/-- A property that the updates and accesses of supervisor mode keep too. -/
structure SupervisorInvariant (property : Machine σ → Prop) : Prop
    extends Invariant property where
  writeControl : ∀ {machine}, property machine → ∀ register value,
    property
      { machine with
        registers := machine.registers.setControl register value }
  saveStackPointer : ∀ {machine}, property machine →
    property machine.saveStackPointer
  loadStackPointer : ∀ {machine}, property machine →
    property machine.loadStackPointer
  writeStatus : ∀ {machine}, property machine → ∀ word,
    property (machine.setStatusWord word)
  resetDevices : ∀ {machine}, property machine →
    property { machine with memory := Memory.resetDevices machine.memory }
  accessAny : ∀ {machine}, property machine → ∀ space (access : Access),
    access.Aligned machine →
      property
        { machine with
          memory := (access.ask space).leaves machine.memory }

theorem SupervisorInvariant.coupling {property : Machine σ → Prop}
    (invariant : SupervisorInvariant property) :
    SupervisorCoupling (Diagonal property) where
  toCoupling := invariant.toInvariant.coupling
  control := by rintro left _ ⟨rfl, -⟩ register; rfl
  writeControl := by
    rintro left _ ⟨rfl, holds⟩ register value
    exact ⟨rfl, invariant.writeControl holds register value⟩
  saveStackPointer := by
    rintro left _ ⟨rfl, holds⟩
    exact ⟨rfl, invariant.saveStackPointer holds⟩
  loadStackPointer := by
    rintro left _ ⟨rfl, holds⟩
    exact ⟨rfl, invariant.loadStackPointer holds⟩
  writeStatus := by
    rintro left _ ⟨rfl, holds⟩ word
    exact ⟨rfl, invariant.writeStatus holds word⟩
  resetDevices := by
    rintro left _ ⟨rfl, holds⟩
    exact ⟨rfl, invariant.resetDevices holds⟩
  accessAny := by
    rintro left _ ⟨rfl, holds⟩ space access aligned
    exact agree_onBus (invariant.accessAny holds space access aligned)

/-- A property that every update and access but those of breakpoints keeps. -/
structure SystemInvariant (property : Machine σ → Prop) : Prop
    extends SupervisorInvariant property where
  writeCondition : ∀ {machine}, property machine → ∀ condition,
    property { machine with condition }

theorem SystemInvariant.coupling {property : Machine σ → Prop}
    (invariant : SystemInvariant property) :
    SystemCoupling (Diagonal property) where
  toSupervisorCoupling := invariant.toSupervisorInvariant.coupling
  available := by rintro left _ ⟨rfl, -⟩ id; rfl
  writeCondition := by
    rintro left _ ⟨rfl, holds⟩ condition
    exact ⟨rfl, invariant.writeCondition holds condition⟩

end M68k

import M68k.Proofs.StepPhases

/-!
# Coupled steps

What couples executions also couples the first phase of a step: two related
machines end it in related machines and with the same pending entry.  Only here
breakpoints count as results, as long as no handler serves them.
-/

namespace M68k

variable {σ τ α : Type}

/-- Two results are the same up to a relation of machines. -/
inductive Matched (relation : Machine σ → Machine τ → Prop) :
    EStateM.Result Fault (Machine σ) α →
      EStateM.Result Fault (Machine τ) α → Prop where
  | ok {value : α} {left : Machine σ} {right : Machine τ}
      (related : relation left right) :
      Matched relation (.ok value left) (.ok value right)
  | error {fault : Fault} {left : Machine σ} {right : Machine τ}
      (related : relation left right) :
      Matched relation (.error fault left) (.error fault right)

theorem Agree.matched {relation : Machine σ → Machine τ → Prop}
    {first : EStateM.Result Fault (Machine σ) α}
    {second : EStateM.Result Fault (Machine τ) α}
    (agree : Agree relation first second) : Matched relation first second := by
  cases agree with
  | ok related => exact .ok related
  | error ordinary related => exact .error related

variable [Memory σ] [Memory τ]

/-- Opcodes are admitted alike by machines whose models and modes admit the same
instructions. -/
theorem Matched.executeOpcode {relation : Machine σ → Machine τ → Prop}
    {left : Machine σ} {right : Machine τ} (related : relation left right)
    (admission : Instruction.admit left.opcode left.model left.isSupervisor =
      Instruction.admit right.opcode right.model right.isSupervisor)
    (executed : ∀ instruction,
      Instruction.admit left.opcode left.model left.isSupervisor =
          .ok instruction →
        Matched relation (instruction.execute left)
          (instruction.execute right)) :
    Matched relation (Execution.executeOpcode left)
      (Execution.executeOpcode right) := by
  rw [Execution.executeOpcode, Execution.executeOpcode, ← admission]
  cases admitted : Instruction.admit left.opcode left.model
      left.isSupervisor with
  | error fault => exact .error related
  | ok instruction => exact executed instruction admitted

/-- A coupling that also respects the run condition and fetched opcodes. -/
structure StepCoupling (relation : Machine σ → Machine τ → Prop) : Prop
    extends Coupling relation where
  condition : ∀ {left right}, relation left right →
    left.condition = right.condition
  writeOpcode : ∀ {left right}, relation left right → ∀ opcode,
    relation { left with opcode } { right with opcode }

namespace StepCoupling

variable {relation : Machine σ → Machine τ → Prop}
variable (coupling : StepCoupling relation)
variable {left : Machine σ} {right : Machine τ}

include coupling

theorem prefetch :
    Coupled relation Execution.prefetch Execution.prefetch :=
  coupling.pc.bind fun address =>
    (coupling.instructionWordAt address).bind fun word =>
      .update fun _ _ related => coupling.writeOpcode related word

theorem bkpt (leftDetached : left.handler = none)
    (rightDetached : right.handler = none) (related : relation left right)
    (vector : Fin 8) :
    Matched relation (Execution.bkpt vector left)
      (Execution.bkpt vector right) := by
  rw [Execution.bkpt_detached leftDetached,
    Execution.bkpt_detached rightDetached, coupling.counter related]
  exact .error (coupling.writeOpcode (coupling.writeCounter related _) _)

theorem pendingFault (related : relation left right) (fault : Fault)
    (instruction : UInt32) :
    (left.pendingFault fault instruction).2 =
        (right.pendingFault fault instruction).2 ∧
      relation (left.pendingFault fault instruction).1
        (right.pendingFault fault instruction).1 := by
  rw [Machine.pendingFault, Machine.pendingFault]
  cases fault.vectorOffset? with
  | none => exact ⟨rfl, related⟩
  | some offset =>
      refine ⟨rfl, ?_⟩
      simp only
      split
      · exact coupling.writeCounter related instruction
      · exact related

theorem beforeEntry (related : relation left right)
    (executed : Matched relation
      (Execution.executeOpcode (left.withPc (left.registers.pc + 2)))
      (Execution.executeOpcode (right.withPc (left.registers.pc + 2)))) :
    left.beforeEntry.2 = right.beforeEntry.2 ∧
      relation left.beforeEntry.1 right.beforeEntry.1 := by
  have traced : left.status.trace = right.status.trace := by
    rw [coupling.status related]
  simp only [Machine.beforeEntry, ← coupling.counter related, traced]
  generalize Execution.executeOpcode
    (left.withPc (left.registers.pc + 2)) = first at executed ⊢
  generalize Execution.executeOpcode
    (right.withPc (left.registers.pc + 2)) = second at executed ⊢
  cases executed with
  | error after => exact coupling.pendingFault after _ _
  | @ok value afterLeft afterRight after =>
      simp only [coupling.condition after]
      split
      · exact ⟨rfl, after⟩
      · split
        · exact ⟨rfl, after⟩
        · have fetched := coupling.prefetch _ _ after
          generalize Execution.prefetch afterLeft = first at fetched ⊢
          generalize Execution.prefetch afterRight = second at fetched ⊢
          cases fetched with
          | ok related => exact ⟨rfl, related⟩
          | error ordinary related =>
              simp only [coupling.counter related]
              exact coupling.pendingFault related _ _

end StepCoupling

end M68k

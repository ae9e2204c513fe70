import M68k.Proofs.MachineInvariant
import M68k.Proofs.SystemState

/-!
# Machines without a breakpoint handler

Only a host attaches a handler.  So a machine without one stays without one
whatever it executes, and a breakpoint is all that can end an instruction
without an exception.
-/

namespace M68k

namespace Machine

variable {σ : Type}

/-- No handler is attached to a machine of a model. -/
structure Detached (model : Model) (machine : Machine σ) : Prop where
  model : machine.model = model
  handler : machine.handler = none

variable [Memory σ] {model : Model} {machine : Machine σ}

theorem detached_invariant (model : Model) :
    StepInvariant fun machine : Machine σ => machine.Detached model where
  writeGeneral detached _ _ := ⟨detached.model, detached.handler⟩
  writeCounter detached _ := ⟨detached.model, detached.handler⟩
  writeCodes detached _ _ := ⟨detached.model, detached.handler⟩
  access detached _ _ _ _ := ⟨detached.model, detached.handler⟩
  writeControl detached _ _ := ⟨detached.model, detached.handler⟩
  saveStackPointer detached := ⟨detached.model, detached.handler⟩
  loadStackPointer detached := ⟨detached.model, detached.handler⟩
  writeStatus detached _ := ⟨detached.model, detached.handler⟩
  writeCondition detached _ := ⟨detached.model, detached.handler⟩
  resetDevices detached := ⟨detached.model, detached.handler⟩
  accessAny detached _ _ _ := ⟨detached.model, detached.handler⟩
  writeOpcode detached _ := ⟨detached.model, detached.handler⟩
  raiseMask detached _ := ⟨detached.model, detached.handler⟩
  clear detached := ⟨detached.model, detached.handler⟩

/-- Where an instruction of a machine without a handler ends. -/
theorem Detached.executeOpcode (detached : machine.Detached model) :
    Ends (Detached model) (Execution.executeOpcode machine) := by
  refine ends_executeOpcode detached ?_
  intro instruction _
  rcases instruction.bkpt_or_ordinary with ⟨vector, rfl⟩ | ordinary
  · rw [Instruction.execute, Execution.bkpt_detached detached.handler]
    exact ⟨detached.model, detached.handler⟩
  · exact ((detached_invariant model).coupling.executeAny ordinary).ends
      detached

/-- Only a breakpoint ends as one, and it leaves its substitute. -/
theorem Detached.executeOpcode_eq_breakpoint
    (detached : machine.Detached model) {left : Machine σ}
    (run : Execution.executeOpcode machine = .error .breakpoint left) :
    ∃ vector, Instruction.decode? machine.opcode = some (.bkpt vector) ∧
      .mc68010 ≤ model ∧
        left =
          { machine.withPc (machine.registers.pc - 2) with
            opcode := Execution.illegalOpcode } := by
  rw [Execution.executeOpcode] at run
  split at run
  · rename_i fault refused
    cases run
    exact absurd refused (Instruction.admit_ne_breakpoint _ _ _)
  · rename_i instruction admitted
    obtain ⟨decoded, present, -⟩ := Instruction.admit_eq_ok admitted
    rcases instruction.bkpt_or_ordinary with ⟨vector, rfl⟩ | ordinary
    · rw [Instruction.execute, Execution.bkpt_detached detached.handler] at run
      cases run
      rw [detached.model] at present
      exact ⟨vector, decoded, Nat.not_lt.mp present, rfl⟩
    · have coupled : Coupled (Diagonal fun machine : Machine σ =>
          machine.Detached model) instruction.execute instruction.execute :=
        (detached_invariant model).coupling.executeAny ordinary
      exact absurd rfl (coupled.ne_breakpoint detached run)

theorem Detached.beforeEntry (detached : machine.Detached model) :
    machine.beforeEntry.1.Detached model := by
  refine beforeEntry_property ?_ ?_ ?_
  · exact Detached.executeOpcode ⟨detached.model, detached.handler⟩
  · exact fun left kept pc => ⟨kept.model, kept.handler⟩
  · exact fun left kept opcode memory => ⟨kept.model, kept.handler⟩

theorem Detached.enterException (detached : machine.Detached model)
    (frame : ExceptionFrame) (vectorOffset : UInt16) :
    Ends (Detached model)
      (Execution.enterException frame vectorOffset machine) :=
  (ends_enterException frame vectorOffset machine).mono fun _ same =>
    ⟨same.model.trans detached.model, same.handler.trans detached.handler⟩

theorem Detached.step (detached : machine.Detached model) :
    machine.step.Detached model :=
  (detached_invariant model).step detached
    (Detached.executeOpcode ⟨detached.model, detached.handler⟩)

theorem Detached.interrupt (detached : machine.Detached model)
    (level : UInt8) : (machine.interrupt level).2.Detached model :=
  (detached_invariant model).interrupt detached level

theorem Detached.reset (detached : machine.Detached model) :
    machine.reset.Detached model :=
  (detached_invariant model).reset detached

end Machine

/-- No call of the host attaches a handler. -/
theorem Emulator.detached_after {σ : Type} [Memory σ] {model : Model}
    {emulator : Emulator σ} (detached : emulator.machine.Detached model)
    (calls : List HostCall) :
    (emulator.after calls).machine.Detached model := by
  apply @after_property σ _ fun emulator => emulator.machine.Detached model
  · intro emulator detached
    exact detached.reset
  · intro emulator detached
    rw [machine_step]
    split
    · exact detached.step
    · exact detached
  · intro emulator detached level
    exact detached.interrupt level
  · exact detached

end M68k

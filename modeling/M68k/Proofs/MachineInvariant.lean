import M68k.Proofs.MachineCoupling

/-!
# Invariants of the machine

A property that the updates and accesses of every instruction keep, and the few
further changes that exceptions, breakpoint handlers and resets make, holds
after every call of the host, whatever the memory answers.
-/

namespace M68k

variable {σ : Type} [Memory σ] {property : Machine σ → Prop}

/-! ## Steps, interrupts and resets -/

/-- A property that every update and access but those of breakpoint handlers
keeps. -/
structure StepInvariant (property : Machine σ → Prop) : Prop
    extends SystemInvariant property where
  writeOpcode : ∀ {machine}, property machine → ∀ opcode,
    property { machine with opcode }
  raiseMask : ∀ {machine}, property machine → ∀ level,
    property (machine.withInterruptMask (level &&& 7))
  clear : ∀ {machine}, property machine →
    property { machine with registers := {}, status := {}, opcode := 0 }

namespace StepInvariant

variable (invariant : StepInvariant property) {machine : Machine σ}

include invariant

theorem machineCoupling : MachineCoupling (Diagonal property) where
  toSupervisorCoupling := invariant.toSupervisorInvariant.coupling
  condition := by rintro left _ ⟨rfl, -⟩; rfl
  writeOpcode := by
    rintro left _ ⟨rfl, holds⟩ opcode
    exact ⟨rfl, invariant.writeOpcode holds opcode⟩
  writeCondition := by
    rintro left _ ⟨rfl, holds⟩ condition
    exact ⟨rfl, invariant.writeCondition holds condition⟩
  raiseMask := by
    rintro left _ ⟨rfl, holds⟩ level
    exact ⟨rfl, invariant.raiseMask holds level⟩
  clear := by
    rintro left _ ⟨rfl, holds⟩
    exact ⟨rfl, invariant.clear holds⟩

/-- Only the instruction itself has to keep the property. -/
theorem step (holds : property machine)
    (executed : Ends property (Execution.executeOpcode
      (machine.withPc (machine.registers.pc + 2)))) :
    property machine.step := by
  have coupling := invariant.machineCoupling
  refine (coupling.step (show Diagonal property machine machine from
    ⟨rfl, holds⟩) ?_).2
  rw [Machine.ExecutesAlike]
  generalize Execution.executeOpcode
    (machine.withPc (machine.registers.pc + 2)) = result at executed ⊢
  cases result with
  | ok value left => exact .ok ⟨rfl, executed⟩
  | error fault left => exact .error ⟨rfl, executed⟩

theorem interrupt (holds : property machine) (level : UInt8) :
    property (machine.interrupt level).2 :=
  (invariant.machineCoupling.interrupt ⟨rfl, holds⟩ level).2.2

theorem reset (holds : property machine) : property machine.reset :=
  (invariant.machineCoupling.reset ⟨rfl, holds⟩).2

end StepInvariant

/-! ## Breakpoint handlers -/

omit [Memory σ] in
/-- Whatever a handler does, it does by its actions. -/
theorem askHandler_property (property : Machine σ → Prop)
    {machine : Machine σ}
    (attach : ∀ {machine}, property machine → ∀ handler,
      property (machine.withHandler handler))
    (recordVisit : ∀ {machine}, property machine → ∀ vector,
      property (machine.recordVisit vector))
    (performs : ∀ handler, machine.handler = some handler →
      ∀ asked, property asked →
        property (handler.actions.foldl Machine.perform asked))
    (holds : property machine) (vector : Fin 8) :
    property (machine.askHandler vector).2 := by
  rw [Machine.askHandler]
  split
  · exact holds
  · rename_i handler attached
    have asked : property ((machine.withHandler none).recordVisit vector) :=
      recordVisit (attach holds none) vector
    have answered := performs handler attached _ asked
    simp only
    split
    · exact answered
    · exact attach answered (some handler)

omit [Memory σ] in
/-- A breakpoint is what its handler leaves, with another opcode. -/
theorem ends_bkpt_of_askHandler {machine : Machine σ} {vector : Fin 8}
    (writeOpcode : ∀ {machine}, property machine → ∀ opcode,
      property { machine with opcode })
    (answered : property
      (Machine.askHandler
        { machine.withPc (machine.registers.pc - 2) with
          opcode := Execution.illegalOpcode } vector).2) :
    Ends property (Execution.bkpt vector machine) := by
  simp only [Execution.bkpt, Execution.pc, Execution.observe, Execution.setPc,
    Execution.setOpcode, Execution.update, Execution.bind_apply,
    Execution.askHandler]
  generalize Machine.askHandler
    { machine.withPc (machine.registers.pc - 2) with
      opcode := Execution.illegalOpcode } vector = result at answered ⊢
  obtain ⟨reply, after⟩ := result
  cases reply with
  | none => exact answered
  | some opcode => exact writeOpcode answered opcode

/-- A property that breakpoint handlers keep, too. -/
structure MachineInvariant (property : Machine σ → Prop) : Prop
    extends StepInvariant property where
  attach : ∀ {machine}, property machine → ∀ handler,
    property (machine.withHandler handler)
  recordVisit : ∀ {machine}, property machine → ∀ vector,
    property (machine.recordVisit vector)

namespace MachineInvariant

variable (invariant : MachineInvariant property) {machine : Machine σ}

include invariant

theorem perform (holds : property machine) (action : HostAction) :
    property (machine.perform action) := by
  cases action with
  | writeRegister register value =>
      exact invariant.writeGeneral holds register value
  | writeStatus word => exact invariant.writeStatus holds word
  | writePc address => exact invariant.writeCounter holds address
  | writeOpcode opcode => exact invariant.writeOpcode holds opcode
  | attach replies actions => exact invariant.attach holds _
  | detach => exact invariant.attach holds _

theorem performAll (holds : property machine) (actions : List HostAction) :
    property (actions.foldl Machine.perform machine) := by
  induction actions generalizing machine with
  | nil => exact holds
  | cons action actions kept => exact kept (invariant.perform holds action)

theorem askHandler (holds : property machine) (vector : Fin 8) :
    property (machine.askHandler vector).2 :=
  askHandler_property property invariant.attach invariant.recordVisit
    (fun handler _ _ asked => invariant.performAll asked handler.actions)
    holds vector

theorem ends_bkpt (holds : property machine) (vector : Fin 8) :
    Ends property (Execution.bkpt vector machine) := by
  have back := invariant.writeCounter holds (machine.registers.pc - 2)
  exact ends_bkpt_of_askHandler invariant.writeOpcode
    (invariant.askHandler (invariant.writeOpcode back _) vector)

theorem ends_executeOpcode (holds : property machine) :
    Ends property (Execution.executeOpcode machine) := by
  apply M68k.ends_executeOpcode holds
  intro instruction _
  rcases instruction.bkpt_or_ordinary with ⟨vector, rfl⟩ | ordinary
  · exact invariant.ends_bkpt holds vector
  · exact (invariant.coupling.executeAny ordinary).ends holds

theorem step (holds : property machine) : property machine.step :=
  invariant.toStepInvariant.step holds
    (invariant.ends_executeOpcode (invariant.writeCounter holds _))

end MachineInvariant

/-! ## The host -/

namespace MachineInvariant

variable (invariant : MachineInvariant property) {emulator : Emulator σ}

include invariant

theorem emulatorStep (holds : property emulator.machine) :
    property emulator.step.2.machine := by
  rw [Emulator.machine_step]
  split
  · exact invariant.step holds
  · exact holds

theorem afterCall (holds : property emulator.machine) (call : HostCall) :
    property (emulator.afterCall call).machine := by
  cases call with
  | reset => exact invariant.reset holds
  | step => exact invariant.emulatorStep holds
  | run =>
      exact @Emulator.runSteps_property σ _
        (fun emulator => property emulator.machine)
        (fun _ => invariant.emulatorStep) emulator holds emulator.headroom
  | interrupt level => exact invariant.interrupt holds level

/-- What every change keeps holds after all calls of the host. -/
theorem after (holds : property emulator.machine) (calls : List HostCall) :
    property (emulator.after calls).machine := by
  induction calls generalizing emulator with
  | nil => exact holds
  | cons call calls kept => exact kept (invariant.afterCall holds call)

theorem afterCommand (holds : property emulator.machine)
    (command : HostCommand) :
    property (emulator.afterCommand command).machine := by
  cases command with
  | call call => exact invariant.afterCall holds call
  | act action => exact invariant.perform holds action
  | writeCodes byte =>
      exact invariant.writeCodes holds _
        fun _ => ConditionCodes.inRange_ofByte byte

/-- What every change keeps holds after all commands of the host. -/
theorem afterCommands (holds : property emulator.machine)
    (commands : List HostCommand) :
    property (emulator.afterCommands commands).machine := by
  induction commands generalizing emulator with
  | nil => exact holds
  | cons command commands kept =>
      exact kept (invariant.afterCommand holds command)

end MachineInvariant

end M68k

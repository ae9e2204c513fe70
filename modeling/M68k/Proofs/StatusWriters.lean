import M68k.Proofs.StackPointerBanking
import M68k.Proofs.RunConditions
import M68k.Proofs.StatusIntegrity

/-!
# What writes the status word

Four instructions write the status word, and only at their end; a breakpoint
handler can write it, too.  Everything else changes no more of it than its
condition codes.  A property that all other updates keep is kept by every
instruction that does not write the status word, wherever that instruction ends.

One such property is the level of the interrupt mask.  Without writes of the
status word only interrupts change it, and they raise it.
-/

namespace M68k

/-- The instructions that end by writing the status word. -/
def Instruction.writesStatus : Instruction → Bool
  | logicToSr _ | moveToSr _ | rte | stop => true
  | _ => false

variable {σ : Type} [Memory σ]

/-- The next instruction writes the status word: it is completed and one of
those that write it, but not the STOP that ends the run, or it is a breakpoint
whose handler writes it. -/
inductive Machine.WritesStatus (machine : Machine σ) : Prop where
  | instruction {instruction : Instruction} {left : Machine σ}
      (admitted : Instruction.admit machine.opcode machine.model
        machine.isSupervisor = .ok instruction)
      (writes : instruction.writesStatus = true)
      (executed : Execution.executeOpcode
        (machine.withPc (machine.registers.pc + 2)) = .ok () left)
      (goesOn : ¬machine.StopsWith 0xFFFF)
  | handler {vector : Fin 8} {handler : BreakpointHandler} {word : UInt16}
      (admitted : Instruction.admit machine.opcode machine.model
        machine.isSupervisor = .ok (.bkpt vector))
      (attached : machine.handler = some handler)
      (listed : .writeStatus word ∈ handler.actions)

theorem Machine.not_writesStatus_of_decode? {machine : Machine σ}
    {instruction : Instruction}
    (decoded : Instruction.decode? machine.opcode = some instruction)
    (unwritten : instruction.writesStatus = false)
    (ordinary : ∀ vector, instruction ≠ .bkpt vector) :
    ¬machine.WritesStatus := by
  intro writes
  cases writes with
  | instruction admitted writes =>
      have same := (Instruction.admit_eq_ok admitted).1
      rw [decoded] at same
      cases same
      rw [unwritten] at writes
      cases writes
  | handler admitted =>
      have same := (Instruction.admit_eq_ok admitted).1
      rw [decoded] at same
      exact ordinary _ (Option.some.inj same)

/-- A property that every update but that of the status word keeps. -/
structure UnwrittenInvariant (property : Machine σ → Prop) : Prop
    extends Invariant property where
  writeControl : ∀ {machine}, property machine → ∀ register value,
    property
      { machine with
        registers := machine.registers.setControl register value }
  saveStackPointer : ∀ {machine}, property machine →
    property machine.saveStackPointer
  loadStackPointer : ∀ {machine}, property machine →
    property machine.loadStackPointer
  resetDevices : ∀ {machine}, property machine →
    property { machine with memory := Memory.resetDevices machine.memory }
  accessAny : ∀ {machine}, property machine → ∀ space (access : Access),
    access.Aligned machine →
      property
        { machine with
          memory := (access.ask space).leaves machine.memory }
  writeCondition : ∀ {machine}, property machine → ∀ condition,
    property { machine with condition }
  writeOpcode : ∀ {machine}, property machine → ∀ opcode,
    property { machine with opcode }
  attach : ∀ {machine}, property machine → ∀ handler,
    property (machine.withHandler handler)
  recordVisit : ∀ {machine}, property machine → ∀ vector,
    property (machine.recordVisit vector)

namespace UnwrittenInvariant

variable {property : Machine σ → Prop}
  (invariant : UnwrittenInvariant property) {machine left : Machine σ}

include invariant

/-! ## Instructions that do not write it -/

theorem ends_readIn (holds : property machine) (space : FunctionCode)
    (address : UInt32) (size : OperandSize) :
    Ends property (Execution.readIn space address size machine) := by
  have related : Diagonal property machine machine := ⟨rfl, holds⟩
  refine (Agree.readIn related rfl ?_ size).ends
  intro access _ aligned
  exact agree_onBus (invariant.accessAny holds space access aligned)

theorem ends_writeIn (holds : property machine) (space : FunctionCode)
    (address : UInt32) (size : OperandSize) (value : UInt32) :
    Ends property (Execution.writeIn space address size value machine) := by
  have related : Diagonal property machine machine := ⟨rfl, holds⟩
  refine (Agree.writeIn related rfl ?_ size).ends
  intro access _ aligned
  exact agree_onBus (invariant.accessAny holds space access aligned)

theorem ends_moves (holds : property machine) (size : OperandSize)
    (mode : AddressingMode) :
    Ends property (Execution.moves size mode machine) := by
  have coupling := invariant.coupling
  refine (coupling.fetchWord.ends holds).bind (fun _ kept => kept) ?_
  intro extension left _ kept
  refine ((coupling.resolveAddress mode size).ends kept).bind
    (fun _ kept => kept) ?_
  intro address left _ kept
  rw [Execution.ite_apply]
  split
  · exact invariant.ends_writeIn kept _ address size _
  · refine (invariant.ends_readIn kept _ address size).bind
      (fun _ kept => kept) ?_
    intro value left _ kept
    exact (coupling.writeLocation _ size value).ends kept

theorem ends_movecStore (holds : property machine) :
    Ends property (Execution.movecStore machine) := by
  refine (Machine.ends_fetchControl invariant.toInvariant holds).bind
    (fun _ kept => kept) ?_
  rintro ⟨general, control⟩ left - kept
  exact invariant.loadStackPointer
    (invariant.writeControl (invariant.saveStackPointer kept) _ _)

theorem ends_movecLoad (holds : property machine) :
    Ends property (Execution.movecLoad machine) := by
  refine (Machine.ends_fetchControl invariant.toInvariant holds).bind
    (fun _ kept => kept) ?_
  rintro ⟨general, control⟩ left - kept
  exact invariant.writeGeneral (invariant.saveStackPointer kept) _ _

theorem ends_execute {instruction : Instruction}
    (ordinary : ∀ vector, instruction ≠ .bkpt vector)
    (unwritten : instruction.writesStatus = false)
    (holds : property machine) :
    Ends property (instruction.execute machine) := by
  have coupling := invariant.coupling
  by_cases unreserved : instruction.privilegedSince? ≠ some .mc68000
  · exact (coupling.execute unreserved ordinary).ends holds
  · cases instruction with
    | logicToSr | moveToSr | rte | stop => cases unwritten
    | moveToUsp source => exact invariant.writeControl holds .usp _
    | moveFromUsp destination => exact invariant.writeGeneral holds _ _
    | moves size mode => exact invariant.ends_moves holds size mode
    | movecStore => exact invariant.ends_movecStore holds
    | movecLoad => exact invariant.ends_movecLoad holds
    | reset => exact invariant.resetDevices holds
    | data instruction => exact (coupling.data instruction).ends holds
    | _ => exact absurd (fun held => by cases held) unreserved

/-! ## Instructions that fail to write it -/

/-- The status word is written at the end, after all that can fail. -/
theorem of_execute_error {instruction : Instruction} {fault : Fault}
    (writes : instruction.writesStatus = true) (holds : property machine)
    (run : instruction.execute machine = .error fault left) :
    property left := by
  have coupling := invariant.coupling
  have ended {α : Type} {first : Execution σ α} {start : Machine σ}
      (coupled : Coupled (Diagonal property) first first)
      (kept : property start) (run : first start = .error fault left) :
      property left := by
    have ends := coupled.ends kept
    rw [run] at ends
    exact ends
  have passed {α : Type} {first : Execution σ α} {start middle : Machine σ}
      {value : α} (coupled : Coupled (Diagonal property) first first)
      (kept : property start) (run : first start = .ok value middle) :
      property middle := by
    have ends := coupled.ends kept
    rw [run] at ends
    exact ends
  cases instruction with
  | logicToSr operation =>
      obtain failed | ⟨_, middle, -, run⟩ := Execution.bind_eq_error run
      · exact ended coupling.fetchWord holds failed
      · cases run
  | moveToSr source =>
      obtain failed | ⟨_, middle, -, run⟩ := Execution.bind_eq_error run
      · exact ended (coupling.fetchOperand source .word) holds failed
      · cases run
  | stop =>
      obtain failed | ⟨immediate, middle, -, run⟩ :=
        Execution.bind_eq_error run
      · exact ended coupling.fetchWord holds failed
      · rw [Execution.ite_apply] at run
        split at run
        · cases run
        · cases run
  | rte =>
      obtain failed | ⟨format, middle, read, run⟩ :=
        Execution.bind_eq_error (show (Execution.readData
          (machine.registers.stackPointer + 6) .word >>= _) machine =
            .error fault left from run)
      · exact ended (coupling.readData _ _) holds failed
      · have holds := passed (coupling.readData _ _) holds read
        cases size : Execution.frameSize? (format.toUInt16 >>> 12) with
        | none =>
            rw [size] at run
            cases run
            exact holds
        | some bytes =>
            rw [size] at run
            obtain failed | ⟨status, middle, read, run⟩ :=
              Execution.bind_eq_error run
            · exact ended (coupling.readData _ _) holds failed
            · have holds := passed (coupling.readData _ _) holds read
              obtain failed | ⟨address, middle, -, run⟩ :=
                Execution.bind_eq_error run
              · exact ended (coupling.readData _ _) holds failed
              · cases run
  | _ => cases writes

/-! ## Breakpoints -/

theorem perform (holds : property machine) {action : HostAction}
    (other : ∀ word, action ≠ .writeStatus word) :
    property (machine.perform action) := by
  cases action with
  | writeRegister register value =>
      exact invariant.writeGeneral holds register value
  | writeStatus word => exact absurd rfl (other word)
  | writePc address => exact invariant.writeCounter holds address
  | writeOpcode opcode => exact invariant.writeOpcode holds opcode
  | attach replies actions => exact invariant.attach holds _
  | detach => exact invariant.attach holds _

theorem performAll (holds : property machine) {actions : List HostAction}
    (others : ∀ word, .writeStatus word ∉ actions) :
    property (actions.foldl Machine.perform machine) := by
  induction actions generalizing machine with
  | nil => exact holds
  | cons action actions kept =>
      have performed : property (machine.perform action) := by
        apply invariant.perform holds
        rintro word rfl
        exact others word List.mem_cons_self
      apply kept performed
      intro word listed
      exact others word (List.mem_cons_of_mem _ listed)

theorem ends_bkpt (holds : property machine) (vector : Fin 8)
    (others : ∀ handler, machine.handler = some handler →
      ∀ word, .writeStatus word ∉ handler.actions) :
    Ends property (Execution.bkpt vector machine) := by
  have back := invariant.writeCounter holds (machine.registers.pc - 2)
  apply ends_bkpt_of_askHandler invariant.writeOpcode
  apply askHandler_property property invariant.attach invariant.recordVisit
  · intro handler attached asked kept
    exact invariant.performAll kept (others handler attached)
  · exact invariant.writeOpcode back Execution.illegalOpcode

/-! ## Instructions of a machine -/

/-- The STOP that ends the run changes the run condition only. -/
theorem ends_stop (holds : property machine) {fetched : Machine σ}
    (fetching : Execution.fetchWord machine = .ok 0xFFFF fetched) :
    Ends property (Execution.stop machine) := by
  have kept := invariant.coupling.fetchWord.ends holds
  rw [fetching] at kept
  rw [Execution.stop, Execution.bind_apply, fetching]
  exact invariant.writeCondition kept .finished

/-- An instruction that does not write the status word keeps the property,
wherever it ends. -/
theorem ends_executeOpcode (holds : property machine)
    (unwritten : ¬machine.WritesStatus) :
    Ends property (Execution.executeOpcode
      (machine.withPc (machine.registers.pc + 2))) := by
  have begun := invariant.writeCounter holds (machine.registers.pc + 2)
  apply M68k.ends_executeOpcode begun
  intro instruction admitted
  have executes := Execution.executeOpcode_of_admitted admitted
  rcases instruction.bkpt_or_ordinary with ⟨vector, rfl⟩ | ordinary
  · apply invariant.ends_bkpt begun vector
    intro handler attached word listed
    exact unwritten (.handler admitted attached listed)
  · cases writes : instruction.writesStatus with
    | false => exact invariant.ends_execute ordinary writes begun
    | true =>
        cases run : instruction.execute
            (machine.withPc (machine.registers.pc + 2)) with
        | error fault left =>
            exact invariant.of_execute_error writes begun run
        | ok value left =>
            by_cases stops : machine.StopsWith 0xFFFF
            · obtain ⟨fetched, fetching⟩ := stops.fetched
              have decoded := (Instruction.admit_eq_ok admitted).1
              obtain rfl : instruction = .stop :=
                Option.some.inj (decoded.symm.trans stops.decoded)
              have ends := invariant.ends_stop begun fetching
              rw [show Execution.stop _ = .ok value left from run] at ends
              exact ends
            · exact absurd
                (.instruction admitted writes (executes.trans run) stops)
                unwritten

end UnwrittenInvariant

/-! ## The interrupt mask -/

namespace StatusRegister

theorem interruptMask_ofWord_congr {left right : UInt16}
    (same : left &&& 0x0700 = right &&& 0x0700) :
    (ofWord left).interruptMask = (ofWord right).interruptMask := by
  have group (word : UInt16) :
      (word >>> 8) &&& (0x7 : UInt16) = (word &&& 0x0700) >>> 8 := by
    rw [UInt16.shiftRight_and]
    rfl
  simp only [ofWord, group, same]

end StatusRegister

theorem handlerStatus_and_interruptMask (status : UInt16) (model : Model) :
    handlerStatus status &&& model.statusMask &&& 0x0700 =
      status &&& 0x0700 := by
  have all : model.statusMask &&& 0x0700 = 0x0700 := by
    cases model <;> decide
  rw [UInt16.and_assoc, all]
  apply UInt16.toBitVec_inj.1
  apply BitVec.eq_of_getLsbD_eq
  intro position inside
  interval_cases position <;> simp [handlerStatus, StatusBit.supervisor]

namespace Machine

variable {machine : Machine σ} {model : Model}

omit [Memory σ] in
/-- An exception does not mask interrupts by itself. -/
theorem interruptMask_handlerMode
    (valid : machine.status.ValidOn model) :
    machine.handlerMode.status.interruptMask =
      machine.status.interruptMask := by
  calc
    _ = (StatusRegister.ofWord machine.status.toWord).interruptMask :=
        StatusRegister.interruptMask_ofWord_congr
          (handlerStatus_and_interruptMask _ _)
    _ = machine.status.interruptMask := by rw [valid.ofWord_toWord]

theorem unwrittenInvariant_interruptMask (mask : UInt8) :
    UnwrittenInvariant fun machine : Machine σ =>
      machine.status.interruptMask = mask where
  writeGeneral same _ _ := same
  writeCounter same _ := same
  writeCodes same _ _ := same
  access same _ _ _ _ := same
  writeControl same _ _ := same
  saveStackPointer same := same
  loadStackPointer same := same
  resetDevices same := same
  accessAny same _ _ _ := same
  writeCondition same _ := same
  writeOpcode same _ := same
  attach same _ := same
  recordVisit same _ := same

theorem interruptMask_beforeEntry (unwritten : ¬machine.WritesStatus) :
    machine.beforeEntry.1.status.interruptMask =
      machine.status.interruptMask := by
  have executed := (unwrittenInvariant_interruptMask
    machine.status.interruptMask).ends_executeOpcode rfl unwritten
  exact beforeEntry_property executed (fun _ same _ => same)
    fun _ same _ _ => same

theorem HasValidStatus.beforeEntry (valid : machine.HasValidStatus model) :
    machine.beforeEntry.1.HasValidStatus model := by
  have invariant := hasValidStatus_invariant (σ := σ) model
  have begun := invariant.writeCounter valid (machine.registers.pc + 2)
  exact beforeEntry_property (invariant.ends_executeOpcode begun)
    (fun _ kept _ => invariant.writeCounter kept _)
    fun _ kept _ _ => ⟨kept.status, kept.model⟩

theorem ends_enterException_interruptMask
    (valid : machine.status.ValidOn model) (frame : ExceptionFrame)
    (vectorOffset : UInt16) :
    Ends (fun left => left.status.interruptMask =
        machine.status.interruptMask)
      (Execution.enterException frame vectorOffset machine) :=
  (ends_enterException frame vectorOffset machine).mono fun _ same =>
    same.interruptMask.trans (interruptMask_handlerMode valid)

/-- A step keeps the interrupt mask, unless it writes the status word. -/
theorem interruptMask_step (valid : machine.HasValidStatus model)
    (unwritten : ¬machine.WritesStatus) :
    machine.step.status.interruptMask = machine.status.interruptMask := by
  have begun := valid.beforeEntry
  rw [step_eq_enterPending, ← interruptMask_beforeEntry unwritten]
  generalize machine.beforeEntry = result at begun ⊢
  obtain ⟨left, pending⟩ := result
  cases pending with
  | none => rfl
  | some pending =>
      exact haltOnFault_property
        (ends_enterException_interruptMask begun.status pending.frame
          pending.vectorOffset)
        fun _ same => same

/-- An interrupt never lowers the interrupt mask. -/
theorem interruptMask_le_interrupt (valid : machine.status.ValidOn model)
    (level : UInt8) :
    machine.status.interruptMask ≤
      (machine.interrupt level).2.status.interruptMask := by
  have entry : Ends _ (machine.interruptEntry level) :=
    ends_enterException_interruptMask
      (show { machine with condition := .running }.status.ValidOn model from
        valid) _ _
  rcases machine.interrupt_cases level with ⟨-, refused⟩ |
    ⟨accepted, ⟨entered, run, taken⟩ | ⟨fault, entered, run, failed⟩⟩
  · rw [refused]
    exact UInt8.le_refl _
  · rw [taken]
    obtain ⟨-, -, highest | above⟩ :=
      (machine.acceptsInterrupt_iff level).mp accepted
    · show machine.status.interruptMask ≤ level &&& 7
      rw [highest]
      exact valid.inRange.2.1
    · exact UInt8.le_of_lt above
  · rw [run] at entry
    rw [failed]
    exact UInt8.le_of_eq entry.symm

/-- A reset masks all interrupts that can be masked. -/
theorem interruptMask_reset (machine : Machine σ) :
    machine.reset.status.interruptMask = 7 := by
  have cleared : machine.cleared.status.interruptMask = 7 := by
    show (StatusRegister.ofWord
      (0x2700 &&& machine.model.statusMask)).interruptMask = 7
    cases machine.model <;> rfl
  have invariant := unwrittenInvariant_interruptMask (σ := σ) 7
  have read (address : UInt32) {start : Machine σ}
      (masked : start.status.interruptMask = 7) :
      Ends (fun left => left.status.interruptMask = 7)
        (Execution.onBus
          (Memory.readLong address .supervisorProgram) start) :=
    (ends_onBus _ start).mono fun left same => by rw [same, masked]
  have loaded : Ends (fun left => left.status.interruptMask = 7)
      (loadResetVectors machine.cleared) := by
    refine (read 0 cleared).bind (fun _ kept => kept) ?_
    intro pointer left _ kept
    refine (read 4 kept).bind (fun _ kept => kept) ?_
    intro start left _ kept
    exact invariant.ends_prefetch (fun _ same _ => same)
      (invariant.writeCounter
        (invariant.writeGeneral kept .stackPointer pointer) start)
  rw [reset]
  generalize loadResetVectors machine.cleared = result at loaded ⊢
  cases result with
  | ok value started => exact loaded
  | error fault left => exact loaded

end Machine

/-! ## The host -/

/-- A command by which the host writes the status word itself. -/
def HostCommand.writesStatus : HostCommand → Bool
  | act (.writeStatus _) => true
  | _ => false

namespace Emulator

variable {emulator : Emulator σ} {model : Model}

/-- The machines whose instruction a command executes. -/
def executedByCommand (emulator : Emulator σ) :
    HostCommand → List (Machine σ)
  | .call call => emulator.executedByCall call
  | .act _ | .writeCodes _ => []

/-- Neither the host nor an instruction writes the status word in a sequence of
commands.  A reset may. -/
def LeavesStatus (emulator : Emulator σ) : List HostCommand → Prop
  | [] => True
  | command :: commands =>
      command.writesStatus = false ∧
        (∀ machine ∈ emulator.executedByCommand command,
          ¬machine.WritesStatus) ∧
          (emulator.afterCommand command).LeavesStatus commands

theorem interruptMask_runSteps (valid : emulator.machine.HasValidStatus model)
    {count : Nat}
    (unwritten : ∀ machine ∈ emulator.executedBySteps count,
      ¬machine.WritesStatus) :
    (emulator.runSteps count).machine.status.interruptMask =
      emulator.machine.status.interruptMask := by
  induction count generalizing emulator with
  | zero => rfl
  | succ count induction =>
      rw [runSteps_succ]
      cases canStep : emulator.canStep with
      | false =>
          rw [step_of_refused canStep]
          rw [runSteps_of_refused canStep]
      | true =>
          rw [executedBySteps, if_pos canStep] at unwritten
          have stepped := (Machine.hasValidStatus_invariant model).emulatorStep
            valid
          rw [induction stepped fun machine executed =>
            unwritten machine (List.mem_cons_of_mem _ executed)]
          rw [step_of_canStep canStep]
          exact Machine.interruptMask_step valid
            (unwritten _ List.mem_cons_self)

/-- A command that does not write the status word does not lower the interrupt
mask. -/
theorem interruptMask_le_afterCommand
    (valid : emulator.machine.HasValidStatus model) {command : HostCommand}
    (own : command.writesStatus = false)
    (unwritten : ∀ machine ∈ emulator.executedByCommand command,
      ¬machine.WritesStatus) :
    emulator.machine.status.interruptMask ≤
      (emulator.afterCommand command).machine.status.interruptMask := by
  have steps (count : Nat)
      (unwritten : ∀ machine ∈ emulator.executedBySteps count,
        ¬machine.WritesStatus) :
      emulator.machine.status.interruptMask ≤
        (emulator.runSteps count).machine.status.interruptMask :=
    UInt8.le_of_eq (interruptMask_runSteps valid unwritten).symm
  cases command with
  | call call =>
      cases call with
      | reset =>
          refine UInt8.le_trans valid.status.inRange.2.1 ?_
          exact UInt8.le_of_eq (Machine.interruptMask_reset _).symm
      | step =>
          have once := steps 1 unwritten
          rw [runSteps_succ] at once
          exact once
      | run => exact steps emulator.headroom unwritten
      | interrupt level =>
          exact Machine.interruptMask_le_interrupt valid.status level
  | act action =>
      cases action with
      | writeStatus word => cases own
      | _ => exact UInt8.le_refl _
  | writeCodes byte => exact UInt8.le_refl _

/-- The interrupt mask falls only when the status word is written. -/
theorem interruptMask_le_afterCommands
    (valid : emulator.machine.HasValidStatus model)
    {commands : List HostCommand} (leaves : emulator.LeavesStatus commands) :
    emulator.machine.status.interruptMask ≤
      (emulator.afterCommands commands).machine.status.interruptMask := by
  induction commands generalizing emulator with
  | nil => exact UInt8.le_refl _
  | cons command commands induction =>
      obtain ⟨own, unwritten, later⟩ := leaves
      have kept := (Machine.hasValidStatus_invariant model).afterCommand valid
        command
      exact UInt8.le_trans (interruptMask_le_afterCommand valid own unwritten)
        (induction kept later)

end Emulator

end M68k

import M68k.Memory.Flat
import M68k.Proofs.HostCalls
import M68k.Proofs.StepPhases
import M68k.Proofs.SystemState

/-!
# Banking loses no stack pointer

A step or an interrupt leaves alone every logical stack pointer that is selected
neither before nor after it, unless the instruction writes that stack pointer by
its own name.  An instruction keeps the stack pointers that are not selected
before it; an entry keeps those that are not selected after it.
-/

namespace M68k

namespace Machine

variable {σ : Type}

/-- A machine has kept a logical stack pointer of the start. -/
structure KeepsPointer (start : Machine σ) (bank : StackBank)
    (machine : Machine σ) : Prop where
  fits : machine.MasterFits
  pointer : machine.logicalStackPointer bank = start.logicalStackPointer bank

namespace KeepsPointer

variable {start machine : Machine σ} {bank : StackBank}

theorem ofSameSystem (fits : start.MasterFits)
    (inactive : bank ≠ start.activeBank) (same : machine.SameSystem start) :
    start.KeepsPointer bank machine :=
  ⟨same.masterFits fits, same.logicalStackPointer fits inactive⟩

theorem setStatusWord (keeps : start.KeepsPointer bank machine)
    (word : UInt16) : start.KeepsPointer bank (machine.setStatusWord word) :=
  ⟨machine.masterFits_setStatusWord word,
    (keeps.fits.logicalStackPointer_setStatusWord word bank).trans
      keeps.pointer⟩

theorem withPc (keeps : start.KeepsPointer bank machine) (pc : UInt32) :
    start.KeepsPointer bank (machine.withPc pc) :=
  ⟨keeps.fits, (machine.logicalStackPointer_withPc pc bank).trans
    keeps.pointer⟩

/-- The stack pointer of a bank that is not selected is its saved copy, so it
is kept as long as that copy and the selection are. -/
theorem ofBanked {left : Machine σ}
    (keeps : start.KeepsPointer bank machine)
    (inactive : bank ≠ machine.activeBank)
    (status : left.status = machine.status)
    (model : left.model = machine.model)
    (banked : left.registers.banked bank = machine.registers.banked bank) :
    start.KeepsPointer bank left := by
  have fits : left.MasterFits := by
    rw [MasterFits, status, model]
    exact keeps.fits
  have leftInactive : bank ≠ left.activeBank := by
    rw [activeBank, isSupervisor, status, model]
    exact inactive
  refine ⟨fits, ?_⟩
  rw [← keeps.pointer, keeps.fits.logicalStackPointer_inactive inactive,
    fits.logicalStackPointer_inactive leftInactive, banked]

end KeepsPointer

/-- An instruction writes the saved copy of a stack pointer by its name: MOVE to
USP, and MOVEC with the number of the stack pointer in its extension word. -/
def WritesBank [Memory σ] (machine : Machine σ) (bank : StackBank) :
    Instruction → Prop
  | .moveToUsp _ => bank = .user
  | .movecStore =>
      ∃ word memory,
        Memory.fetchWord machine.registers.pc machine.programSpace
            machine.memory = .ok word memory ∧
          ControlRegister.forModel? (word &&& 0xFFF) machine.model =
            some bank.control
  | _ => False

/-! ## Instructions -/

section

variable [Memory σ] {start : Machine σ} {bank : StackBank}

/-- The control register that MOVEC names is the one of its extension word. -/
theorem fetchControl_eq_ok {machine left : Machine σ} {general : Register}
    {control : ControlRegister}
    (run : Execution.fetchControl machine = .ok (general, control) left) :
    ∃ word memory,
      Memory.fetchWord machine.registers.pc machine.programSpace
          machine.memory = .ok word memory ∧
        ControlRegister.forModel? (word &&& 0xFFF) machine.model =
          some control ∧
        left =
          { machine with memory }.withPc (machine.registers.pc + 2) := by
  rw [Execution.fetchControl, Execution.bind_apply] at run
  cases fetched : Execution.fetchWord machine with
  | error fault after => rw [fetched] at run; cases run
  | ok word after =>
      obtain ⟨memory, granted, rfl⟩ := Execution.fetchWord_eq_ok fetched
      refine ⟨word, memory, granted, ?_⟩
      rw [fetched] at run
      simp only [Execution.controlFor?, Execution.observe,
        Execution.bind_apply] at run
      cases named : ControlRegister.forModel? (word &&& 0xFFF)
          machine.model with
      | none =>
          simp only [Machine.withPc, named, Execution.pc, Execution.setPc,
            Execution.observe, Execution.update, Execution.bind_apply,
            Execution.throw_apply] at run
          cases run
      | some found =>
          simp only [Machine.withPc, named, Execution.pure_apply] at run
          cases run
          exact ⟨rfl, rfl⟩

theorem ends_fetchControl {property : Machine σ → Prop}
    (invariant : Invariant property) {machine : Machine σ}
    (holds : property machine) :
    Ends property (Execution.fetchControl machine) := by
  refine (invariant.coupling.fetchWord.ends holds).bind (fun _ kept => kept) ?_
  intro word left _ kept
  simp only [Execution.controlFor?, Execution.observe, Execution.bind_apply]
  cases ControlRegister.forModel? (word &&& 0xFFF) left.model with
  | none => exact invariant.writeCounter kept _
  | some control => exact kept

theorem banked_setControl (registers : Registers)
    {control : ControlRegister} {bank : StackBank}
    (different : control ≠ bank.control) (value : UInt32) :
    (registers.setControl control value).banked bank =
      registers.banked bank := by
  rw [Registers.banked_eq_control, Registers.banked_eq_control]
  exact registers.control_setControl_of_ne value different.symm

/-- MOVEC to a control register other than a bank's keeps that bank. -/
theorem movecStore_keepsPointer (fits : start.MasterFits)
    (inactive : bank ≠ start.activeBank)
    (unnamed : ¬start.WritesBank bank .movecStore) :
    Ends (start.KeepsPointer bank) (Execution.movecStore start) := by
  refine (ends_fetchControl (sameSystem_invariant start) (.refl _)).bind
    (fun _ same => .ofSameSystem fits inactive same) ?_
  rintro ⟨general, control⟩ left run same
  obtain ⟨word, memory, fetched, named, rfl⟩ := fetchControl_eq_ok run
  have different : control ≠ bank.control := by
    rintro rfl
    exact unnamed ⟨word, memory, fetched, named⟩
  have keeps := KeepsPointer.ofSameSystem fits inactive same
  rw [← same.activeBank] at inactive
  refine keeps.ofBanked inactive rfl rfl ?_
  exact (Registers.banked_setStackPointer _ _ _).trans
    ((banked_setControl _ different _).trans
      (Registers.banked_setBanked_of_ne _ _ inactive))

theorem movecLoad_keepsPointer (fits : start.MasterFits)
    (inactive : bank ≠ start.activeBank) :
    Ends (start.KeepsPointer bank) (Execution.movecLoad start) := by
  refine (ends_fetchControl (sameSystem_invariant start) (.refl _)).bind
    (fun _ same => .ofSameSystem fits inactive same) ?_
  rintro ⟨general, control⟩ left run same
  have keeps := KeepsPointer.ofSameSystem fits inactive same
  rw [← same.activeBank] at inactive
  refine keeps.ofBanked inactive rfl rfl ?_
  exact (Registers.banked_set _ _ _ _).trans
    (Registers.banked_setBanked_of_ne _ _ inactive)

theorem rte_keepsPointer (fits : start.MasterFits)
    (inactive : bank ≠ start.activeBank) :
    Ends (start.KeepsPointer bank) (Execution.rte start) := by
  have keeps (left : Machine σ) (same : left.SameSystem start) :=
    KeepsPointer.ofSameSystem fits inactive same
  have coupling := (sameSystem_invariant start).coupling
  refine ((coupling.register .stackPointer).ends (.refl _)).bind keeps ?_
  intro pointer left _ same
  refine ((coupling.readData _ _).ends same).bind keeps ?_
  intro format left _ same
  cases Execution.frameSize? (format.toUInt16 >>> 12) with
  | none => exact keeps left same
  | some size =>
      refine ((coupling.readData _ _).ends same).bind keeps ?_
      intro status left _ same
      refine ((coupling.readData _ _).ends same).bind keeps ?_
      intro address left _ same
      refine ((coupling.setRegister _ _).ends same).bind keeps ?_
      intro _ left _ same
      refine ((coupling.setPc _).ends same).bind keeps ?_
      intro _ left _ same
      exact (keeps left same).setStatusWord _

theorem moves_keepsPointer (fits : start.MasterFits)
    (inactive : bank ≠ start.activeBank) (size : OperandSize)
    (mode : AddressingMode) :
    Ends (start.KeepsPointer bank) (Execution.moves size mode start) := by
  have keeps (left : Machine σ) (same : left.SameSystem start) :=
    KeepsPointer.ofSameSystem fits inactive same
  have coupling := (sameSystem_invariant start).coupling
  refine (coupling.fetchWord.ends (.refl _)).bind keeps ?_
  intro extension left _ same
  refine ((coupling.resolveAddress mode size).ends same).bind keeps ?_
  intro address left _ same
  rw [Execution.ite_apply]
  split
  · exact (ends_writeIn _ address size _ left).mono fun _ only =>
      keeps _ (same.onlyMemory only)
  · refine ((ends_readIn _ address size left).mono fun _ only =>
      same.onlyMemory only).bind keeps ?_
    intro value left _ same
    exact ((coupling.writeLocation _ size value).ends same).mono keeps

theorem stop_keepsPointer (fits : start.MasterFits)
    (inactive : bank ≠ start.activeBank) :
    Ends (start.KeepsPointer bank) (Execution.stop start) := by
  have keeps (left : Machine σ) (same : left.SameSystem start) :=
    KeepsPointer.ofSameSystem fits inactive same
  refine ((sameSystem_invariant start).coupling.fetchWord.ends (.refl _)).bind
    keeps ?_
  intro immediate left _ same
  rw [Execution.ite_apply]
  split
  · exact ⟨(keeps left same).fits, (keeps left same).pointer⟩
  · have changed := (keeps left same).setStatusWord immediate
    exact ⟨changed.fits, changed.pointer⟩

/-- An instruction keeps every stack pointer that is not selected before it,
apart from one that it writes by name. -/
theorem execute_keepsPointer (fits : start.MasterFits)
    (inactive : bank ≠ start.activeBank) (detached : start.handler = none)
    {instruction : Instruction}
    (unnamed : ¬start.WritesBank bank instruction) :
    Ends (start.KeepsPointer bank) (instruction.execute start) := by
  have keeps (left : Machine σ) (same : left.SameSystem start) :=
    KeepsPointer.ofSameSystem fits inactive same
  have coupling := (sameSystem_invariant start).coupling
  by_cases unreserved : instruction.privilegedSince? ≠ some .mc68000
  · rcases instruction.bkpt_or_ordinary with ⟨vector, rfl⟩ | ordinary
    · rw [Instruction.execute, Execution.bkpt_detached detached]
      have back := (keeps start (.refl _)).withPc (start.registers.pc - 2)
      exact ⟨back.fits, back.pointer⟩
    · exact ((coupling.execute unreserved ordinary).ends (.refl _)).mono keeps
  · cases instruction with
    | logicToSr operation =>
        refine (coupling.fetchWord.ends (.refl _)).bind keeps ?_
        intro immediate left _ same
        exact (keeps left same).setStatusWord _
    | moveToSr source =>
        refine ((coupling.fetchOperand source .word).ends (.refl _)).bind
          keeps ?_
        intro value left _ same
        exact (keeps left same).setStatusWord _
    | moveToUsp source =>
        exact (keeps start (.refl _)).ofBanked inactive rfl rfl
          (Registers.banked_setBanked_of_ne _ _ unnamed)
    | moveFromUsp destination =>
        exact keeps _ ((sameSystem_invariant start).writeGeneral (.refl _) _ _)
    | moves size mode => exact moves_keepsPointer fits inactive size mode
    | movecStore => exact movecStore_keepsPointer fits inactive unnamed
    | movecLoad => exact movecLoad_keepsPointer fits inactive
    | rte => exact rte_keepsPointer fits inactive
    | stop => exact stop_keepsPointer fits inactive
    | reset => exact ⟨fits, rfl⟩
    | data instruction =>
        exact ((coupling.data instruction).ends (.refl _)).mono keeps
    | _ => exact absurd (fun held => by cases held) unreserved

/-! ## Steps and interrupts -/

/-- The machine holds an instruction that writes the stack pointer of a bank by
its name. -/
def NamesBank (machine : Machine σ) (bank : StackBank) : Prop :=
  ∃ instruction, Instruction.decode? machine.opcode = some instruction ∧
    (machine.withPc (machine.registers.pc + 2)).WritesBank bank instruction

theorem beforeEntry_keepsPointer (fits : start.MasterFits)
    (inactive : bank ≠ start.activeBank) (detached : start.handler = none)
    (unnamed : ¬start.NamesBank bank) :
    start.KeepsPointer bank start.beforeEntry.1 := by
  have begun : start.KeepsPointer bank
      (start.withPc (start.registers.pc + 2)) :=
    (KeepsPointer.ofSameSystem fits inactive (.refl start)).withPc _
  refine beforeEntry_property ?_ (fun _ keeps pc => keeps.withPc pc)
    fun _ keeps _ _ => ⟨keeps.fits, keeps.pointer⟩
  refine ends_executeOpcode begun ?_
  intro instruction admitted
  have decoded := (Instruction.admit_eq_ok admitted).1
  have kept := execute_keepsPointer begun.fits inactive detached
    fun writes => unnamed ⟨instruction, decoded, writes⟩
  exact kept.mono fun left keeps =>
    ⟨keeps.fits, keeps.pointer.trans begun.pointer⟩

/-- What an entry leaves is in the handler's mode, and there it keeps every stack
pointer that is not selected. -/
theorem enterException_keepsPointer {left : Machine σ}
    (keeps : start.KeepsPointer bank left) {frame : ExceptionFrame}
    {vectorOffset : UInt16} :
    Ends (fun entered =>
        entered.status.interruptMask = left.handlerMode.status.interruptMask ∧
          (bank ≠ entered.activeBank → start.KeepsPointer bank entered))
      (Execution.enterException frame vectorOffset left) := by
  have handler : start.KeepsPointer bank left.handlerMode :=
    keeps.setStatusWord _
  refine (ends_enterException frame vectorOffset left).mono ?_
  intro entered same
  refine ⟨same.interruptMask, ?_⟩
  intro inactive
  rw [same.activeBank] at inactive
  exact ⟨same.masterFits handler.fits,
    (same.logicalStackPointer handler.fits inactive).trans handler.pointer⟩

/-- An entry keeps every stack pointer that is not selected after it. -/
theorem enterPending_keepsPointer {left : Machine σ}
    {pending : Option PendingEntry} (keeps : start.KeepsPointer bank left)
    (inactive : bank ≠ (enterPending (left, pending)).activeBank) :
    start.KeepsPointer bank (enterPending (left, pending)) := by
  cases pending with
  | none => exact keeps
  | some pending =>
      have entered : Ends (fun final => bank ≠ final.activeBank →
            start.KeepsPointer bank final)
          (Execution.enterException pending.frame pending.vectorOffset left) :=
        (enterException_keepsPointer keeps).mono fun _ kept => kept.2
      refine haltOnFault_property entered ?_ inactive
      intro machine kept inactive
      exact ⟨(kept inactive).fits, (kept inactive).pointer⟩

theorem step_keepsPointer (fits : start.MasterFits)
    (before : bank ≠ start.activeBank) (after : bank ≠ start.step.activeBank)
    (detached : start.handler = none) (unnamed : ¬start.NamesBank bank) :
    start.KeepsPointer bank start.step := by
  rw [step_eq_enterPending] at after ⊢
  exact enterPending_keepsPointer
    (beforeEntry_keepsPointer fits before detached unnamed) after

theorem interrupt_keepsPointer (fits : start.MasterFits) {level : UInt8}
    (after : bank ≠ (start.interrupt level).2.activeBank) :
    start.KeepsPointer bank (start.interrupt level).2 := by
  have awake : start.KeepsPointer bank
      { start with condition := .running } := ⟨fits, rfl⟩
  have ends : Ends _ (start.interruptEntry level) :=
    enterException_keepsPointer awake
  rcases start.interrupt_cases level with ⟨-, refused⟩ |
    ⟨-, ⟨entered, run, taken⟩ | ⟨fault, entered, run, failed⟩⟩
  · rw [refused]
    exact ⟨fits, rfl⟩
  · rw [run] at ends
    have masked : entered.status.interruptMask &&& 7 =
        entered.status.interruptMask := by
      rw [ends.1]
      exact StatusRegister.interruptMask_ofWord _
    rw [taken, activeBank_withInterruptMask level masked] at after
    have keeps := ends.2 after
    rw [taken]
    exact ⟨masterFits_withInterruptMask level masked keeps.fits,
      (logicalStackPointer_withInterruptMask level masked bank).trans
        keeps.pointer⟩
  · rw [run] at ends
    rw [failed] at after ⊢
    exact ⟨(ends.2 after).fits, (ends.2 after).pointer⟩

end

end Machine

/-- No stack pointer is lost by banking: status words exchange them, and steps
and interrupts change only those that are selected before or after, or that the
instruction writes by name. -/
theorem Emulator.banking_keeps_stackPointers {σ : Type} [Memory σ]
    {emulator : Emulator σ} (fits : emulator.machine.StatusFits) :
    (∀ words : List UInt16,
      let final := emulator.withMachine
        (words.foldl Machine.setStatusWord emulator.machine)
      (∀ bank, final.inspect (.stack bank) = emulator.inspect (.stack bank)) ∧
        Value.long final.machine.registers.stackPointer =
          emulator.inspect (.stack final.machine.activeBank)) ∧
      (emulator.machine.handler = none →
        ∀ bank, bank ≠ emulator.machine.activeBank →
          (bank ≠ emulator.step.2.machine.activeBank →
            ¬emulator.machine.NamesBank bank →
              emulator.step.2.inspect (.stack bank) =
                emulator.inspect (.stack bank)) ∧
          ∀ level,
            bank ≠ (emulator.interrupt level).2.machine.activeBank →
              (emulator.interrupt level).2.inspect (.stack bank) =
                emulator.inspect (.stack bank)) := by
  constructor
  · intro words
    obtain ⟨finalFits, kept⟩ := fits.masterFits.foldl_setStatusWord words
    refine ⟨fun bank => congrArg Value.long (kept bank), ?_⟩
    exact congrArg Value.long
      (finalFits.logicalStackPointer_active.symm.trans (kept _))
  · intro detached bank before
    constructor
    · intro after unnamed
      refine congrArg Value.long ?_
      rw [machine_step] at after ⊢
      split at after
      · rename_i canStep
        rw [if_pos canStep]
        exact (Machine.step_keepsPointer fits.masterFits before after detached
          unnamed).pointer
      · rename_i refused
        rw [if_neg refused]
    · intro level after
      exact congrArg Value.long
        (Machine.interrupt_keepsPointer fits.masterFits after).pointer

/-- A supervisor about to write zero to its status word. -/
def leavingSupervisor : Emulator FlatMemory where
  machine :=
    { model := .mc68020
      condition := .running
      status := .ofWord 0x2000
      registers := { msp := 0x40 }
      opcode := 0x46FC
      memory := ⟨#[0x46, 0xFC, 0, 0, 0x4E, 0x71]⟩ }

theorem leavingSupervisor_keeps_msp :
    leavingSupervisor.step.2.machine.activeBank = .user ∧
      leavingSupervisor.step.2.inspect (.stack .master) =
        leavingSupervisor.inspect (.stack .master) := by
  have unnamed : ¬leavingSupervisor.machine.NamesBank .master := by
    rintro ⟨instruction, decoded, writes⟩
    obtain rfl : .moveToSr .immediate = instruction :=
      Option.some.inj decoded
    exact writes
  have keeps := Emulator.banking_keeps_stackPointers
    (show leavingSupervisor.machine.StatusFits by decide +kernel)
  exact ⟨by decide +kernel,
    (keeps.2 rfl .master (by decide +kernel)).1 (by decide +kernel) unnamed⟩

end M68k

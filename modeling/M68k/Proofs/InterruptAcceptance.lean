import M68k.Proofs.ExceptionFrames
import M68k.Proofs.StatusWriters

/-!
# Acceptance of interrupts

An interrupt is taken by a machine that runs or is stopped, if its level is
above the mask or cannot be masked, and if its exception can be entered.  A
refusal changes nothing; an entry that fails halts the machine.  A taken
interrupt stacks the status word as it was and raises the mask to its level, and
then holds off all interrupts up to that level until the status word is written
again.
-/

namespace M68k

namespace StatusRegister

/-- Each group fits in its bits of the status word. -/
structure InRange (status : StatusRegister) : Prop where
  mode : status.mode ≤ 15
  interruptMask : status.interruptMask ≤ 7
  codes : status.codes.InRange

/-- The last model has all bits of the status word. -/
theorem InRange.validOn {status : StatusRegister} (inRange : status.InRange) :
    status.ValidOn .mc68040 := by
  constructor
  · apply UInt8.toNat_inj.1
    rw [UInt8.toNat_and]
    have bound := UInt8.le_iff_toNat_le.mp inRange.mode
    exact (Nat.and_two_pow_sub_one_eq_mod _ 4).trans
      (Nat.mod_eq_of_lt (Nat.lt_succ_of_le bound))
  · apply UInt8.toNat_inj.1
    rw [UInt8.toNat_and]
    have bound := UInt8.le_iff_toNat_le.mp inRange.interruptMask
    exact (Nat.and_two_pow_sub_one_eq_mod _ 3).trans
      (Nat.mod_eq_of_lt (Nat.lt_succ_of_le bound))
  · exact inRange.codes

end StatusRegister

/-- The row of the interrupt at a level. -/
def ExceptionRow.interrupt (level : UInt8) : ExceptionRow :=
  ⟨24 + level.toUInt16, .short, true⟩

theorem vectorTableOffset_autovector (level : UInt8) :
    vectorTableOffset (autovectorBase + (level &&& 7)) =
      4 * (ExceptionRow.interrupt (level &&& 7)).vector := by
  have bound : (level &&& 7).toNat < 8 := by
    rw [UInt8.toNat_and]
    exact Nat.lt_succ_of_le Nat.and_le_right
  generalize level &&& 7 = low at bound
  apply UInt16.toNat_inj.1
  simp only [vectorTableOffset, autovectorBase, ExceptionRow.interrupt,
    UInt16.toNat_mul, UInt16.toNat_add, UInt8.toNat_toUInt16, UInt8.toNat_add]
  simp
  omega

namespace Machine

variable {machine entered : Machine FlatMemory} {level : UInt8}

/-- What the entry of an interrupt leaves. -/
theorem delivered_of_interruptEntry
    (run : machine.interruptEntry level = .ok () entered) :
    Delivered { machine with condition := .running }
      (.interrupt (level &&& 7)) machine.registers.pc machine.registers.pc
        entered := by
  rw [interruptEntry, vectorTableOffset_autovector] at run
  exact delivered_of_enterException run

/-- A machine that has taken an interrupt has a valid status register, also if
the interrupted one had bits that the model lacks. -/
theorem validStatus_of_interruptEntry
    (run : machine.interruptEntry level = .ok () entered) :
    (entered.withInterruptMask (level &&& 7)).HasValidStatus
      machine.model := by
  have same : Ends _ (machine.interruptEntry level) :=
    ends_enterException .short _ _
  rw [run] at same
  have status := (delivered_of_interruptEntry run).status
  have valid : entered.HasValidStatus machine.model := by
    constructor
    · rw [status]
      exact StatusRegister.validOn_ofWord _ _
    · exact same.model
  exact valid.withInterruptMask level

end Machine

namespace Emulator

variable {emulator : Emulator FlatMemory} {level : UInt8}

/-- Everything that an interrupt at a level does. -/
structure ObeysMask (emulator : Emulator FlatMemory) (level : UInt8) :
    Prop where
  taken : (emulator.interrupt level).1 = true ↔
    (emulator.machine.condition = .running ∨
        emulator.machine.condition = .stopped) ∧
      emulator.machine.PassesMask level ∧
        ∃ entered, emulator.machine.interruptEntry level = .ok () entered
  refused : ¬((emulator.machine.condition = .running ∨
        emulator.machine.condition = .stopped) ∧
      emulator.machine.PassesMask level) →
    emulator.interrupt level = (false, emulator)
  halted : emulator.machine.condition = .running ∨
      emulator.machine.condition = .stopped →
    emulator.machine.PassesMask level → ∀ fault left,
      emulator.machine.interruptEntry level = .error fault left →
        emulator.interrupt level =
          (false, emulator.withMachine { left with condition := .halted })
  /-- The frame is built before the mask is raised. -/
  entered : (emulator.interrupt level).1 = true → ∃ entered,
    Machine.Delivered { emulator.machine with condition := .running }
        (.interrupt (level &&& 7)) emulator.machine.registers.pc
          emulator.machine.registers.pc entered ∧
      entered.condition = .running ∧
        emulator.interrupt level =
          (true, emulator.withMachine
            (entered.withInterruptMask (level &&& 7)))
  /-- The stacked word gives back the interrupted status, with its mask. -/
  stacked : StatusRegister.ofWord emulator.machine.status.toWord =
    emulator.machine.status
  holds : (emulator.interrupt level).1 = true → ∀ commands,
    (emulator.interrupt level).2.LeavesStatus commands → ∀ next : UInt8,
      next &&& 7 ≤ level &&& 7 → next &&& 7 ≠ 7 →
        let after := (emulator.interrupt level).2.afterCommands commands
        after.interrupt next = (false, after)

theorem interrupt_of_entered
    (accepted : emulator.machine.acceptsInterrupt (level &&& 7) = true)
    {entered : Machine FlatMemory}
    (run : emulator.machine.interruptEntry level = .ok () entered) :
    emulator.interrupt level =
      (true, emulator.withMachine
        (entered.withInterruptMask (level &&& 7))) := by
  rw [interrupt, Machine.interrupt_eq_entry, if_pos accepted, run]

theorem interrupt_of_failed
    (accepted : emulator.machine.acceptsInterrupt (level &&& 7) = true)
    {fault : Fault} {left : Machine FlatMemory}
    (run : emulator.machine.interruptEntry level = .error fault left) :
    emulator.interrupt level =
      (false, emulator.withMachine { left with condition := .halted }) := by
  rw [interrupt, Machine.interrupt_eq_entry, if_pos accepted, run]

/-- An interrupt that is taken was accepted and entered. -/
theorem entered_of_interrupt (taken : (emulator.interrupt level).1 = true) :
    emulator.machine.acceptsInterrupt (level &&& 7) = true ∧
      ∃ entered, emulator.machine.interruptEntry level = .ok () entered := by
  rcases emulator.machine.interrupt_cases level with ⟨-, refused⟩ |
    ⟨accepted, ⟨entered, run, -⟩ | ⟨fault, left, -, failed⟩⟩
  · rw [interrupt, refused] at taken
    cases taken
  · exact ⟨accepted, entered, run⟩
  · rw [interrupt, failed] at taken
    cases taken

/-- Whatever is done after an interrupt was taken, those up to its level are
refused until the status word is written. -/
theorem refused_after_interrupt
    (taken : (emulator.interrupt level).1 = true)
    {commands : List HostCommand}
    (leaves : (emulator.interrupt level).2.LeavesStatus commands)
    {next : UInt8} (below : next &&& 7 ≤ level &&& 7)
    (maskable : next &&& 7 ≠ 7) :
    ((emulator.interrupt level).2.afterCommands commands).interrupt next =
      (false, (emulator.interrupt level).2.afterCommands commands) := by
  obtain ⟨accepted, entered, run⟩ := entered_of_interrupt taken
  have left := interrupt_of_entered accepted run
  have valid : (emulator.interrupt level).2.machine.HasValidStatus
      emulator.machine.model := by
    rw [left]
    exact Machine.validStatus_of_interruptEntry run
  have raised : (emulator.interrupt level).2.machine.status.interruptMask =
      level &&& 7 := by
    rw [left]
    rfl
  have mask := interruptMask_le_afterCommands valid leaves
  rw [raised] at mask
  apply interrupt_of_refused
  rintro ⟨-, -, highest | above⟩
  · exact maskable highest
  · exact UInt8.not_le.mpr above (UInt8.le_trans below mask)

/-- An interrupt obeys the mask, whatever its level, in every state whose status
register is in range. -/
theorem interrupt_obeys_mask
    (inRange : emulator.machine.status.InRange) (level : UInt8) :
    emulator.ObeysMask level := by
  have accepts := emulator.machine.acceptsInterrupt_iff level
  constructor
  case taken =>
    constructor
    · intro taken
      obtain ⟨accepted, entered, run⟩ := entered_of_interrupt taken
      obtain ⟨awake, passes⟩ := accepts.mp accepted
      exact ⟨awake, passes, entered, run⟩
    · rintro ⟨awake, passes, entered, run⟩
      rw [interrupt_of_entered (accepts.mpr ⟨awake, passes⟩) run]
  case refused => exact interrupt_of_refused
  case halted =>
    intro awake passes fault left run
    exact interrupt_of_failed (accepts.mpr ⟨awake, passes⟩) run
  case entered =>
    intro taken
    obtain ⟨accepted, entered, run⟩ := entered_of_interrupt taken
    have delivered := Machine.delivered_of_interruptEntry run
    exact ⟨entered, delivered, delivered.condition,
      interrupt_of_entered accepted run⟩
  case stacked => exact inRange.validOn.ofWord_toWord
  case holds =>
    intro taken commands leaves next below maskable
    exact refused_after_interrupt taken leaves below maskable

/-- A stopped supervisor with mask 2, whose vector table is placed so that the
vector of level 4 is at the start of the memory. -/
def awaitingInterrupt : Emulator FlatMemory where
  machine :=
    { model := .mc68010
      condition := .stopped
      status := .ofWord 0x2200
      registers :=
        { address := #v[4, 0, 4, 0, 4, 0, 4, 16]
          pc := 6
          vbr := 0xFFFFFF90 }
      memory :=
        ⟨#[0, 0, 0, 4, 0x4E, 0x71, 0x4E, 0x71, 0, 0, 0, 0, 0, 0, 0, 0]⟩ }

/-- Level 12 counts as level 4.  Its handler holds off another interrupt at that
level after its first instruction. -/
theorem awaitingInterrupt_obeys_mask :
    let taken := awaitingInterrupt.interrupt 12
    let after := taken.2.afterCommands [.call .step]
    awaitingInterrupt.machine.status.InRange ∧ taken.1 = true ∧
      after.interrupt 4 = (false, after) := by
  have inRange : awaitingInterrupt.machine.status.InRange :=
    ⟨by decide, by decide, by decide, by decide⟩
  have obeys := interrupt_obeys_mask inRange 12
  have accepted : (awaitingInterrupt.interrupt 12).1 = true := by
    decide +kernel
  have canStep : (awaitingInterrupt.interrupt 12).2.canStep = true := by
    decide +kernel
  have opcode : (awaitingInterrupt.interrupt 12).2.machine.opcode = 0x4E71 := by
    decide +kernel
  have leaves :
      (awaitingInterrupt.interrupt 12).2.LeavesStatus [.call .step] := by
    refine ⟨rfl, ?_, trivial⟩
    generalize (awaitingInterrupt.interrupt 12).2 = left at canStep opcode
    intro machine executed
    have single : left.executedByCommand (.call .step) = [left.machine] := by
      show left.executedBySteps 1 = _
      rw [executedBySteps, if_pos canStep]
      rfl
    rw [single, List.mem_singleton] at executed
    have decoded : Instruction.decode? machine.opcode = some .nop := by
      rw [executed, opcode]
      decide +kernel
    exact Machine.not_writesStatus_of_decode? decoded rfl
      fun _ same => by cases same
  exact ⟨inRange, accepted,
    obeys.holds accepted [.call .step] leaves 4 (by decide) (by decide)⟩

end Emulator

end M68k

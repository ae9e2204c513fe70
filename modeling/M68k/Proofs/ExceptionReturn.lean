import M68k.Proofs.ExceptionEntry
import M68k.Proofs.StepPhases

/-!
# Returning from exceptions

A handler's machine leads back to the one that was interrupted: the frame on its
stack holds the status word and program counter, its stack pointer is that of
its bank less the frame, and nothing else of the processor has changed.  Such a
return undoes the entry, and returns that are nested undo all of them, the
latest first.
-/

namespace M68k

open Execution

namespace Registers

variable (registers : Registers)

@[simp]
theorem get_withPc (pc : UInt32) (register : Register) :
    { registers with pc }.get register = registers.get register := by
  cases register <;> rfl

@[simp]
theorem banked_withPc (pc : UInt32) (bank : StackBank) :
    { registers with pc }.banked bank = registers.banked bank := by
  cases bank <;> rfl

end Registers

namespace Machine

/-- Two machines show the same processor: the general registers, the three stack
pointers, the status word and the program counter. -/
structure SameProcessor {σ : Type} (left right : Machine σ) : Prop where
  model : left.model = right.model
  general : ∀ register,
    left.registers.get register = right.registers.get register
  stackPointers : ∀ bank,
    left.logicalStackPointer bank = right.logicalStackPointer bank
  status : left.status.toWord = right.status.toWord
  pc : left.registers.pc = right.registers.pc

/-- A handler's machine whose frame leads back to an interrupted machine. -/
structure LeadsBack (frame : ExceptionFrame) (vectorOffset : UInt16)
    (interrupted handler : Machine FlatMemory) : Prop where
  model : handler.model = interrupted.model
  general : ∀ register, register ≠ .stackPointer →
    handler.registers.get register = interrupted.registers.get register
  supervisor : handler.isSupervisor = true
  master : handler.status.master = interrupted.status.master
  untraced : handler.status.trace = false
  fits : handler.StatusFits
  top : handler.registers.stackPointer + frame.size =
    interrupted.logicalStackPointer handler.activeBank
  others : ∀ bank, bank ≠ handler.activeBank →
    handler.logicalStackPointer bank = interrupted.logicalStackPointer bank
  aligned : handler.misaligned handler.registers.stackPointer = false
  framed : handler.memory.run? handler.registers.stackPointer
    frame.size.toNat = some (frame.image vectorOffset
      interrupted.status.toWord interrupted.registers.pc)
  outside : FlatMemory.AgreeOutside handler.registers.stackPointer.toNat
    frame.size.toNat handler.memory interrupted.memory
  even : handler.registers.pc % 2 = 0
  fetched : handler.memory.run? handler.registers.pc 2 =
    some (bytesOfWord handler.opcode)

theorem misaligned_sub_frame {σ : Type} (machine : Machine σ)
    (pointer : UInt32) (frame : ExceptionFrame) :
    machine.misaligned (pointer - frame.size) = machine.misaligned pointer := by
  apply misaligned_congr
  have even : frame.size.toNat % 2 = 0 := by
    cases frame <;> simp [ExceptionFrame.size]
  have bound := frame.size.toNat_lt
  rw [UInt32.toNat_sub]
  omega

/-- A completed entry makes a machine that leads back. -/
theorem leadsBack_of_enterException {frame : ExceptionFrame}
    {vectorOffset : UInt16} {machine entered : Machine FlatMemory}
    (fits : machine.MasterFits)
    (run : enterException frame vectorOffset machine = .ok () entered)
    (unwrapped : entered.registers.stackPointer.toNat + frame.size.toNat ≤
      2 ^ 32) :
    LeadsBack frame vectorOffset machine entered ∧
      entered.condition = machine.condition ∧
      entered.status.interruptMask &&& 7 = entered.status.interruptMask := by
  have pointer := stackPointer_of_enterException run
  rw [pointer] at unwrapped
  obtain ⟨aligned, covered, handler, opcode, even, bytes, rfl⟩ :=
    enterException_flat run unwrapped
  have moved (register : Register) (different : register ≠ .stackPointer) :
      (machine.readyForFrame frame).registers.get register =
        machine.handlerMode.registers.get register :=
    Registers.get_set_of_ne _ _ different
  refine ⟨?_, rfl, StatusRegister.interruptMask_ofWord _⟩
  constructor
  case model => rfl
  case general =>
    intro register different
    exact (Registers.get_withPc _ _ _).trans ((moved register different).trans
      (machine.get_setStatusWord _ different))
  case supervisor => exact machine.isSupervisor_handlerMode
  case master => exact fits.master_handlerMode
  case untraced => exact machine.trace_handlerMode
  case fits => exact machine.statusFits_setStatusWord _
  case top =>
    rw [pointer, Machine.framePointer, UInt32.sub_add_cancel,
      ← machine.masterFits_handlerMode.logicalStackPointer_active]
    exact fits.logicalStackPointer_setStatusWord _ _
  case others =>
    intro bank inactive
    have kept := fits.logicalStackPointer_setStatusWord
      (handlerStatus machine.status.toWord) bank
    rw [← kept, ← handlerMode,
      machine.masterFits_handlerMode.logicalStackPointer_inactive inactive]
    refine (MasterFits.logicalStackPointer_inactive ?_ inactive).trans ?_
    · exact machine.masterFits_handlerMode
    · exact (Registers.banked_withPc _ _ _).trans
        (Registers.banked_setStackPointer _ _ _)
  case aligned =>
    rw [pointer]
    exact (machine.handlerMode.misaligned_sub_frame _ frame).trans aligned
  case framed =>
    rw [pointer, ← frame.length_image vectorOffset machine.status.toWord
      machine.registers.pc]
    exact FlatMemory.run?_overwrite_self _ _ _
      (by rw [ExceptionFrame.length_image]; exact covered)
  case outside =>
    rw [pointer, ← frame.length_image vectorOffset machine.status.toWord
      machine.registers.pc, ← List.length_map (f := some)]
    exact FlatMemory.agreeOutside_overwrite _ _ _
  case even => exact even
  case fetched => exact bytes

/-- Raising the interrupt mask leaves the way back as it is. -/
theorem LeadsBack.withInterruptMask {frame : ExceptionFrame}
    {vectorOffset : UInt16} {interrupted handler : Machine FlatMemory}
    (leads : LeadsBack frame vectorOffset interrupted handler)
    (masked : handler.status.interruptMask &&& 7 =
      handler.status.interruptMask) (level : UInt8) :
    LeadsBack frame vectorOffset interrupted
      (handler.withInterruptMask (level &&& 7)) := by
  have supervisor := supervisor_withInterruptMask level masked
  have master := master_withInterruptMask level masked
  have bank := activeBank_withInterruptMask level masked
  exact
    { leads with
      model := leads.model
      supervisor := supervisor.trans leads.supervisor
      master := master.trans leads.master
      untraced := (trace_withInterruptMask level masked).trans leads.untraced
      fits := leads.fits.withInterruptMask level masked
      top := by rw [bank]; exact leads.top
      others := fun other inactive => by
        rw [bank] at inactive
        rw [logicalStackPointer_withInterruptMask level masked]
        exact leads.others other inactive }

end Machine

/-! ## One return -/

namespace ExceptionFrame

/-- The size of a frame is found again from its format word. -/
theorem frameSize?_format (frame : ExceptionFrame) {vectorOffset : UInt16}
    (small : vectorOffset < 0x1000) :
    frameSize? (((frame.format <<< 12) ||| vectorOffset) >>> 12) =
      some frame.size := by
  have offset : vectorOffset >>> 12 = 0 := by
    apply UInt16.toNat_inj.1
    have bound : vectorOffset.toNat < 4096 := small
    simp [UInt16.toNat_shiftRight, Nat.shiftRight_eq_div_pow]
    omega
  rw [UInt16.shiftRight_or, offset, UInt16.or_zero]
  cases frame with
  | short => rfl
  | sixWord instruction =>
      show frameSize? ((2 : UInt16) <<< 12 >>> 12) = some 12
      decide

end ExceptionFrame

namespace Machine

/-- The machine after a return to an address with a status word, over a frame of
a given size. -/
def returned {σ : Type} (machine : Machine σ) (size address : UInt32)
    (status : UInt16) : Machine σ :=
  setStatusWord
    ({ machine with
        registers := machine.registers.setStackPointer
          (machine.registers.stackPointer + size) }.withPc address) status

end Machine

/-- A return takes the frame that an entry has left. -/
theorem Execution.rte_flat {machine : Machine FlatMemory}
    {frame : ExceptionFrame} {vectorOffset status : UInt16} {address : UInt32}
    (small : vectorOffset < 0x1000)
    (aligned :
      machine.misaligned machine.registers.stackPointer = false)
    (unwrapped : machine.registers.stackPointer.toNat + frame.size.toNat ≤
      2 ^ 32)
    (framed : machine.memory.run? machine.registers.stackPointer
      frame.size.toNat = some (frame.image vectorOffset status address)) :
    rte machine = .ok () (machine.returned frame.size address status) := by
  have eight := frame.eight_le_size
  have formatBytes :
      machine.memory.run? (machine.registers.stackPointer + 6) 2 =
        some (bytesOfWord ((frame.format <<< 12) ||| vectorOffset)) := by
    rw [FlatMemory.run?_part framed 6 eight (by simp; omega)]
    cases frame <;> rfl
  have statusBytes : machine.memory.run? machine.registers.stackPointer 2 =
      some (bytesOfWord status) := by
    have early : (0 : UInt32).toNat + 2 ≤ frame.size.toNat := by
      simp
      omega
    have part := FlatMemory.run?_part framed 0 early (by simp; omega)
    rw [UInt32.add_zero] at part
    rw [part]
    cases frame <;> rfl
  have addressBytes :
      machine.memory.run? (machine.registers.stackPointer + 2) 4 =
        some (bytesOfLong address) := by
    rw [FlatMemory.run?_part framed 2 (by simp; omega) (by simp; omega)]
    cases frame <;> rfl
  have six := machine.misaligned_add_even machine.registers.stackPointer
    (show (6 : UInt32).toNat % 2 = 0 from rfl)
  have two := machine.misaligned_add_even machine.registers.stackPointer
    (show (2 : UInt32).toNat % 2 = 0 from rfl)
  have inUse : machine.registers.get .stackPointer =
      machine.registers.stackPointer := rfl
  simp only [rte, register, observe, bind_apply, inUse,
    readData_word_flat (six.trans aligned) formatBytes]
  rw [UInt16.toUInt16_toUInt32, frame.frameSize?_format small]
  simp only [bind_apply, readData_word_flat aligned statusBytes,
    readData_long_flat (two.trans aligned) addressBytes, setRegister, setPc,
    setStatusWord, update, UInt16.toUInt16_toUInt32]
  rfl

namespace Machine

namespace SameProcessor

variable {σ : Type} {left right : Machine σ}

theorem stackPointer (same : SameProcessor left right) :
    left.registers.stackPointer = right.registers.stackPointer :=
  same.general .stackPointer

theorem isSupervisor (same : SameProcessor left right) :
    left.isSupervisor = right.isSupervisor := by
  rw [Machine.isSupervisor, Machine.isSupervisor, StatusRegister.supervisor,
    StatusRegister.supervisor, same.status]

theorem trace (same : SameProcessor left right) :
    left.status.trace = right.status.trace := by
  rw [StatusRegister.trace, StatusRegister.trace, same.status]

theorem master (same : SameProcessor left right) :
    left.status.master = right.status.master := by
  rw [StatusRegister.master, StatusRegister.master, same.status]

theorem activeBank (same : SameProcessor left right) :
    left.activeBank = right.activeBank := by
  rw [Machine.activeBank, Machine.activeBank, same.isSupervisor, same.master,
    same.model]

theorem masterFits (same : SameProcessor left right)
    (fits : right.MasterFits) : left.MasterFits := by
  rw [MasterFits, same.master, same.model]
  exact fits

end SameProcessor

/-- A return from a machine that leads back gives the interrupted processor. -/
theorem LeadsBack.returned {frame : ExceptionFrame} {vectorOffset : UInt16}
    {interrupted handler current : Machine FlatMemory}
    (leads : LeadsBack frame vectorOffset interrupted handler)
    (fits : interrupted.StatusFits) (same : SameProcessor current handler) :
    SameProcessor
      (current.returned frame.size interrupted.registers.pc
        interrupted.status.toWord) interrupted := by
  have model : current.model = interrupted.model :=
    same.model.trans leads.model
  have word : (current.returned frame.size interrupted.registers.pc
      interrupted.status.toWord).status.toWord = interrupted.status.toWord := by
    rw [Machine.returned, toWord_setStatusWord]
    show interrupted.status.toWord &&& current.model.statusMask = _
    rw [model]
    exact fits
  have currentFits := same.masterFits leads.fits.masterFits
  have logical (bank : StackBank) :
      (current.returned frame.size interrupted.registers.pc
        interrupted.status.toWord).logicalStackPointer bank =
      interrupted.logicalStackPointer bank := by
    have moved := currentFits.logicalStackPointer_setStackPointer
      (current.registers.stackPointer + frame.size) bank
    rw [Machine.returned, MasterFits.logicalStackPointer_setStatusWord]
    · rw [logicalStackPointer_withPc, moved]
      by_cases active : bank = current.activeBank
      · rw [if_pos active, active, same.stackPointer, same.activeBank,
          leads.top]
      · rw [if_neg active, same.stackPointers]
        rw [same.activeBank] at active
        exact leads.others bank active
    · exact currentFits
  have inUse : (current.returned frame.size interrupted.registers.pc
        interrupted.status.toWord).registers.stackPointer =
      interrupted.registers.stackPointer := by
    have returnedFits : (current.returned frame.size interrupted.registers.pc
        interrupted.status.toWord).MasterFits :=
      masterFits_setStatusWord _ _
    have bank : (current.returned frame.size interrupted.registers.pc
        interrupted.status.toWord).activeBank = interrupted.activeBank := by
      simp only [activeBank, isSupervisor, StatusRegister.supervisor,
        StatusRegister.master, word]
      rw [← model]
      rfl
    rw [← returnedFits.logicalStackPointer_active, logical, bank,
      fits.masterFits.logicalStackPointer_active]
  constructor
  case model => exact model
  case general =>
    intro register
    by_cases pointer : register = .stackPointer
    · rw [pointer]
      exact inUse
    · rw [← leads.general register pointer, ← same.general register,
        Machine.returned, get_setStatusWord _ _ pointer]
      exact (Registers.get_withPc _ _ _).trans
        (Registers.get_set_of_ne _ _ pointer)
  case stackPointers => exact logical
  case status => exact word
  case pc => exact pc_setStatusWord _ _

/-- RTE is admitted in supervisor mode on every model. -/
theorem admit_rte (model : Model) :
    Instruction.admit 0x4E73 model true = .ok .rte := by
  cases model <;> rfl

theorem executeOpcode_rte {machine : Machine FlatMemory}
    (supervisor : machine.isSupervisor = true)
    (returns : machine.opcode = 0x4E73) :
    executeOpcode machine = rte machine := by
  have admitted : Instruction.admit machine.opcode machine.model
      machine.isSupervisor = .ok .rte := by
    rw [supervisor, returns]
    exact admit_rte machine.model
  exact executeOpcode_of_admitted admitted

/-- The step of a return restores the interrupted processor, which goes on with
the word at its program counter. -/
theorem LeadsBack.step {frame : ExceptionFrame} {vectorOffset : UInt16}
    {interrupted handler current : Machine FlatMemory} {word : UInt16}
    (leads : LeadsBack frame vectorOffset interrupted handler)
    (small : vectorOffset < 0x1000)
    (unwrapped : handler.registers.stackPointer.toNat + frame.size.toNat ≤
      2 ^ 32)
    (fits : interrupted.StatusFits) (same : SameProcessor current handler)
    (running : current.condition = .running)
    (returns : current.opcode = 0x4E73)
    (framed : current.memory.run? handler.registers.stackPointer
      frame.size.toNat = some (frame.image vectorOffset
        interrupted.status.toWord interrupted.registers.pc))
    (even : interrupted.registers.pc % 2 = 0)
    (mapped : current.memory.run? interrupted.registers.pc 2 =
      some (bytesOfWord word)) :
    SameProcessor current.step interrupted ∧
      current.step.condition = .running ∧ current.step.opcode = word ∧
      current.step.memory = current.memory := by
  have supervisor : current.isSupervisor = true :=
    same.isSupervisor.trans leads.supervisor
  have untraced : current.status.trace = false :=
    same.trace.trans leads.untraced
  have aligned :
      current.misaligned current.registers.stackPointer = false := by
    rw [misaligned, same.stackPointer, same.model]
    exact leads.aligned
  rw [← same.stackPointer] at unwrapped framed
  have executed : executeOpcode
      (current.withPc (current.registers.pc + 2)) = .ok ()
        (current.returned frame.size interrupted.registers.pc
          interrupted.status.toWord) := by
    have begun : (current.withPc (current.registers.pc + 2)).isSupervisor =
        true := supervisor
    rw [executeOpcode_rte begun returns]
    exact rte_flat small aligned unwrapped framed
  have restored := leads.returned fits same
  have fetched : prefetch (current.returned frame.size
        interrupted.registers.pc interrupted.status.toWord) = .ok ()
      { current.returned frame.size interrupted.registers.pc
          interrupted.status.toWord with opcode := word } := by
    refine prefetch_flat.mpr ⟨?_, word, ?_, rfl⟩
    · rw [restored.pc]
      exact even
    · rw [restored.pc]
      exact mapped
  rw [step_of_executeOpcode executed running untraced fetched]
  exact ⟨{ restored with model := restored.model }, running, rfl, rfl⟩

end Machine

end M68k

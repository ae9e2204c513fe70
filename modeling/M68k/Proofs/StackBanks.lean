import M68k.Inspection
import M68k.Proofs.StatusWord

/-!
# The three stack pointers

The stack pointer in use stands for one of three banks, and its copy in that
bank is stale.  A bank's logical stack pointer is the current value wherever it
is.  Writing the status word exchanges values between the stack pointer in use
and the banks, and every logical stack pointer survives the exchange.
-/

namespace M68k

namespace Registers

variable (registers : Registers)

@[simp]
theorem stackPointer_setStackPointer (value : UInt32) :
    (registers.setStackPointer value).stackPointer = value :=
  registers.get_set_self .stackPointer value

@[simp]
theorem get_setBanked (bank : StackBank) (value : UInt32)
    (register : Register) :
    (registers.setBanked bank value).get register = registers.get register := by
  cases bank <;> rfl

@[simp]
theorem pc_setBanked (bank : StackBank) (value : UInt32) :
    (registers.setBanked bank value).pc = registers.pc := by
  cases bank <;> rfl

@[simp]
theorem pc_set (register : Register) (value : UInt32) :
    (registers.set register value).pc = registers.pc := by
  cases register <;> rfl

@[simp]
theorem pc_setStackPointer (value : UInt32) :
    (registers.setStackPointer value).pc = registers.pc :=
  registers.pc_set .stackPointer value

@[simp]
theorem banked_set (register : Register) (value : UInt32)
    (bank : StackBank) :
    (registers.set register value).banked bank = registers.banked bank := by
  cases register <;> cases bank <;> rfl

@[simp]
theorem banked_setStackPointer (value : UInt32) (bank : StackBank) :
    (registers.setStackPointer value).banked bank = registers.banked bank :=
  registers.banked_set .stackPointer value bank

theorem banked_setBanked_of_ne {written other : StackBank}
    (value : UInt32) (different : other ≠ written) :
    (registers.setBanked written value).banked other =
      registers.banked other := by
  cases written <;> cases other <;> first | rfl | exact absurd rfl different

end Registers

namespace Machine

variable {σ : Type} {machine : Machine σ}

/-- The master bit is set only where there is a master stack. -/
def MasterFits (machine : Machine σ) : Prop :=
  machine.status.master = true → machine.model.hasMasterStack = true

theorem StatusFits.masterFits (fits : machine.StatusFits) :
    machine.MasterFits := by
  intro master
  by_contra missing
  have absent : machine.status.toWord &&& StatusBit.master = 0 := by
    rw [← fits, UInt16.and_assoc, Model.statusMask_and_master]
    simp [missing]
  simp [StatusRegister.master, absent] at master

theorem masterFits_setStatusWord (machine : Machine σ) (word : UInt16) :
    (machine.setStatusWord word).MasterFits :=
  (machine.statusFits_setStatusWord word).masterFits

/-- The bank that a debugger takes for the selected one is the bank that the
stack pointer in use stands for. -/
theorem MasterFits.isSelected_iff (fits : machine.MasterFits)
    (bank : StackBank) :
    bank.isSelected machine.status = true ↔ bank = machine.activeBank := by
  unfold MasterFits at fits
  cases supervisor : machine.status.supervisor <;>
    cases master : machine.status.master <;> cases bank <;>
      simp_all [StackBank.isSelected, activeBank, isSupervisor]

theorem MasterFits.logicalStackPointer_active (fits : machine.MasterFits) :
    machine.logicalStackPointer machine.activeBank =
      machine.registers.stackPointer := by
  rw [logicalStackPointer, if_pos ((fits.isSelected_iff _).mpr rfl)]

theorem MasterFits.logicalStackPointer_inactive (fits : machine.MasterFits)
    {bank : StackBank} (inactive : bank ≠ machine.activeBank) :
    machine.logicalStackPointer bank = machine.registers.banked bank := by
  rw [logicalStackPointer,
    if_neg (fun selected => inactive ((fits.isSelected_iff bank).mp selected))]

/-- Writing the stack pointer in use is writing that of the active bank. -/
theorem MasterFits.logicalStackPointer_setStackPointer
    (fits : machine.MasterFits) (value : UInt32) (bank : StackBank) :
    logicalStackPointer
        { machine with registers := machine.registers.setStackPointer value }
        bank =
      if bank = machine.activeBank then value
      else machine.logicalStackPointer bank := by
  have selected := fits.isSelected_iff bank
  by_cases active : bank = machine.activeBank
  · rw [logicalStackPointer, if_pos (selected.mpr active), if_pos active]
    exact machine.registers.stackPointer_setStackPointer value
  · rw [logicalStackPointer, if_neg (active ∘ selected.mp), if_neg active,
      fits.logicalStackPointer_inactive active]
    exact machine.registers.banked_setStackPointer value bank

/-- Saving the stack pointer in use makes every banked copy current. -/
theorem MasterFits.banked_saveStackPointer (fits : machine.MasterFits)
    (bank : StackBank) :
    machine.saveStackPointer.registers.banked bank =
      machine.logicalStackPointer bank := by
  by_cases active : bank = machine.activeBank
  · rw [active, fits.logicalStackPointer_active]
    exact Registers.banked_setBanked_self _ _ _
  · rw [fits.logicalStackPointer_inactive active]
    exact Registers.banked_setBanked_of_ne _ _ active

theorem banked_setStatusWord (machine : Machine σ) (word : UInt16)
    (bank : StackBank) :
    (machine.setStatusWord word).registers.banked bank =
      machine.saveStackPointer.registers.banked bank :=
  Registers.banked_setStackPointer _ _ _

theorem stackPointer_setStatusWord (machine : Machine σ) (word : UInt16) :
    (machine.setStatusWord word).registers.stackPointer =
      machine.saveStackPointer.registers.banked
        (machine.setStatusWord word).activeBank :=
  Registers.stackPointer_setStackPointer _ _

@[simp]
theorem pc_setStatusWord (machine : Machine σ) (word : UInt16) :
    (machine.setStatusWord word).registers.pc = machine.registers.pc := by
  simp [setStatusWord, loadStackPointer, saveStackPointer]

/-- Writing the status word changes no general register but the stack pointer in
use. -/
theorem get_setStatusWord (machine : Machine σ) (word : UInt16)
    {register : Register} (different : register ≠ .stackPointer) :
    (machine.setStatusWord word).registers.get register =
      machine.registers.get register := by
  simp only [setStatusWord, loadStackPointer, Registers.setStackPointer]
  rw [Registers.get_set_of_ne _ _ different]
  exact Registers.get_setBanked _ _ _ _

theorem logicalStackPointer_withPc (machine : Machine σ)
    (pc : UInt32) (bank : StackBank) :
    (machine.withPc pc).logicalStackPointer bank =
      machine.logicalStackPointer bank := by
  cases bank <;> rfl

/-- Writing the status word keeps every logical stack pointer. -/
theorem MasterFits.logicalStackPointer_setStatusWord
    (fits : machine.MasterFits) (word : UInt16) (bank : StackBank) :
    (machine.setStatusWord word).logicalStackPointer bank =
      machine.logicalStackPointer bank := by
  have written := machine.masterFits_setStatusWord word
  by_cases active : bank = (machine.setStatusWord word).activeBank
  · rw [active, written.logicalStackPointer_active,
      stackPointer_setStatusWord, fits.banked_saveStackPointer]
  · rw [written.logicalStackPointer_inactive active,
      banked_setStatusWord, fits.banked_saveStackPointer]

/-- Any number of status words keeps the logical stack pointers. -/
theorem MasterFits.foldl_setStatusWord (fits : machine.MasterFits)
    (words : List UInt16) :
    (words.foldl setStatusWord machine).MasterFits ∧
      ∀ bank, (words.foldl setStatusWord machine).logicalStackPointer bank =
        machine.logicalStackPointer bank := by
  induction words generalizing machine with
  | nil => exact ⟨fits, fun _ => rfl⟩
  | cons word rest induction =>
      obtain ⟨finalFits, kept⟩ :=
        induction (machine.masterFits_setStatusWord word)
      exact ⟨finalFits, fun bank => (kept bank).trans
        (fits.logicalStackPointer_setStatusWord word bank)⟩

/-! ## The interrupt mask -/

section

variable (level : UInt8)
    (masked : machine.status.interruptMask &&& 7 = machine.status.interruptMask)

include masked

theorem activeBank_withInterruptMask :
    (machine.withInterruptMask (level &&& 7)).activeBank =
      machine.activeBank := by
  rw [activeBank, activeBank, isSupervisor, isSupervisor,
    supervisor_withInterruptMask level masked,
    master_withInterruptMask level masked]
  rfl

theorem logicalStackPointer_withInterruptMask (bank : StackBank) :
    (machine.withInterruptMask (level &&& 7)).logicalStackPointer bank =
      machine.logicalStackPointer bank := by
  have supervisor := supervisor_withInterruptMask level masked
  have master := master_withInterruptMask level masked
  cases bank <;>
    simp only [logicalStackPointer, StackBank.isSelected, supervisor,
      master] <;> rfl

theorem masterFits_withInterruptMask (fits : machine.MasterFits) :
    (machine.withInterruptMask (level &&& 7)).MasterFits := by
  rw [MasterFits, master_withInterruptMask level masked]
  exact fits

end

end Machine

end M68k

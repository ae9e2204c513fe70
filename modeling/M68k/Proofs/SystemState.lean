import M68k.Proofs.ExceptionEntry
import M68k.Proofs.Invariant

/-!
# The system state

The part of a machine that ordinary instructions leave alone: the control
registers with the saved stack pointers, the system half of the status word, the
run condition, the model and the breakpoint handler.  An exception entry changes
it as the change to the handler's mode does, and not otherwise.
-/

namespace M68k

namespace Registers

variable (registers : Registers)

@[simp]
theorem control_set (register : Register) (value : UInt32)
    (control : ControlRegister) :
    (registers.set register value).control control =
      registers.control control := by
  cases register <;> cases control <;> rfl

@[simp]
theorem control_withPc (pc : UInt32) (control : ControlRegister) :
    { registers with pc }.control control = registers.control control := by
  cases control <;> rfl

end Registers

/-- The control register that holds the saved copy of a stack pointer. -/
def StackBank.control : StackBank → ControlRegister
  | user => .usp
  | interrupt => .isp
  | master => .msp

theorem Registers.banked_eq_control (registers : Registers)
    (bank : StackBank) :
    registers.banked bank = registers.control bank.control := by
  cases bank <;> rfl

theorem Registers.control_setControl_of_ne (registers : Registers)
    {written other : ControlRegister} (value : UInt32)
    (different : other ≠ written) :
    (registers.setControl written value).control other =
      registers.control other := by
  cases written <;> cases other <;> first | rfl | exact absurd rfl different

namespace Machine

variable {σ : Type}

/-- Two machines have the same system state. -/
structure SameSystem (left right : Machine σ) : Prop where
  model : left.model = right.model
  condition : left.condition = right.condition
  handler : left.handler = right.handler
  mode : left.status.mode = right.status.mode
  interruptMask : left.status.interruptMask = right.status.interruptMask
  control : ∀ register,
    left.registers.control register = right.registers.control register

namespace SameSystem

variable {left middle right : Machine σ}

theorem refl (machine : Machine σ) : machine.SameSystem machine :=
  ⟨rfl, rfl, rfl, rfl, rfl, fun _ => rfl⟩

theorem status (same : left.SameSystem right) :
    left.status = { right.status with codes := left.status.codes } := by
  show left.status =
    ⟨right.status.mode, right.status.interruptMask, left.status.codes⟩
  rw [← same.mode, ← same.interruptMask]

theorem supervisor (same : left.SameSystem right) :
    left.status.supervisor = right.status.supervisor := by
  rw [same.status, StatusRegister.supervisor_withCodes]

theorem master (same : left.SameSystem right) :
    left.status.master = right.status.master := by
  rw [same.status, StatusRegister.master_withCodes]

theorem activeBank (same : left.SameSystem right) :
    left.activeBank = right.activeBank := by
  rw [Machine.activeBank, Machine.activeBank, isSupervisor, isSupervisor,
    same.supervisor, same.master, same.model]

theorem banked (same : left.SameSystem right) (bank : StackBank) :
    left.registers.banked bank = right.registers.banked bank := by
  rw [Registers.banked_eq_control, Registers.banked_eq_control,
    same.control]

theorem masterFits (same : left.SameSystem right) (fits : right.MasterFits) :
    left.MasterFits := by
  rw [MasterFits, same.master, same.model]
  exact fits

/-- Only the stack pointer in use can differ. -/
theorem logicalStackPointer (same : left.SameSystem right)
    (fits : right.MasterFits) {bank : StackBank}
    (inactive : bank ≠ right.activeBank) :
    left.logicalStackPointer bank = right.logicalStackPointer bank := by
  rw [fits.logicalStackPointer_inactive inactive, ← same.banked]
  rw [← same.activeBank] at inactive
  exact (same.masterFits fits).logicalStackPointer_inactive inactive

theorem onlyMemory (same : middle.SameSystem right)
    (only : OnlyMemory middle left) : left.SameSystem right := by
  obtain ⟨memory, rfl⟩ := only
  exact { same with model := same.model }

end SameSystem

/-- Ordinary instructions keep the system state. -/
theorem sameSystem_invariant [Memory σ] (start : Machine σ) :
    Invariant (SameSystem · start) where
  writeGeneral same register value :=
    ⟨same.model, same.condition, same.handler, same.mode, same.interruptMask,
      fun control => by rw [Registers.control_set, same.control]⟩
  writeCounter same address :=
    ⟨same.model, same.condition, same.handler, same.mode, same.interruptMask,
      fun control => by
        rw [withPc, Registers.control_withPc, same.control]⟩
  writeCodes same codes _ :=
    ⟨same.model, same.condition, same.handler, same.mode, same.interruptMask,
      same.control⟩
  access same space access _ _ :=
    ⟨same.model, same.condition, same.handler, same.mode, same.interruptMask,
      same.control⟩

theorem sameSystem_readyForFrame (machine : Machine σ)
    (frame : ExceptionFrame) :
    (machine.readyForFrame frame).SameSystem machine.handlerMode :=
  ⟨rfl, rfl, rfl, rfl, rfl, fun _ => Registers.control_set _ _ _ _⟩

/-- The end of an entry, from the reading of its vector on. -/
private theorem ends_readVector [Memory σ] {framed start : Machine σ}
    (same : framed.SameSystem start) (entryAddress : UInt32) :
    Ends (SameSystem · start)
      (match Execution.onBus (Memory.readLong entryAddress .supervisorData)
          framed with
        | .ok entry read => Execution.prefetch (read.withPc entry)
        | .error fault read =>
            (.error fault read : EStateM.Result Fault (Machine σ) Unit)) := by
  have ends := (ends_onBus (Memory.readLong entryAddress .supervisorData)
    framed).mono fun left kept =>
      show left.SameSystem start from kept ▸ { same with model := same.model }
  cases reading : Execution.onBus
      (Memory.readLong entryAddress .supervisorData) framed with
  | error fault read =>
      rw [reading] at ends
      exact ends
  | ok entry read =>
      rw [reading] at ends
      have invariant := sameSystem_invariant start
      exact invariant.ends_prefetch
        (fun _ kept _ => { kept with model := kept.model })
        (invariant.writeCounter ends entry)

/-- Wherever an entry ends, the system state is that of the handler's mode. -/
theorem ends_enterException [Memory σ] (frame : ExceptionFrame)
    (vectorOffset : UInt16) (machine : Machine σ) :
    Ends (SameSystem · machine.handlerMode)
      (Execution.enterException frame vectorOffset machine) := by
  obtain ⟨written, memory, framing⟩ := Execution.writeFrame_apply frame
    vectorOffset machine.status.toWord (machine.framePointer frame)
    (machine.readyForFrame frame)
  have framed : SameSystem { machine.readyForFrame frame with memory }
      machine.handlerMode :=
    { machine.sameSystem_readyForFrame frame with model := rfl }
  rw [Execution.enterException_apply, framing]
  split
  · exact .refl _
  · cases written with
    | false => exact framed
    | true =>
        simp only [if_true]
        split
        · exact framed
        · exact ends_readVector framed _

end Machine

end M68k

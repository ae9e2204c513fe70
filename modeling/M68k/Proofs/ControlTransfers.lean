import M68k.Proofs.RegisterLists
import M68k.Proofs.StackPointerBanking

/-!
# Moves to and from control registers

A value moved to a control register comes back when that register is moved to a
general register.  The stack pointer in use is saved before the control register
is written or read, and loaded again after it is written.  So the three stack
pointers can be named like other control registers: the one that is in use is
itself written, and the others are kept.
-/

namespace M68k

/-! ## Extension words -/

/-- The extension word that names a general and a control register. -/
def Instruction.controlWord (general : Register) (id : UInt16) : UInt16 :=
  (UInt16.ofNat general.index <<< 12) ||| id

section

variable (general : Register) {id : UInt16} (small : id.toNat < 4096)

include small

theorem Instruction.toNat_controlWord :
    (controlWord general id).toNat = 4096 * general.index + id.toNat := by
  have bound := general.index_lt
  have high : (UInt16.ofNat general.index <<< 12).toNat =
      general.index <<< 12 := by
    rw [UInt16.toNat_shiftLeft,
      UInt16.toNat_ofNat_of_lt' (by simp only [UInt16.size]; omega)]
    show general.index <<< 12 % 2 ^ 16 = _
    rw [Nat.shiftLeft_eq]
    omega
  rw [controlWord, UInt16.toNat_or, high,
    ← Nat.shiftLeft_add_eq_or_of_lt (i := 12) (by simpa using small),
    Nat.shiftLeft_eq]
  omega

theorem Instruction.ofIndex_controlWord :
    Register.ofIndex (controlWord general id >>> 12).toNat = general := by
  have index : (controlWord general id >>> 12).toNat = general.index := by
    rw [UInt16.toNat_shiftRight, toNat_controlWord general small]
    show _ >>> 12 = _
    rw [Nat.shiftRight_eq_div_pow]
    omega
  rw [index, Register.ofIndex_index]

theorem Instruction.controlWord_and :
    controlWord general id &&& 0xFFF = id := by
  apply UInt16.toNat_inj.1
  rw [UInt16.toNat_and, toNat_controlWord general small]
  show _ &&& (2 ^ 12 - 1) = _
  rw [Nat.and_two_pow_sub_one_eq_mod]
  omega

end

/-! ## Control registers of a register file -/

namespace Registers

variable (registers : Registers)

@[simp]
theorem pc_setControl (control : ControlRegister) (value : UInt32) :
    (registers.setControl control value).pc = registers.pc := by
  cases control <;> rfl

end Registers

namespace Machine

variable {σ : Type} (machine : Machine σ)

/-! ## What the two moves leave -/

/-- The machine after a move to a control register. -/
def storeControl (control : ControlRegister) (value : UInt32) : Machine σ :=
  loadStackPointer
    { machine.saveStackPointer with
      registers := machine.saveStackPointer.registers.setControl control value }

/-- The machine after a move of a control register to a general register. -/
def loadControl (general : Register) (control : ControlRegister) :
    Machine σ :=
  { machine.saveStackPointer with
    registers := machine.saveStackPointer.registers.set general
      (machine.saveStackPointer.registers.control control) }

section

variable (control : ControlRegister) (value : UInt32)

variable {control}

variable (control)

end

section

variable (general : Register) (control : ControlRegister)

variable {general}

variable (general) {control}

end

/-! ## To a control register and back -/

variable [Memory σ]

/-- A supervisor on a model with MOVEC has passed an opcode, and the extension
word for a general and a control register comes next. -/
structure NamesControl (general : Register) (id : UInt16) : Prop where
  present : .mc68010 ≤ machine.model
  supervisor : machine.isSupervisor = true
  small : id.toNat < 4096
  even : machine.registers.pc % 2 = 0
  word : Memory.fetchWord machine.registers.pc .supervisorProgram
    machine.memory = .ok (Instruction.controlWord general id) machine.memory

variable {machine} {general : Register} {id : UInt16}

namespace NamesControl

variable (names : machine.NamesControl general id)

include names

theorem admitted {instruction : Instruction}
    (decoded : Instruction.decode? machine.opcode = some instruction)
    (since : instruction.since = .mc68010) :
    Instruction.admit machine.opcode machine.model machine.isSupervisor =
      .ok instruction := by
  have present : ¬machine.model < instruction.since := by
    rw [since]
    exact Nat.not_lt_of_le names.present
  unfold Instruction.admit
  simp only [decoded, present, if_false, names.supervisor, Bool.not_true,
    Bool.false_and, Bool.false_eq_true]

theorem fetchWord :
    Execution.fetchWord machine =
      .ok (Instruction.controlWord general id)
        (machine.withPc (machine.registers.pc + 2)) := by
  have space : machine.programSpace = .supervisorProgram := by
    rw [programSpace, names.supervisor]
    rfl
  exact Execution.fetchWord_of_granted names.even (space ▸ names.word)

theorem fetchControl :
    Execution.fetchControl machine =
      match ControlRegister.forModel? id machine.model with
      | some control =>
          .ok (general, control) (machine.withPc (machine.registers.pc + 2))
      | none =>
          .error .illegalInstruction
            (machine.withPc (machine.registers.pc + 2 - 4)) := by
  simp only [Execution.fetchControl, Execution.bind_apply, names.fetchWord,
    Execution.controlFor?, Execution.observe,
    Instruction.controlWord_and general names.small,
    Instruction.ofIndex_controlWord general names.small]
  cases found : ControlRegister.forModel? id machine.model with
  | none =>
      simp only [Machine.withPc, found, Execution.pc, Execution.observe,
        Execution.setPc, Execution.update, Execution.bind_apply,
        Execution.throw_apply]
  | some control => simp only [Machine.withPc, found, Execution.pure_apply]

/-- MOVEC to a control register. -/
theorem executeOpcode_store (opcode : machine.opcode = 0x4E7B)
    {control : ControlRegister}
    (found : ControlRegister.forModel? id machine.model = some control) :
    Execution.executeOpcode machine =
      .ok ()
        ((machine.withPc (machine.registers.pc + 2)).storeControl control
          (Execution.controlValue control
            (machine.registers.get general))) := by
  have decoded : Instruction.decode? machine.opcode = some .movecStore := by
    rw [opcode]
    decide +kernel
  rw [Execution.executeOpcode_of_admitted (names.admitted decoded rfl)]
  show Execution.movecStore machine = _
  simp only [Execution.movecStore, Execution.bind_apply, names.fetchControl,
    found]
  rfl

/-- MOVEC from a control register. -/
theorem executeOpcode_load (opcode : machine.opcode = 0x4E7A)
    {control : ControlRegister}
    (found : ControlRegister.forModel? id machine.model = some control) :
    Execution.executeOpcode machine =
      .ok ()
        ((machine.withPc (machine.registers.pc + 2)).loadControl general
          control) := by
  have decoded : Instruction.decode? machine.opcode = some .movecLoad := by
    rw [opcode]
    decide +kernel
  rw [Execution.executeOpcode_of_admitted (names.admitted decoded rfl)]
  show Execution.movecLoad machine = _
  simp only [Execution.movecLoad, Execution.bind_apply, names.fetchControl,
    found]
  rfl

end NamesControl

/-- MOVEC from a control register as the next instruction. -/
theorem NamesControl.executeNext_load {control : ControlRegister}
    (names : (machine.withPc (machine.registers.pc + 2)).NamesControl general
      id)
    (even : machine.registers.pc % 2 = 0)
    (opcode : Memory.fetchWord machine.registers.pc .supervisorProgram
      machine.memory = .ok 0x4E7A machine.memory)
    (found : ControlRegister.forModel? id machine.model = some control) :
    Execution.executeNext machine =
      .ok ()
        (({ machine with opcode := 0x4E7A }.withPc
          (machine.registers.pc + 4)).loadControl general control) := by
  have space : machine.programSpace = .supervisorProgram := by
    rw [programSpace, show machine.isSupervisor = true from names.supervisor]
    rfl
  have prefetched : Execution.prefetch machine =
      .ok () { machine with opcode := 0x4E7A } := by
    rw [Execution.prefetch_apply, if_neg (not_not.mpr even), space, opcode]
  have reached : ({ machine with opcode := 0x4E7A }.withPc
      (machine.registers.pc + 2)).NamesControl general id :=
    { names with present := names.present }
  have passed : machine.registers.pc + 2 + 2 = machine.registers.pc + 4 :=
    UInt32.add_assoc _ 2 2
  rw [Execution.executeNext_apply prefetched]
  refine (reached.executeOpcode_load rfl found).trans ?_
  rw [← passed]
  rfl

end Machine

end M68k

import M68k.Proofs.MemoryBanks
import M68k.Proofs.UserConfinement

/-!
# Non-interference with user mode

Two machines in user mode that differ only in what belongs to the supervisor
execute an instruction alike: with the same result or the same fault, and into
machines that again differ only there.  The supervisor's part is all of the
memory but the banks of the two user spaces, the saved stack pointers, and the
other control registers.
-/

namespace M68k

namespace Machine

variable {σ : Type}

/-- Two machines in user mode that show the same to a user. -/
structure UserAlike (layout : BankLayout σ) (left right : Machine σ) :
    Prop where
  user : left.isSupervisor = false
  model : left.model = right.model
  status : left.status = right.status
  pc : left.registers.pc = right.registers.pc
  opcode : left.opcode = right.opcode
  general : ∀ register,
    left.registers.get register = right.registers.get register
  data : layout.Alike .userData left.memory right.memory
  program : layout.Alike .userProgram left.memory right.memory
  leftDetached : left.handler = none
  rightDetached : right.handler = none

namespace UserAlike

variable {layout : BankLayout σ} {left right : Machine σ}

theorem writeGeneral (alike : UserAlike layout left right)
    (register : Register) (value : UInt32) :
    UserAlike layout
      { left with registers := left.registers.set register value }
      { right with registers := right.registers.set register value } where
  user := alike.user
  model := alike.model
  status := alike.status
  pc := by
    rw [Registers.pc_set, Registers.pc_set]
    exact alike.pc
  opcode := alike.opcode
  general other := by
    by_cases same : other = register
    · rw [same, Registers.get_set_self, Registers.get_set_self]
    · rw [Registers.get_set_of_ne _ _ same, Registers.get_set_of_ne _ _ same]
      exact alike.general other
  data := alike.data
  program := alike.program
  leftDetached := alike.leftDetached
  rightDetached := alike.rightDetached

theorem writeCounter (alike : UserAlike layout left right)
    (address : UInt32) :
    UserAlike layout (left.withPc address) (right.withPc address) :=
  { alike with
    pc := rfl
    general := fun register => by
      cases register with
      | data number => exact alike.general (.data number)
      | address number => exact alike.general (.address number) }

theorem writeCodes (alike : UserAlike layout left right)
    (codes : ConditionCodes) :
    UserAlike layout (left.setConditionCodes codes)
      (right.setConditionCodes codes) :=
  { alike with
    user := by
      rw [isSupervisor, setConditionCodes,
        StatusRegister.supervisor_withCodes]
      exact alike.user
    status := by
      rw [setConditionCodes, setConditionCodes, alike.status] }

theorem writeOpcode (alike : UserAlike layout left right)
    (opcode : UInt16) :
    UserAlike layout { left with opcode } { right with opcode } :=
  { alike with opcode := rfl }

/-- An access in a user space shows both machines the same, and touches no other
bank. -/
theorem agree_access {α : Type} (alike : UserAlike layout left right)
    {space : FunctionCode} {transaction : Bus σ α}
    (isLocal : layout.IsLocal space transaction)
    (inUserSpace : space = .userData ∨ space = .userProgram) :
    Agree (UserAlike layout) (Execution.onBus transaction left)
      (Execution.onBus transaction right) := by
  have accessed : layout.Alike space left.memory right.memory := by
    rcases inUserSpace with rfl | rfl
    · exact alike.data
    · exact alike.program
  exact .onBus (isLocal.answer _ _ accessed)
    { alike with
      data := isLocal.alike_other accessed alike.data
      program := isLocal.alike_other accessed alike.program }

/-- The spaces of ordinary accesses in user mode. -/
theorem inUserSpace {machine : Machine σ}
    (user : machine.isSupervisor = false) {space : FunctionCode}
    {access : Access} (inMode : access.InMode machine space) :
    space = .userData ∨ space = .userProgram := by
  have data : machine.dataSpace = .userData := by
    rw [dataSpace, user]
    rfl
  have program : machine.programSpace = .userProgram := by
    rw [programSpace, user]
    rfl
  cases access with
  | readByte address | readWord address | readLong address =>
      rcases inMode with inData | inProgram
      · exact .inl (inData.trans data)
      · exact .inr (inProgram.trans program)
  | fetchWord address => exact .inr (inMode.trans program)
  | _ => exact .inl (inMode.trans data)

/-- A breakpoint without a handler only goes back to its own address. -/
theorem bkpt (alike : UserAlike layout left right) (vector : Fin 8) :
    Matched (UserAlike layout) (Execution.bkpt vector left)
      (Execution.bkpt vector right) := by
  rw [Execution.bkpt_detached alike.leftDetached,
    Execution.bkpt_detached alike.rightDetached, alike.pc]
  apply Matched.error
  exact (alike.writeCounter _).writeOpcode _

end UserAlike

variable [Memory σ]

theorem userAlike_coupling (banking : Banking σ) :
    Coupling (UserAlike banking.toBankLayout) where
  general alike := alike.general
  counter alike := alike.pc
  status alike := alike.status
  alignment alike := by rw [alike.model]
  extensions alike := by rw [alike.model]
  branches alike := by rw [alike.model]
  finalPointer alike := by rw [alike.model]
  writeGeneral alike := alike.writeGeneral
  writeCounter alike := alike.writeCounter
  writeCodes alike codes _ := alike.writeCodes codes
  access alike space access _ inMode :=
    alike.agree_access (banking.isLocal space access)
      (UserAlike.inUserSpace alike.user inMode)

/-- What a user sees after an instruction, and whether it faults, does not
depend on what belongs to the supervisor.  The two user spaces may share a
bank. -/
theorem user_noninterference (banking : Banking σ) {left right : Machine σ}
    (alike : UserAlike banking.toBankLayout left right) :
    Matched (UserAlike banking.toBankLayout)
      (Execution.executeOpcode (left.withPc (left.registers.pc + 2)))
      (Execution.executeOpcode (right.withPc (right.registers.pc + 2))) := by
  have begun := alike.writeCounter (left.registers.pc + 2)
  have otherUser : right.isSupervisor = false := by
    rw [isSupervisor, ← alike.status]
    exact alike.user
  rw [← alike.pc]
  apply Matched.executeOpcode begun
  · show Instruction.admit left.opcode left.model left.isSupervisor =
      Instruction.admit right.opcode right.model right.isSupervisor
    rw [alike.opcode, alike.model, alike.user, otherUser]
  · intro instruction admitted
    rcases instruction.bkpt_or_ordinary with ⟨vector, rfl⟩ | ordinary
    · exact begun.bkpt vector
    · have inUserMode : Instruction.admit left.opcode left.model false =
          .ok instruction := by
        rw [← alike.user]
        exact admitted
      have coupled := (userAlike_coupling banking).execute
        (unreserved_of_admitted inUserMode) ordinary
      exact (coupled _ _ begun).matched

/-- A user about to load a word, with two banks for the user's spaces and one
for all others.  What belongs to the supervisor is left open. -/
def userLoading (supervisorBank : Array UInt8) (isp vbr : UInt32) :
    Machine BankedMemory where
  model := .mc68010
  condition := .running
  status := .ofWord 0
  opcode := 0x3028
  registers := { isp, vbr }
  memory :=
    { banks := #[supervisorBank, #[0x12, 0x34, 0x56, 0x78],
        #[0x30, 0x28, 0x00, 0x02]]
      bankOf := #v[some 0, some 1, some 2, some 0, some 0, some 0, some 0,
        some 0]
      base := 0
      readOnly := [] }

theorem userLoading_noninterference :
    UserAlike BankedMemory.layout (userLoading #[] 0 0)
        (userLoading #[0xFF] 0x1000 0x400) ∧
      (userLoading #[] 0 0).memory ≠
        (userLoading #[0xFF] 0x1000 0x400).memory ∧
      Matched (UserAlike BankedMemory.layout)
        (Execution.executeOpcode ((userLoading #[] 0 0).withPc 2))
        (Execution.executeOpcode
          ((userLoading #[0xFF] 0x1000 0x400).withPc 2)) := by
  have alike : UserAlike BankedMemory.layout (userLoading #[] 0 0)
      (userLoading #[0xFF] 0x1000 0x400) := by
    constructor
    · decide
    · rfl
    · rfl
    · rfl
    · rfl
    · intro register
      rfl
    · constructor <;> rfl
    · constructor <;> rfl
    · rfl
    · rfl
  constructor
  · exact alike
  · constructor
    · decide
    · exact user_noninterference BankedMemory.banking alike

end Machine

end M68k

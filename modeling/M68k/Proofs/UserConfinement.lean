import M68k.Memory.Flat
import M68k.Proofs.HostCalls
import M68k.Proofs.StepCoupling
import M68k.Proofs.SystemState
import M68k.Proofs.WatchedMemory

/-!
# Confinement to user mode

An instruction in user mode asks the memory for user data and user program
words only, and leaves the system state alone.  The only way out is an
exception, whose handler is the one in the vector table.
-/

namespace M68k

/-- An access of user mode. -/
def MemoryRequest.IsUser : MemoryRequest → Prop
  | access space _ => space = .userData ∨ space = .userProgram
  | reset => False

namespace Machine

variable {σ : Type}

/-- A watched machine runs along with one that is not watched, in the system
state of the start, and has asked for nothing but user accesses. -/
structure ConfinedWith (start : Machine (WatchedMemory σ))
    (left : Machine (WatchedMemory σ)) (right : Machine σ) : Prop where
  unwatched : right = left.unwatched
  system : left.SameSystem start
  requests : ∀ request ∈ left.memory.requests, request.IsUser

/-- The spaces of ordinary accesses in user mode. -/
theorem isUser_of_inMode {start left : Machine (WatchedMemory σ)}
    (same : left.SameSystem start) (user : start.isSupervisor = false)
    {space : FunctionCode} {access : Access}
    (inMode : access.InMode left space) :
    (MemoryRequest.access space access).IsUser := by
  have mode : left.isSupervisor = false := same.supervisor.trans user
  have data : left.dataSpace = .userData := by rw [dataSpace, mode]; rfl
  have program : left.programSpace = .userProgram := by
    rw [programSpace, mode]
    rfl
  cases access <;>
    simp only [Access.InMode, data, program] at inMode <;>
    first
    | exact inMode
    | exact .inl inMode
    | exact .inr inMode

/-- In user mode ordinary instructions stay confined. -/
theorem confinedWith_coupling [Memory σ]
    {start : Machine (WatchedMemory σ)}
    (user : start.isSupervisor = false) :
    StepCoupling start.ConfinedWith where
  general := by rintro left _ ⟨rfl, -, -⟩ register; rfl
  counter := by rintro left _ ⟨rfl, -, -⟩; rfl
  status := by rintro left _ ⟨rfl, -, -⟩; rfl
  alignment := by rintro left _ ⟨rfl, -, -⟩; rfl
  extensions := by rintro left _ ⟨rfl, -, -⟩; rfl
  branches := by rintro left _ ⟨rfl, -, -⟩; rfl
  finalPointer := by rintro left _ ⟨rfl, -, -⟩; rfl
  writeGeneral := by
    rintro left _ ⟨rfl, same, users⟩ register value
    exact ⟨rfl, (sameSystem_invariant start).writeGeneral same register value,
      users⟩
  writeCounter := by
    rintro left _ ⟨rfl, same, users⟩ address
    exact ⟨rfl, (sameSystem_invariant start).writeCounter same address, users⟩
  writeCodes := by
    rintro left _ ⟨rfl, same, users⟩ codes inRange
    exact ⟨rfl, (sameSystem_invariant start).writeCodes same codes inRange,
      users⟩
  access := by
    rintro left _ ⟨rfl, same, users⟩ space access aligned inMode
    refine agree_watched fun memory => ⟨rfl, ?_, ?_⟩
    · exact { same with model := same.model }
    · intro request member
      rcases List.mem_cons.mp member with rfl | earlier
      · exact isUser_of_inMode same user inMode
      · exact users request earlier
  condition := by rintro left _ ⟨rfl, -, -⟩; rfl
  writeOpcode := by
    rintro left _ ⟨rfl, same, users⟩ opcode
    exact ⟨rfl, { same with model := same.model }, users⟩

/-- An instruction that user mode admits is not reserved to supervisor mode. -/
theorem unreserved_of_admitted {opcode : UInt16} {model : Model}
    {instruction : Instruction}
    (admitted : Instruction.admit opcode model false = .ok instruction) :
    instruction.privilegedSince? ≠ some .mc68000 := by
  intro reserved
  obtain ⟨-, -, allowed⟩ := Instruction.admit_eq_ok admitted
  rcases allowed with supervisor | allowed
  · cases supervisor
  · have oldest : Model.mc68000 ≤ model := Nat.zero_le _
    rw [Instruction.isPrivilegedOn, reserved] at allowed
    simp [oldest] at allowed

/-- The first phase of a step in user mode, watched. -/
theorem confinedWith_beforeEntry [Memory σ] {machine : Machine σ}
    (user : machine.isSupervisor = false)
    (detached : machine.handler = none) :
    machine.watched.beforeEntry.2 = machine.beforeEntry.2 ∧
      machine.watched.ConfinedWith machine.watched.beforeEntry.1
        machine.beforeEntry.1 := by
  have watchedUser : machine.watched.isSupervisor = false := user
  have coupling := confinedWith_coupling watchedUser
  have related : machine.watched.ConfinedWith machine.watched machine :=
    ⟨rfl, .refl _, by simp [watched, withMemory]⟩
  have begun := coupling.writeCounter related (machine.registers.pc + 2)
  refine coupling.beforeEntry related (Matched.executeOpcode begun rfl ?_)
  intro instruction admitted
  rcases instruction.bkpt_or_ordinary with ⟨vector, rfl⟩ | ordinary
  · have begunDetached :
        (machine.withPc (machine.registers.pc + 2)).handler = none := detached
    exact coupling.bkpt detached begunDetached begun vector
  · have inUserMode : Instruction.admit machine.opcode machine.model false =
        .ok instruction := by
      rw [← user]
      exact admitted
    exact (coupling.execute (unreserved_of_admitted inUserMode) ordinary _ _
      begun).matched

/-- What user mode cannot change: the system half of the status word, the stack
pointers of supervisor mode, and every control register that is not the user
stack pointer. -/
structure SameProtected (left right : Machine σ) : Prop where
  mode : left.status.mode = right.status.mode
  interruptMask : left.status.interruptMask = right.status.interruptMask
  interruptPointer : left.logicalStackPointer .interrupt =
    right.logicalStackPointer .interrupt
  masterPointer : left.logicalStackPointer .master =
    right.logicalStackPointer .master
  control : ∀ register, register ≠ .usp →
    left.registers.control register = right.registers.control register

theorem SameSystem.sameProtected {left right : Machine σ}
    (same : left.SameSystem right) (user : right.isSupervisor = false) :
    left.SameProtected right where
  mode := same.mode
  interruptMask := same.interruptMask
  interruptPointer := by
    have rightUser : right.status.supervisor = false := user
    have leftUser : left.status.supervisor = false :=
      same.supervisor.trans user
    simp only [Machine.logicalStackPointer, StackBank.isSelected, rightUser,
      leftUser]
    exact same.banked .interrupt
  masterPointer := by
    have rightUser : right.status.supervisor = false := user
    have leftUser : left.status.supervisor = false :=
      same.supervisor.trans user
    simp only [Machine.logicalStackPointer, StackBank.isSelected, rightUser,
      leftUser]
    exact same.banked .master
  control register _ := same.control register

/-- A machine that the pending exception of a step has left in supervisor mode,
at the address that the vector table held once the frame had been written. -/
structure EnteredFrom [Memory σ] (start entered : Machine σ) : Prop where
  supervisor : entered.isSupervisor = true
  entry : ∃ pending, start.beforeEntry.2 = some pending ∧
    Execution.enterException pending.frame pending.vectorOffset
        start.beforeEntry.1 = .ok () entered ∧
      ∃ framed read,
        Execution.writeFrame pending.frame pending.vectorOffset
            start.beforeEntry.1.status.toWord
            (start.beforeEntry.1.framePointer pending.frame)
            (start.beforeEntry.1.readyForFrame pending.frame) =
              .ok true framed ∧
          (Memory.readLong
            (start.registers.vbr + pending.vectorOffset.toUInt32)
            .supervisorData : Bus σ UInt32) framed.memory =
              .ok entered.registers.pc read

/-- In user mode the first phase of a step keeps the system state. -/
theorem sameSystem_beforeEntry [Memory σ] {machine : Machine σ}
    (user : machine.isSupervisor = false)
    (detached : machine.handler = none) :
    machine.beforeEntry.1.SameSystem machine := by
  obtain ⟨-, confined⟩ := confinedWith_beforeEntry user detached
  rw [confined.unwatched]
  exact { confined.system with model := confined.system.model }

/-- A completed entry leads to a supervisor at the address in the vector
table. -/
theorem enteredFrom_of_run [Memory σ] {start entered : Machine σ}
    (same : start.beforeEntry.1.SameSystem start) {pending : PendingEntry}
    (found : start.beforeEntry.2 = some pending)
    (run : Execution.enterException pending.frame pending.vectorOffset
      start.beforeEntry.1 = .ok () entered) :
    start.EnteredFrom entered := by
  have handler := ends_enterException pending.frame pending.vectorOffset
    start.beforeEntry.1
  rw [run] at handler
  obtain ⟨framed, read, framing, vector⟩ :=
    Execution.vector_of_enterException run
  have table : start.beforeEntry.1.registers.vbr = start.registers.vbr :=
    same.control .vbr
  rw [table] at vector
  refine ⟨?_, pending, found, run, framed, read, framing, vector⟩
  rw [isSupervisor, handler.supervisor]
  exact isSupervisor_handlerMode _

/-- Where a step from user mode leads. -/
theorem step_from_user [Memory σ] {machine : Machine σ}
    (running : machine.condition = .running)
    (user : machine.isSupervisor = false) (detached : machine.handler = none) :
    (machine.step.isSupervisor = false ∧ machine.step.SameProtected machine ∧
        machine.step.condition = .running) ∨
      machine.EnteredFrom machine.step ∨ machine.step.condition = .halted := by
  have same := sameSystem_beforeEntry user detached
  have phases : machine.step =
      enterPending (machine.beforeEntry.1, machine.beforeEntry.2) :=
    machine.step_eq_enterPending
  cases found : machine.beforeEntry.2 with
  | none =>
      rw [found] at phases
      rw [phases]
      exact .inl ⟨same.supervisor.trans user, same.sameProtected user,
        same.condition.trans running⟩
  | some pending =>
      rw [found] at phases
      rw [phases, enterPending]
      cases run : Execution.enterException pending.frame
          pending.vectorOffset machine.beforeEntry.1 with
      | ok value entered =>
          exact .inr (.inl (enteredFrom_of_run same found run))
      | error fault entered => exact .inr (.inr rfl)

end Machine

/-- A step in user mode, up to an exception, asks for user accesses only and
keeps everything protected; and it ends in user mode, or in the handler of the
exception, or halted. -/
theorem Emulator.step_confines_user {σ : Type} [Memory σ]
    {emulator : Emulator σ} (running : emulator.machine.condition = .running)
    (user : emulator.machine.isSupervisor = false)
    (detached : emulator.machine.handler = none) :
    let start := emulator.machine
    let watched := start.watched.beforeEntry
    let final := emulator.step.2.machine
    (watched.1.unwatched = start.beforeEntry.1 ∧
        watched.2 = start.beforeEntry.2 ∧
        ∀ request ∈ watched.1.memory.requests, request.IsUser) ∧
      start.beforeEntry.1.SameProtected start ∧
      (emulator.canStep = true →
        final = Machine.enterPending start.beforeEntry) ∧
      (final.isSupervisor = false ∧ final.SameProtected start ∧
          final.condition = .running ∨
        start.EnteredFrom final ∨ final.condition = .halted) := by
  intro start watched final
  obtain ⟨pending, confined⟩ := Machine.confinedWith_beforeEntry user detached
  have kept := Machine.sameSystem_beforeEntry user detached
  refine ⟨⟨confined.unwatched.symm, pending, confined.requests⟩,
    kept.sameProtected user, ?_, ?_⟩
  · intro canStep
    show emulator.step.2.machine = _
    rw [machine_step, if_pos canStep]
    exact start.step_eq_enterPending
  · by_cases canStep : emulator.canStep = true
    · have stepped : final = start.step := by
        show emulator.step.2.machine = _
        rw [machine_step, if_pos canStep]
      rw [stepped]
      exact Machine.step_from_user running user detached
    · have still : final = start := by
        show emulator.step.2.machine = _
        rw [machine_step, if_neg canStep]
      rw [still]
      exact .inl ⟨user, (Machine.SameSystem.refl start).sameProtected user,
        running⟩

/-- A user about to load a word. -/
def userLoad : Emulator FlatMemory where
  machine :=
    { model := .mc68000
      condition := .running
      status := .ofWord 0
      opcode := 0x3010
      memory := ⟨#[0x30, 0x10, 0x4E, 0x71]⟩ }

theorem userLoad_confined :
    userLoad.machine.watched.beforeEntry.1.memory.requests =
        [.access .userProgram (.fetchWord 2),
          .access .userData (.readWord 0)] ∧
      userLoad.step.2.machine.SameProtected userLoad.machine := by
  obtain ⟨-, -, -, stays | entered | halted⟩ :=
    Emulator.step_confines_user
      (show userLoad.machine.condition = .running from rfl)
      (by decide +kernel) rfl
  · exact ⟨by decide +kernel, stays.2.1⟩
  · exact absurd entered.supervisor (by decide +kernel)
  · exact absurd halted (by decide +kernel)

end M68k

import M68k.Memory.Flat
import M68k.Proofs.InstructionPhases
import M68k.Proofs.StepCoupling

/-!
# The spaces in which an instruction works

An opcode asks the memory for the phases of its instruction and for nothing
else.  Operands are in the space of their addressing mode, the stack is in data
space and the instruction itself in program space; but a list of registers is
loaded from data space in every mode.
-/

namespace M68k

namespace Machine

variable {σ : Type}

/-- A watched machine and the same machine without the watch. -/
def RunsAlong (left : Machine (WatchedMemory σ)) (right : Machine σ) :
    Prop :=
  right = left.unwatched

theorem matched_bkpt (left : Machine (WatchedMemory σ)) (vector : Fin 8) :
    Matched RunsAlong
      (Execution.bkpt vector left) (Execution.bkpt vector left.unwatched) := by
  have same : askHandler
      { left.unwatched.withPc (left.unwatched.registers.pc - 2) with
        opcode := Execution.illegalOpcode } vector = _ :=
    askHandler_withMemory
      { left.withPc (left.registers.pc - 2) with
        opcode := Execution.illegalOpcode } left.memory.memory vector
  have quiet := memory_askHandler
    { left.withPc (left.registers.pc - 2) with
      opcode := Execution.illegalOpcode } vector
  simp only [Execution.bkpt, Execution.pc, Execution.setPc,
    Execution.setOpcode, Execution.observe, Execution.update,
    Execution.askHandler, Execution.bind_apply, same]
  generalize askHandler
    { left.withPc (left.registers.pc - 2) with
      opcode := Execution.illegalOpcode } vector = result at quiet ⊢
  obtain ⟨reply, after⟩ := result
  have kept : after.withMemory left.memory.memory = after.unwatched :=
    congrArg (fun memory => after.withMemory memory.memory) quiet.symm
  simp only [kept]
  cases reply with
  | none => exact .error rfl
  | some opcode => exact .error rfl

variable [Memory σ]

theorem runsAlong_coupling :
    SystemCoupling (RunsAlong : Machine (WatchedMemory σ) → _) where
  general := by rintro left _ rfl register; rfl
  counter := by rintro left _ rfl; rfl
  status := by rintro left _ rfl; rfl
  alignment := by rintro left _ rfl; rfl
  extensions := by rintro left _ rfl; rfl
  branches := by rintro left _ rfl; rfl
  finalPointer := by rintro left _ rfl; rfl
  writeGeneral := by rintro left _ rfl register value; rfl
  writeCounter := by rintro left _ rfl address; rfl
  writeCodes := by rintro left _ rfl codes inRange; rfl
  access := by
    rintro left _ rfl space access aligned inMode
    exact agree_watched fun memory => rfl
  control := by rintro left _ rfl register; rfl
  available := by rintro left _ rfl id; rfl
  writeControl := by rintro left _ rfl register value; rfl
  saveStackPointer := by rintro left _ rfl; rfl
  loadStackPointer := by rintro left _ rfl; rfl
  writeStatus := by rintro left _ rfl word; rfl
  writeCondition := by rintro left _ rfl condition; rfl
  resetDevices := by rintro left _ rfl; rfl
  accessAny := by
    rintro left _ rfl space access aligned
    exact agree_watched fun memory => rfl

theorem matched_executeOpcode (left : Machine (WatchedMemory σ)) :
    Matched RunsAlong
      (Execution.executeOpcode left)
      (Execution.executeOpcode left.unwatched) := by
  have together : left.RunsAlong left.unwatched := rfl
  apply Matched.executeOpcode together rfl
  intro instruction _
  rcases instruction.bkpt_or_ordinary with ⟨vector, rfl⟩ | ordinary
  · exact matched_bkpt left vector
  · exact (runsAlong_coupling.executeAny ordinary left _ rfl).matched

/-- A prefetch asks for the word at the program counter, if that is even. -/
theorem requests_prefetch (machine : Machine σ) :
    Ends (fun left => left.memory.requests = [] ∨
        left.memory.requests =
          [.access machine.programSpace (.fetchWord machine.registers.pc)])
      (Execution.prefetch machine.watched) := by
  have space : machine.watched.programSpace = machine.programSpace := rfl
  have counter : machine.watched.registers.pc = machine.registers.pc := rfl
  simp only [Execution.prefetch, Execution.instructionWordAt, Execution.pc,
    Execution.programSpace, Execution.setOpcode, Execution.observe,
    Execution.update, Execution.bind_apply, Execution.ite_apply,
    Execution.throw_apply, space, counter]
  by_cases even : machine.registers.pc % 2 = 0
  · have asked : Execution.onBus
          (Memory.fetchWord machine.registers.pc machine.programSpace)
          machine.watched =
        Execution.onBus (WatchedMemory.watch machine.programSpace
          (.fetchWord machine.registers.pc)) machine.watched := rfl
    rw [if_neg (not_not_intro even), asked]
    simp only [Execution.onBus, WatchedMemory.watch]
    cases Access.ask machine.programSpace (.fetchWord machine.registers.pc)
        machine.watched.memory.memory with
    | ok word memory => exact .inr rfl
    | error refusal memory => exact .inr rfl
  · rw [if_pos even]
    exact .inl rfl

/-- The setting in which a machine executes its opcode. -/
def busSetting (machine : Machine σ) : BusSetting :=
  ⟨machine.isSupervisor, machine.model⟩

/-- The phases of the opcode.  A refused opcode has none. -/
def phases (machine : Machine σ) : List BusPhase :=
  match Instruction.admit machine.opcode machine.model
      machine.isSupervisor with
  | .error _ => []
  | .ok instruction => instruction.phases machine.busSetting

theorem closed_executeOpcode (machine : Machine σ) :
    let start := (machine.withPc (machine.registers.pc + 2)).watched
    Closed machine.busSetting machine.phases start
      (Execution.executeOpcode start) := by
  intro start
  have same : Instruction.admit start.opcode start.model
      start.isSupervisor = Instruction.admit machine.opcode machine.model
        machine.isSupervisor := rfl
  have within : start.Within machine.busSetting := ⟨rfl, rfl⟩
  rw [Execution.executeOpcode, phases, same]
  cases Instruction.admit machine.opcode machine.model
      machine.isSupervisor with
  | error fault => exact Closes.throw start within
  | ok instruction =>
      exact machine.busSetting.execute instruction start within

/-- What has been asked of the memory when an execution has ended. -/
def askedIn :
    EStateM.Result Fault (Machine (WatchedMemory σ)) Unit →
      List MemoryRequest
  | .ok _ left | .error _ left => left.memory.requests

/-- What executing the opcode asks of the memory, the latest first. -/
def requested (machine : Machine σ) : List MemoryRequest :=
  askedIn (Execution.executeOpcode
    (machine.withPc (machine.registers.pc + 2)).watched)

/-- The requests of an opcode serve its phases: all of them if it completes, and
else those up to the fault.  After it the next opcode is fetched from program
space.  None of this depends on the watch. -/
theorem serves_phases (machine : Machine σ) :
    let start := machine.withPc (machine.registers.pc + 2)
    let run := Execution.executeOpcode start.watched
    Closed machine.busSetting machine.phases start.watched run ∧
      Matched RunsAlong run (Execution.executeOpcode start) ∧
        Ends (fun left => left.memory.requests = [] ∨
            left.memory.requests =
              [.access machine.programSpace
                (.fetchWord machine.registers.pc)])
          (Execution.prefetch machine.watched) := by
  intro start run
  constructor
  · exact machine.closed_executeOpcode
  · constructor
    · exact matched_executeOpcode start.watched
    · exact machine.requests_prefetch

/-- A user about to add a word relative to the program counter. -/
def relativeSum : Machine FlatMemory where
  model := .mc68000
  condition := .running
  status := .ofWord 0
  opcode := 0xD07A
  memory := ⟨#[0xD0, 0x7A, 0x00, 0x02, 0x12, 0x34]⟩

theorem relativeSum_phases :
    relativeSum.phases = [.word, .read .userProgram .word] ∧
      Closed relativeSum.busSetting relativeSum.phases
        (relativeSum.withPc 2).watched
        (Execution.executeOpcode (relativeSum.withPc 2).watched) ∧
      relativeSum.requested =
        [.access .userProgram (.readWord 4),
          .access .userProgram (.fetchWord 2)] := by
  constructor
  · decide +kernel
  · constructor
    · exact relativeSum.serves_phases.1
    · decide +kernel

/-- A supervisor about to load one register from a list relative to the program
counter. -/
def relativeList : Machine FlatMemory where
  model := .mc68000
  condition := .running
  status := .ofWord 0x2000
  opcode := 0x4CBA
  memory := ⟨#[0x4C, 0xBA, 0x00, 0x01, 0x00, 0x02, 0x12, 0x34]⟩

/-- The list is loaded from data space although its mode is in program space. -/
theorem relativeList_in_dataSpace :
    Instruction.admit relativeList.opcode relativeList.model
        relativeList.isSupervisor = .ok (.movemLoad .word .pcDisplacement) ∧
      AddressingMode.pcDisplacement.space? relativeList.isSupervisor =
        some .supervisorProgram ∧
      relativeList.requested =
        [.access .supervisorData (.readWord 6),
          .access .supervisorProgram (.fetchWord 4),
          .access .supervisorProgram (.fetchWord 2)] := by
  decide +kernel

end Machine

end M68k

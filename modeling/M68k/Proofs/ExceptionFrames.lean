import M68k.Proofs.ExceptionReturn
import M68k.Proofs.HostCalls
import M68k.Proofs.OperandSpaces
import M68k.Proofs.StatusIntegrity

/-!
# Exception frames

Which exception a step delivers, and what the delivery leaves: the stack pointer
at a frame, the parts of the frame, the status register and the handler's
address.  The table of exceptions is given here as the processor's manual would,
apart from the functions that deliver faults.
-/

namespace M68k

/-- A row of the table of exceptions. -/
structure ExceptionRow where
  vector : UInt16
  format : FrameFormat
  /-- Whether the stacked program counter is that of the next instruction. -/
  goesOn : Bool
deriving DecidableEq, Repr

namespace ExceptionRow

def trace : ExceptionRow := ⟨9, .sixWord, true⟩

/-- The size of the frame in bytes. -/
def size (row : ExceptionRow) : UInt32 :=
  match row.format with
  | .short => 8
  | .sixWord => 12

/-- The word that tells the frame's format and vector. -/
def formatWord (row : ExceptionRow) : UInt16 :=
  match row.format with
  | .short => 4 * row.vector
  | .sixWord => 0x2000 ||| (4 * row.vector)

/-- The address of the handler's address. -/
def entryAddress (row : ExceptionRow) (base : UInt32) : UInt32 :=
  base + (4 * row.vector).toUInt32

end ExceptionRow

/-- The row of a fault.  Breakpoints are not delivered. -/
def Fault.row? : Fault → Option ExceptionRow
  | busError => some ⟨2, .short, false⟩
  | addressError => some ⟨3, .short, false⟩
  | illegalInstruction => some ⟨4, .short, false⟩
  | divisionByZero => some ⟨5, .sixWord, true⟩
  | boundsCheck => some ⟨6, .sixWord, true⟩
  | conditionalTrap => some ⟨7, .sixWord, true⟩
  | privilegeViolation => some ⟨8, .short, false⟩
  | lineA => some ⟨10, .short, false⟩
  | lineF => some ⟨11, .short, false⟩
  | formatError => some ⟨14, .short, false⟩
  | trap number => some ⟨32 + number.toUInt16 % 16, .short, true⟩
  | breakpoint => none

theorem vectorTableOffset_trap (number : UInt8) :
    vectorTableOffset (trapVectorBase + (number &&& 0xF)) =
      4 * (32 + number.toUInt16 % 16) := by
  have low : (number &&& 0xF).toNat = number.toNat % 16 := by
    rw [UInt8.toNat_and]
    exact Nat.and_two_pow_sub_one_eq_mod _ 4
  have bound : number.toNat % 16 < 16 := Nat.mod_lt _ (by decide)
  apply UInt16.toNat_inj.1
  simp only [vectorTableOffset, trapVectorBase, UInt16.toNat_mul,
    UInt16.toNat_add, UInt16.toNat_mod, UInt8.toNat_toUInt16,
    UInt8.toNat_add, low]
  simp
  omega

/-- The functions that deliver faults agree with the table. -/
theorem Fault.delivery_of_row {fault : Fault} {row : ExceptionRow}
    (listed : fault.row? = some row) :
    fault.vectorOffset? = some (4 * row.vector) ∧
      fault.frameFormat = row.format ∧
        fault.restartsInstruction = !row.goesOn := by
  cases fault with
  | breakpoint => cases listed
  | trap number =>
      cases listed
      refine ⟨?_, rfl, rfl⟩
      rw [← vectorTableOffset_trap]
      rfl
  | _ =>
      cases listed
      exact ⟨rfl, rfl, rfl⟩

theorem ExceptionRow.size_ofFormat (row : ExceptionRow)
    (instruction : UInt32) :
    (ExceptionFrame.ofFormat row.format instruction).size = row.size := by
  rw [size]
  cases row.format <;> rfl

theorem ExceptionRow.formatWord_ofFormat (row : ExceptionRow)
    (instruction : UInt32) :
    ((ExceptionFrame.ofFormat row.format instruction).format <<< 12) |||
        4 * row.vector = row.formatWord := by
  rw [formatWord]
  cases row.format with
  | short => exact UInt16.zero_or
  | sixWord => rfl

namespace Machine

variable {σ : Type} [Memory σ]

/-! ## The exception that is raised -/

/-- A step raises the exception of a row.  The instruction leaves some machine,
and the program counter to be stacked is given. -/
inductive Raises (machine : Machine σ) :
    (left : Machine σ) → ExceptionRow → UInt32 → Prop where
  | fault {left : Machine σ} {fault : Fault} {row : ExceptionRow}
      (executed : Execution.executeOpcode
        (machine.withPc (machine.registers.pc + 2)) = .error fault left)
      (listed : fault.row? = some row) :
      Raises machine left row
        (if row.goesOn then left.registers.pc else machine.registers.pc)
  | trace {left : Machine σ}
      (executed : Execution.executeOpcode
        (machine.withPc (machine.registers.pc + 2)) = .ok () left)
      (running : left.condition = .running)
      (traced : machine.status.trace = true) :
      Raises machine left .trace left.registers.pc
  /-- The next opcode cannot be fetched. -/
  | fetch {left fetched : Machine σ} {fault : Fault} {row : ExceptionRow}
      (executed : Execution.executeOpcode
        (machine.withPc (machine.registers.pc + 2)) = .ok () left)
      (running : left.condition = .running)
      (untraced : machine.status.trace = false)
      (failed : Execution.prefetch left = .error fault fetched)
      (listed : fault.row? = some row) :
      Raises machine left row left.registers.pc

/-- What is raised is pending before the entry. -/
theorem Raises.beforeEntry {machine left : Machine FlatMemory}
    {row : ExceptionRow} {stacked : UInt32}
    (raises : machine.Raises left row stacked) :
    machine.beforeEntry =
      (left.withPc stacked,
        some ⟨.ofFormat row.format machine.registers.pc, 4 * row.vector⟩) := by
  have delivered {ended : Machine FlatMemory} {fault : Fault}
      {row : ExceptionRow} (instruction : UInt32)
      (listed : fault.row? = some row) :
      ended.pendingFault fault instruction =
        (ended.withPc (if row.goesOn then ended.registers.pc else instruction),
          some ⟨.ofFormat row.format instruction, 4 * row.vector⟩) := by
    obtain ⟨offset, format, restarts⟩ := Fault.delivery_of_row listed
    rw [pendingFault, offset, format, restarts]
    cases row.goesOn <;> rfl
  cases raises with
  | fault executed listed =>
      rw [Machine.beforeEntry, executed]
      exact delivered machine.registers.pc listed
  | trace executed running traced =>
      rw [Machine.beforeEntry, executed]
      simp only [running, traced]
      rfl
  | fetch executed running untraced failed listed =>
      obtain ⟨rfl, reason⟩ := Execution.prefetch_flat_error failed
      rw [Machine.beforeEntry, executed]
      simp only [running, untraced, failed, delivered _ listed]
      -- The frames of both reasons are short and do not hold an instruction.
      rcases reason with rfl | rfl
      · cases listed
        rfl
      · cases listed
        rfl

/-- What holds wherever the instruction ends holds of the machine that it
leaves. -/
theorem Raises.of_ends {property : Machine σ → Prop}
    {machine left : Machine σ} {row : ExceptionRow} {stacked : UInt32}
    (raises : machine.Raises left row stacked)
    (ends : Ends property (Execution.executeOpcode
      (machine.withPc (machine.registers.pc + 2)))) :
    property left := by
  cases raises with
  | fault executed listed =>
      rw [executed] at ends
      exact ends
  | trace executed running traced =>
      rw [executed] at ends
      exact ends
  | fetch executed running untraced failed listed =>
      rw [executed] at ends
      exact ends

/-! ## The program counter after an instruction -/

/-- What the opcode asks for is what its watched execution has recorded. -/
theorem follows_of_served {machine left : Machine σ}
    {ended : Machine (WatchedMemory σ)} (along : ended.RunsAlong left)
    (asked : machine.requested = ended.memory.requests)
    (served : Served machine.busSetting machine.phases
      (machine.withPc (machine.registers.pc + 2)).watched ended) :
    BusPhase.Follows machine.isSupervisor machine.phases
      (machine.registers.pc + 2) machine.requested.reverse
        left.registers.pc := by
  obtain ⟨requests, recorded, follows⟩ := served
  have counter : left.registers.pc = ended.registers.pc := by
    rw [along]
    rfl
  have all : machine.requested.reverse = requests := by
    rw [asked, recorded, List.reverse_append, List.reverse_reverse]
    rfl
  rw [counter, all]
  exact follows

/-- An instruction after which the program goes on has served all its phases up
to the program counter that it leaves: it has passed its extension words. -/
theorem Raises.follows {machine left : Machine σ}
    {row : ExceptionRow} {stacked : UInt32}
    (raises : machine.Raises left row stacked) (goesOn : row.goesOn = true) :
    stacked = left.registers.pc ∧
      BusPhase.Follows machine.isSupervisor machine.phases
        (machine.registers.pc + 2) machine.requested.reverse stacked := by
  have closed : Closed machine.busSetting machine.phases
      (machine.withPc (machine.registers.pc + 2)).watched
      (Execution.executeOpcode
        (machine.withPc (machine.registers.pc + 2)).watched) :=
    machine.closed_executeOpcode
  have matched : Matched RunsAlong
      (Execution.executeOpcode
        (machine.withPc (machine.registers.pc + 2)).watched)
      (Execution.executeOpcode
        (machine.withPc (machine.registers.pc + 2))) :=
    matched_executeOpcode (machine.withPc (machine.registers.pc + 2)).watched
  have asked : machine.requested = askedIn (Execution.executeOpcode
      (machine.withPc (machine.registers.pc + 2)).watched) := rfl
  generalize Execution.executeOpcode
    (machine.withPc (machine.registers.pc + 2)).watched = run
      at closed matched asked
  -- In each case the watched run ends as the plain one does.
  cases raises with
  | fault executed listed =>
      obtain ⟨-, -, restarts⟩ := Fault.delivery_of_row listed
      rw [goesOn] at restarts
      rw [executed] at matched
      cases matched with
      | error along =>
          rw [if_pos goesOn]
          constructor
          · rfl
          · exact follows_of_served along asked (closed.2 restarts)
  | trace executed running traced =>
      rw [executed] at matched
      cases matched with
      | ok along =>
          constructor
          · rfl
          · exact follows_of_served along asked closed
  | fetch executed running untraced failed listed =>
      rw [executed] at matched
      cases matched with
      | ok along =>
          constructor
          · rfl
          · exact follows_of_served along asked closed

/-! ## The delivery -/

/-- What a delivered exception leaves.  The frame is on the stack of the
handler, in the order of its addresses. -/
structure Delivered (left : Machine FlatMemory) (row : ExceptionRow)
    (instruction stacked : UInt32) (final : Machine FlatMemory) : Prop where
  stackPointer : final.registers.stackPointer = left.handlerPointer - row.size
  statusWord : final.memory.run? final.registers.stackPointer 2 =
    some (bytesOfWord left.status.toWord)
  programCounter : final.memory.run? (final.registers.stackPointer + 2) 4 =
    some (bytesOfLong stacked)
  formatWord : final.memory.run? (final.registers.stackPointer + 6) 2 =
    some (bytesOfWord row.formatWord)
  instruction : row.format = .sixWord →
    final.memory.run? (final.registers.stackPointer + 8) 4 =
      some (bytesOfLong instruction)
  status : final.status =
    .ofWord (handlerStatus left.status.toWord &&& left.model.statusMask)
  handler : final.memory.run? (row.entryAddress left.registers.vbr) 4 =
    some (bytesOfLong final.registers.pc)
  even : final.registers.pc % 2 = 0
  opcode : final.memory.run? final.registers.pc 2 =
    some (bytesOfWord final.opcode)
  general : ∀ register, register ≠ .stackPointer →
    final.registers.get register = left.registers.get register
  condition : final.condition = left.condition

theorem delivered_of_enterException {left final : Machine FlatMemory}
    {row : ExceptionRow} {instruction stacked : UInt32}
    (run : Execution.enterException
      (.ofFormat row.format instruction) (4 * row.vector)
        (left.withPc stacked) = .ok () final) :
    left.Delivered row instruction stacked final := by
  obtain ⟨-, covered, handler, opcode, even, vector, bytes, whole⟩ :=
    Execution.enterException_parts run
  have pointer : final.registers.stackPointer =
      (left.withPc stacked).framePointer
        (.ofFormat row.format instruction) :=
    Execution.stackPointer_of_enterException run
  -- Nothing after the frame is written, so its parts can be read at the end.
  have written := congrArg (fun machine => machine.memory) whole
  simp only at written
  rw [← pointer] at covered written
  have part (run : UInt32 × List UInt8)
      (member : run ∈ (ExceptionFrame.ofFormat row.format instruction).parts
        (4 * row.vector) left.status.toWord final.registers.stackPointer
          stacked) :
      final.memory.run? run.1 run.2.length = some run.2 := by
    rw [written]
    exact FlatMemory.run?_overwriteAll
      (ExceptionFrame.apart_parts _ _ _ _ _) covered member
  have counter : final.registers.pc = handler := by
    rw [whole]
    rfl
  have held : final.opcode = opcode := by
    rw [whole]
  constructor
  · rw [pointer, framePointer, stackPointer_handlerMode, row.size_ofFormat]
    rfl
  · exact part (_, bytesOfWord _) List.mem_cons_self
  · exact part (_, bytesOfLong _)
      (List.mem_cons_of_mem _ List.mem_cons_self)
  · rw [← row.formatWord_ofFormat instruction]
    exact part (_, bytesOfWord _)
      (List.mem_cons_of_mem _ (List.mem_cons_of_mem _ List.mem_cons_self))
  · intro long
    apply part (_, bytesOfLong instruction)
    rw [long]
    exact List.mem_cons_of_mem _
      (List.mem_cons_of_mem _ (List.mem_cons_of_mem _ List.mem_cons_self))
  · rw [whole]
    rfl
  · rw [counter]
    exact vector
  · rw [counter]
    exact even
  · rw [counter, held]
    exact bytes
  · intro register different
    have kept := congrArg (fun machine => machine.registers) whole
    simp only at kept
    rw [kept]
    calc (((left.withPc stacked).readyForFrame
            (.ofFormat row.format instruction)).withPc
              handler).registers.get register
      _ = ((left.withPc stacked).readyForFrame
            (.ofFormat row.format instruction)).registers.get register :=
          Registers.get_withPc _ _ _
      _ = (left.withPc stacked).handlerMode.registers.get register :=
          Registers.get_set_of_ne _ _ different
      _ = (left.withPc stacked).registers.get register :=
          get_setStatusWord _ _ different
      _ = left.registers.get register := Registers.get_withPc _ _ _
  · rw [whole]
    rfl

end Machine

/-! ## The status word of the handler -/

/-- A model has all bits of a handler's status word that it has of the
interrupted one. -/
theorem handlerStatus_and_statusMask {word : UInt16} {model : Model}
    (fits : word &&& model.statusMask = word) :
    handlerStatus word &&& model.statusMask = handlerStatus word := by
  rw [← fits]
  apply UInt16.toBitVec_inj.1
  apply BitVec.eq_of_getLsbD_eq
  intro position inside
  rcases model.statusMask_cases with mask | mask <;> rw [mask] <;>
    interval_cases position <;> simp [handlerStatus, StatusBit.supervisor]

namespace Machine

/-- The instruction leaves a valid status register valid. -/
theorem Raises.validOn {machine left : Machine FlatMemory}
    {row : ExceptionRow} {stacked : UInt32}
    (raises : machine.Raises left row stacked)
    (valid : machine.status.ValidOn machine.model) :
    left.status.ValidOn left.model := by
  have start : (machine.withPc (machine.registers.pc + 2)).HasValidStatus
      machine.model := ⟨valid, rfl⟩
  have kept : left.HasValidStatus machine.model :=
    raises.of_ends
      ((hasValidStatus_invariant machine.model).ends_executeOpcode start)
  rw [kept.model]
  exact kept.status

end Machine

/-- A delivered exception leaves its frame on the stack of the handler, which
the master bit selects, and the handler's address in the program counter.  If
the program goes on after the exception, the stacked program counter is past all
extension words. -/
theorem Emulator.step_delivers {emulator : Emulator FlatMemory}
    (canStep : emulator.canStep = true) {left : Machine FlatMemory}
    {row : ExceptionRow} {stacked : UInt32}
    (raises : emulator.machine.Raises left row stacked)
    (delivered : emulator.step.2.machine.condition ≠ .halted) :
    let machine := emulator.machine
    let final := emulator.step.2.machine
    left.Delivered row machine.registers.pc stacked final ∧
      (machine.status.ValidOn machine.model →
        left.handlerPointer = left.logicalStackPointer left.handlerBank ∧
          final.status.toWord = handlerStatus left.status.toWord) ∧
      (row.goesOn = true →
        stacked = left.registers.pc ∧
          BusPhase.Follows machine.isSupervisor machine.phases
            (machine.registers.pc + 2) machine.requested.reverse
              stacked) := by
  intro machine final
  have stepped : final = Machine.haltOnFault
      (Execution.enterException
        (.ofFormat row.format machine.registers.pc) (4 * row.vector)
          (left.withPc stacked)) := by
    show emulator.step.2.machine = _
    rw [machine_step, if_pos canStep, Machine.step_eq_enterPending,
      raises.beforeEntry]
    rfl
  have outcome : left.Delivered row machine.registers.pc stacked final := by
    have unhalted : final.condition ≠ .halted := delivered
    rw [stepped] at unhalted ⊢
    cases entered : Execution.enterException
        (.ofFormat row.format machine.registers.pc) (4 * row.vector)
          (left.withPc stacked) with
    | ok value entered =>
        exact Machine.delivered_of_enterException entered
    | error fault halted =>
        rw [entered] at unhalted
        exact absurd rfl unhalted
  refine ⟨outcome, ?_, raises.follows⟩
  intro valid
  have kept := (raises.validOn valid).toWord_and_statusMask
  constructor
  · have fits : left.StatusFits := kept
    exact fits.masterFits.handlerPointer_eq
  · have stored := StatusRegister.toWord_ofWord
      (handlerStatus left.status.toWord &&& left.model.statusMask)
    rw [UInt16.and_assoc, Model.statusMask_and_stored,
      handlerStatus_and_statusMask kept] at stored
    rw [outcome.status, handlerStatus_and_statusMask kept]
    exact stored

/-- A user about to divide by zero, on a model whose master stack is
selected. -/
def dividing : Emulator FlatMemory where
  machine :=
    { model := .mc68020
      condition := .running
      status := .ofWord 0x1000
      opcode := 0x80FC
      registers := { msp := 40 }
      memory := ⟨#[0x80, 0xFC, 0, 0, 0, 0, 0, 0, 0, 0, 0, 0, 0, 0, 0, 0,
        0, 0, 0, 0, 0, 0, 0, 24, 0x4E, 0x71, 0, 0, 0, 0, 0, 0, 0, 0, 0, 0,
        0, 0, 0, 0]⟩ }

/-- The machine that the division leaves. -/
def divided : Machine FlatMemory :=
  { dividing.machine.withPc 4 with status := .ofWord 0x1000 }

theorem dividing_delivered :
    divided.Delivered ⟨5, .sixWord, true⟩ 0 4 dividing.step.2.machine ∧
      dividing.step.2.machine.registers.stackPointer = 28 ∧
      dividing.step.2.machine.memory.run? 28 12 =
        some [0x10, 0, 0, 0, 0, 4, 0x20, 20, 0, 0, 0, 0] ∧
      dividing.step.2.machine.registers.pc = 24 := by
  have executed : Execution.executeOpcode
      (dividing.machine.withPc (dividing.machine.registers.pc + 2)) =
        .error .divisionByZero divided := rfl
  have listed : Fault.divisionByZero.row? = some ⟨5, .sixWord, true⟩ := rfl
  constructor
  · exact (Emulator.step_delivers (by decide +kernel)
      (.fault executed listed) (by decide +kernel)).1
  · decide +kernel

end M68k

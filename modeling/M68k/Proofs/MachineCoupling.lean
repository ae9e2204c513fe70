import M68k.Proofs.ExceptionReturn
import M68k.Proofs.HostCalls
import M68k.Proofs.StepCoupling
import Mathlib.Data.List.Forall2

/-!
# Coupled machines

What couples the instructions of two machines also couples the machines as a
whole: exceptions are entered alike, interrupts are taken alike, and whatever a
host calls leads to related emulators and is answered alike.
-/

namespace M68k

/-! ## Vectors -/

/-- Vectors are four bytes wide, so their entries are as aligned as the
table. -/
theorem vectorTableOffset_even (vector : UInt8) :
    (vectorTableOffset vector).toUInt32.toNat % 2 = 0 := by
  have range := vector.toNat_lt
  simp only [vectorTableOffset, UInt16.toNat_toUInt32, UInt16.toNat_mul,
    UInt8.toNat_toUInt16, UInt16.reduceToNat]
  omega

/-- Every exception has an entry in the vector table. -/
theorem Fault.vectorOffset?_even {fault : Fault} {offset : UInt16}
    (found : fault.vectorOffset? = some offset) :
    offset.toUInt32.toNat % 2 = 0 := by
  obtain ⟨vector, -, rfl⟩ := Option.map_eq_some_iff.mp found
  exact vectorTableOffset_even vector

namespace Machine

variable {σ : Type}

theorem vectorOffset_pendingFault {machine left : Machine σ} {fault : Fault}
    {instruction : UInt32} {pending : PendingEntry}
    (found : machine.pendingFault fault instruction = (left, some pending)) :
    pending.vectorOffset.toUInt32.toNat % 2 = 0 := by
  rw [pendingFault] at found
  split at found
  · cases found
  · rename_i offset delivered
    cases found
    exact Fault.vectorOffset?_even delivered

/-- The exception that a step leaves pending has an entry in the vector
table. -/
theorem vectorOffset_beforeEntry [Memory σ] {machine left : Machine σ}
    {pending : PendingEntry}
    (found : machine.beforeEntry = (left, some pending)) :
    pending.vectorOffset.toUInt32.toNat % 2 = 0 := by
  rw [beforeEntry] at found
  split at found
  · exact vectorOffset_pendingFault found
  · split at found
    · cases found
    · split at found
      · cases found
        exact vectorTableOffset_even traceVector
      · split at found
        · cases found
        · exact vectorOffset_pendingFault found

end Machine

section

variable {σ τ : Type} {relation : Machine σ → Machine τ → Prop}
variable {left : Machine σ} {right : Machine τ}

/-- A transaction whose refusal is only reported is granted alike. -/
theorem Agree.attempt {transaction : Bus σ Unit} {other : Bus τ Unit}
    (agree : Agree relation (Execution.onBus transaction left)
      (Execution.onBus other right)) :
    ∃ granted leftMemory rightMemory,
      Execution.attempt transaction left =
          .ok granted { left with memory := leftMemory } ∧
        Execution.attempt other right =
          .ok granted { right with memory := rightMemory } ∧
        relation { left with memory := leftMemory }
          { right with memory := rightMemory } := by
  simp only [Execution.onBus] at agree
  simp only [Execution.attempt]
  cases leftAsked : transaction left.memory with
  | ok value memory =>
      cases rightAsked : other right.memory with
      | ok otherValue otherMemory =>
          rw [leftAsked, rightAsked] at agree
          cases agree with
          | ok related => exact ⟨true, _, _, rfl, rfl, related⟩
      | error refusal otherMemory =>
          rw [leftAsked, rightAsked] at agree
          cases agree
  | error refusal memory =>
      cases rightAsked : other right.memory with
      | ok otherValue otherMemory =>
          rw [leftAsked, rightAsked] at agree
          cases agree
      | error otherRefusal otherMemory =>
          rw [leftAsked, rightAsked] at agree
          cases agree with
          | error ordinary related => exact ⟨false, _, _, rfl, rfl, related⟩

end

/-- The instructions that two machines step over end alike. -/
def Machine.ExecutesAlike {σ τ : Type} [Memory σ] [Memory τ]
    (relation : Machine σ → Machine τ → Prop) (left : Machine σ)
    (right : Machine τ) : Prop :=
  Matched relation
    (Execution.executeOpcode (left.withPc (left.registers.pc + 2)))
    (Execution.executeOpcode (right.withPc (right.registers.pc + 2)))

/-- A coupling that also respects interrupts and resets. -/
structure MachineCoupling {σ τ : Type} [Memory σ] [Memory τ]
    (relation : Machine σ → Machine τ → Prop) : Prop
    extends SupervisorCoupling relation, StepCoupling relation where
  writeCondition : ∀ {left right}, relation left right → ∀ condition,
    relation { left with condition } { right with condition }
  raiseMask : ∀ {left right}, relation left right → ∀ level,
    relation (left.withInterruptMask (level &&& 7))
      (right.withInterruptMask (level &&& 7))
  clear : ∀ {left right}, relation left right →
    relation { left with registers := {}, status := {}, opcode := 0 }
      { right with registers := {}, status := {}, opcode := 0 }

namespace MachineCoupling

variable {σ τ : Type} [Memory σ] [Memory τ]
variable {relation : Machine σ → Machine τ → Prop}
variable (coupling : MachineCoupling relation)
variable {left : Machine σ} {right : Machine τ}

include coupling

/-! ## Exception entry -/

/-- Every part of a frame is as aligned as the frame, and is tried whatever
became of the parts before it. -/
theorem writeFrame (related : relation left right) (frame : ExceptionFrame)
    (vectorOffset status : UInt16) {pointer : UInt32}
    (aligned : left.misaligned pointer = false) :
    Agree relation
      (Execution.writeFrame frame vectorOffset status pointer left)
      (Execution.writeFrame frame vectorOffset status pointer right) := by
  have part (distance : UInt32) (even : distance.toNat % 2 = 0) :
      left.misaligned (pointer + distance) = false := by
    rw [left.misaligned_add_even pointer even]
    exact aligned
  obtain ⟨statusWritten, _, _, leftStatus, rightStatus, written⟩ :=
    Agree.attempt (coupling.accessAny related .supervisorData
      (.writeWord pointer status) aligned)
  obtain ⟨pcWritten, _, _, leftPc, rightPc, returned⟩ :=
    Agree.attempt (coupling.accessAny written .supervisorData
      (.writeLong (pointer + 2) left.registers.pc) (part 2 rfl))
  obtain ⟨formatWritten, _, _, leftFormat, rightFormat, formatted⟩ :=
    Agree.attempt (coupling.accessAny returned .supervisorData
      (.writeWord (pointer + 6) ((frame.format <<< 12) ||| vectorOffset))
      (part 6 rfl))
  simp only [Access.ask] at leftStatus rightStatus leftPc rightPc
  simp only [Access.ask] at leftFormat rightFormat
  cases frame with
  | short =>
      simp only [Execution.writeFrame, Execution.bind_apply, Execution.pc,
        Execution.observe, Execution.pure_apply, ← coupling.counter related,
        leftStatus, rightStatus, leftPc, rightPc, leftFormat, rightFormat]
      exact .ok formatted
  | sixWord instruction =>
      obtain ⟨instructionWritten, _, _, leftNamed, rightNamed, named⟩ :=
        Agree.attempt (coupling.accessAny formatted .supervisorData
          (.writeLong (pointer + 8) instruction) (part 8 rfl))
      simp only [Access.ask] at leftNamed rightNamed
      simp only [Execution.writeFrame, Execution.bind_apply, Execution.pc,
        Execution.observe, Execution.pure_apply, ← coupling.counter related,
        leftStatus, rightStatus, leftPc, rightPc, leftFormat, rightFormat,
        leftNamed, rightNamed]
      exact .ok named

theorem stackPointer (related : relation left right) :
    right.registers.stackPointer = left.registers.stackPointer :=
  (coupling.general related .stackPointer).symm

theorem misaligned (related : relation left right) (address : UInt32) :
    right.misaligned address = left.misaligned address := by
  rw [Machine.misaligned, Machine.misaligned, coupling.alignment related]

theorem handlerMode (related : relation left right) :
    relation left.handlerMode right.handlerMode := by
  rw [Machine.handlerMode, Machine.handlerMode, ← coupling.status related]
  exact coupling.writeStatus related _

theorem readyForFrame (related : relation left right)
    (frame : ExceptionFrame) :
    right.framePointer frame = left.framePointer frame ∧
      relation (left.readyForFrame frame) (right.readyForFrame frame) := by
  have changed := coupling.handlerMode related
  have same : right.framePointer frame = left.framePointer frame := by
    rw [Machine.framePointer, Machine.framePointer,
      coupling.stackPointer changed]
  refine ⟨same, ?_⟩
  rw [Machine.readyForFrame, Machine.readyForFrame, same]
  exact coupling.writeGeneral changed .stackPointer _

/-- The end of an entry, from the check of the vector table on. -/
theorem readVector (related : relation left right) {vectorOffset : UInt16}
    (even : vectorOffset.toUInt32.toNat % 2 = 0) :
    Agree relation
      (if left.misaligned left.registers.vbr then .error .addressError left
        else
          match Execution.onBus
              (Memory.readLong (left.registers.vbr + vectorOffset.toUInt32)
                .supervisorData) left with
          | .ok entry read => Execution.prefetch (read.withPc entry)
          | .error fault read => .error fault read)
      (if right.misaligned right.registers.vbr then .error .addressError right
        else
          match Execution.onBus
              (Memory.readLong (right.registers.vbr + vectorOffset.toUInt32)
                .supervisorData) right with
          | .ok entry read => Execution.prefetch (read.withPc entry)
          | .error fault read => .error fault read) := by
  have table : right.registers.vbr = left.registers.vbr :=
    (coupling.control related .vbr).symm
  rw [table, coupling.misaligned related]
  by_cases refused : left.misaligned left.registers.vbr = true
  · rw [if_pos refused, if_pos refused]
    exact .error (by decide) related
  · rw [if_neg refused, if_neg refused]
    have aligned : left.misaligned
        (left.registers.vbr + vectorOffset.toUInt32) = false := by
      rw [left.misaligned_add_even _ even]
      exact Bool.eq_false_of_not_eq_true refused
    generalize left.registers.vbr + vectorOffset.toUInt32 = entryAddress
      at aligned ⊢
    have reading : Agree relation
        (Execution.onBus (Memory.readLong entryAddress .supervisorData) left)
        (Execution.onBus (Memory.readLong entryAddress .supervisorData)
          right) :=
      coupling.accessAny related .supervisorData (.readLong entryAddress)
        aligned
    generalize Execution.onBus
      (Memory.readLong entryAddress .supervisorData) left = first
        at reading ⊢
    generalize Execution.onBus
      (Memory.readLong entryAddress .supervisorData) right = second
        at reading ⊢
    cases reading with
    | error ordinary read => exact .error ordinary read
    | @ok entry _ _ read =>
        exact coupling.prefetch _ _ (coupling.writeCounter read entry)

/-- Exceptions are entered alike. -/
theorem enterException (related : relation left right)
    (frame : ExceptionFrame) {vectorOffset : UInt16}
    (even : vectorOffset.toUInt32.toNat % 2 = 0) :
    Agree relation (Execution.enterException frame vectorOffset left)
      (Execution.enterException frame vectorOffset right) := by
  have changed := coupling.handlerMode related
  obtain ⟨place, ready⟩ := coupling.readyForFrame related frame
  rw [Execution.enterException_apply, Execution.enterException_apply,
    coupling.stackPointer changed, coupling.misaligned changed, place,
    ← coupling.status related]
  by_cases refused : left.handlerMode.misaligned
      left.handlerMode.registers.stackPointer = true
  · rw [if_pos refused, if_pos refused]
    exact .error (by decide) changed
  · rw [if_neg refused, if_neg refused]
    have room : (left.readyForFrame frame).misaligned
        (left.framePointer frame) = false := by
      rw [Bool.not_eq_true] at refused
      exact (left.handlerMode.misaligned_sub_frame _ frame).trans refused
    have framing := coupling.writeFrame ready frame vectorOffset
      left.status.toWord room
    generalize Execution.writeFrame frame vectorOffset left.status.toWord
      (left.framePointer frame) (left.readyForFrame frame) = first
        at framing ⊢
    generalize Execution.writeFrame frame vectorOffset left.status.toWord
      (left.framePointer frame) (right.readyForFrame frame) = second
        at framing ⊢
    cases framing with
    | error ordinary framed => exact .error ordinary framed
    | @ok written _ _ framed =>
        cases written with
        | false => exact .error (by decide) framed
        | true =>
            simp only [if_true]
            exact coupling.readVector framed even

theorem haltOnFault
    {first : EStateM.Result Fault (Machine σ) Unit}
    {second : EStateM.Result Fault (Machine τ) Unit}
    (agree : Agree relation first second) :
    relation (Machine.haltOnFault first) (Machine.haltOnFault second) := by
  cases agree with
  | ok related => exact related
  | error ordinary related => exact coupling.writeCondition related .halted

/-! ## Steps, interrupts and resets -/

/-- Machines whose instructions end alike are related after their step. -/
theorem step (related : relation left right)
    (executed : Machine.ExecutesAlike relation left right) :
    relation left.step right.step := by
  rw [Machine.ExecutesAlike, ← coupling.counter related] at executed
  obtain ⟨sameEntry, begun⟩ := coupling.beforeEntry related executed
  rw [Machine.step_eq_enterPending, Machine.step_eq_enterPending]
  cases leftBegun : left.beforeEntry with
  | mk leftBefore pending =>
      cases rightBegun : right.beforeEntry with
      | mk rightBefore otherPending =>
          rw [leftBegun, rightBegun] at sameEntry begun
          cases sameEntry
          cases pending with
          | none => exact begun
          | some pending =>
              exact coupling.haltOnFault (coupling.enterException begun _
                (Machine.vectorOffset_beforeEntry leftBegun))

/-- Interrupts are taken alike. -/
theorem interrupt (related : relation left right) (level : UInt8) :
    (left.interrupt level).1 = (right.interrupt level).1 ∧
      relation (left.interrupt level).2 (right.interrupt level).2 := by
  have accepted : left.acceptsInterrupt (level &&& 7) =
      right.acceptsInterrupt (level &&& 7) := by
    rw [Machine.acceptsInterrupt, Machine.acceptsInterrupt,
      coupling.condition related, coupling.status related]
  have entered : Agree relation (left.interruptEntry level)
      (right.interruptEntry level) :=
    coupling.enterException (coupling.writeCondition related .running) .short
      (vectorTableOffset_even _)
  rw [left.interrupt_eq_entry, right.interrupt_eq_entry, ← accepted]
  cases left.acceptsInterrupt (level &&& 7) with
  | false => exact ⟨rfl, related⟩
  | true =>
      generalize left.interruptEntry level = first at entered ⊢
      generalize right.interruptEntry level = second at entered ⊢
      cases entered with
      | ok taken => exact ⟨rfl, coupling.raiseMask taken level⟩
      | error ordinary failed =>
          exact ⟨rfl, coupling.writeCondition failed .halted⟩

/-- Resets load the same vectors. -/
theorem loadResetVectors :
    Coupled relation Machine.loadResetVectors Machine.loadResetVectors := by
  have read (address : UInt32) (even : address % 2 = 0) :
      Coupled relation
        (Execution.onBus (Memory.readLong address .supervisorProgram))
        (Execution.onBus (Memory.readLong address .supervisorProgram)) :=
    fun left right related =>
      coupling.accessAny related .supervisorProgram (.readLong address)
        (by simp [Access.Aligned, Machine.misaligned, even])
  exact (read 0 rfl).bind fun pointer => (read 4 rfl).bind fun start =>
    (coupling.setRegister _ pointer).bind fun _ =>
      (coupling.setPc start).bind fun _ => coupling.prefetch

theorem reset (related : relation left right) :
    relation left.reset right.reset := by
  have loaded : Agree relation (Machine.loadResetVectors left.cleared)
      (Machine.loadResetVectors right.cleared) :=
    coupling.loadResetVectors _ _
      (coupling.writeStatus (coupling.clear related) 0x2700)
  rw [Machine.reset, Machine.reset]
  generalize Machine.loadResetVectors left.cleared = first at loaded ⊢
  generalize Machine.loadResetVectors right.cleared = second at loaded ⊢
  cases loaded with
  | ok started => exact coupling.writeCondition started .running
  | error ordinary failed => exact coupling.writeCondition failed .halted

/-- Every instruction but the breakpoint ends alike, if both machines have or
both lack the control register it names. -/
theorem matchedOrdinary (related : relation left right)
    {instruction : Instruction} (ordinary : ∀ vector, instruction ≠ .bkpt vector)
    (available : instruction = .movecStore ∨ instruction = .movecLoad →
      ∀ word fetched, Execution.fetchWord left = .ok word fetched →
        ControlRegister.forModel? (word &&& 0xFFF) left.model =
          ControlRegister.forModel? (word &&& 0xFFF) right.model) :
    Matched relation (instruction.execute left) (instruction.execute right) := by
  by_cases stops : instruction = .stop
  · rw [stops]
    exact (coupling.stop coupling.writeCondition _ _ related).matched
  · exact (coupling.executeAt related ordinary stops available).matched

/-- Machines without a breakpoint handler execute alike if the same instruction
is admitted, and both have or both lack the control register it names. -/
theorem executesAlike (related : relation left right)
    (leftDetached : left.handler = none) (rightDetached : right.handler = none)
    (admission : Instruction.admit left.opcode left.model left.isSupervisor =
      Instruction.admit right.opcode right.model right.isSupervisor)
    (available : ∀ instruction,
      Instruction.admit left.opcode left.model left.isSupervisor =
          .ok instruction →
        instruction = .movecStore ∨ instruction = .movecLoad →
        ∀ word fetched,
          Execution.fetchWord (left.withPc (left.registers.pc + 2)) =
              .ok word fetched →
            ControlRegister.forModel? (word &&& 0xFFF) left.model =
              ControlRegister.forModel? (word &&& 0xFFF) right.model) :
    Machine.ExecutesAlike relation left right := by
  have passed := coupling.writeCounter related (left.registers.pc + 2)
  rw [Machine.ExecutesAlike, ← coupling.counter related]
  refine .executeOpcode passed admission ?_
  intro instruction admitted
  rcases instruction.bkpt_or_ordinary with ⟨vector, rfl⟩ | ordinary
  · have leftPassed :
        (left.withPc (left.registers.pc + 2)).handler = none := leftDetached
    have rightPassed :
        (right.withPc (left.registers.pc + 2)).handler = none := rightDetached
    exact coupling.bkpt leftPassed rightPassed passed vector
  · exact coupling.matchedOrdinary passed ordinary
      (available instruction admitted)

end MachineCoupling

/-! ## The host -/

/-- Two emulators are in related states. -/
structure Emulator.Related {σ τ : Type}
    (relation : Machine σ → Machine τ → Prop) (left : Emulator σ)
    (right : Emulator τ) : Prop where
  machine : relation left.machine right.machine
  limit : left.limit = right.limit
  retired : left.retired = right.retired

/-- An emulator is known by its machine and the emulator it is related to. -/
theorem Emulator.Related.eq_of_machine {σ τ : Type}
    {relation : Machine σ → Machine τ → Prop} {left : Emulator σ}
    {right other : Emulator τ} (related : left.Related relation right)
    (machine : right.machine = other.machine)
    (limit : left.limit = other.limit)
    (retired : left.retired = other.retired) : right = other := by
  cases right
  cases other
  rw [mk.injEq]
  exact ⟨machine, related.limit.symm.trans limit,
    related.retired.symm.trans retired⟩

namespace MachineCoupling

variable {σ τ : Type} [Memory σ] [Memory τ]
variable {relation : Machine σ → Machine τ → Prop}
variable (coupling : MachineCoupling relation)
variable {left : Emulator σ} {right : Emulator τ}

include coupling

theorem canStep (related : left.Related relation right) :
    left.canStep = right.canStep := by
  rw [Emulator.canStep, Emulator.canStep, Emulator.limitReached,
    Emulator.limitReached, coupling.condition related.machine,
    related.limit, related.retired]

theorem emulatorStep (related : left.Related relation right)
    (executed : left.canStep = true →
      Machine.ExecutesAlike relation left.machine right.machine) :
    left.step.2.Related relation right.step.2 := by
  cases leftCan : left.canStep with
  | false =>
      have rightCan := (coupling.canStep related).symm.trans leftCan
      rw [Emulator.step_of_refused leftCan, Emulator.step_of_refused rightCan]
      exact related
  | true =>
      have rightCan := (coupling.canStep related).symm.trans leftCan
      rw [Emulator.step_of_canStep leftCan, Emulator.step_of_canStep rightCan]
      exact ⟨coupling.step related.machine (executed leftCan), related.limit,
        congrArg (· + 1) related.retired⟩

/-- Machines that are related and execute alike go on to do so, step by
step. -/
theorem runSteps (related : left.Related relation right) (count : Nat)
    (executed : ∀ machine ∈ left.executedBySteps count, ∀ other,
      relation machine other →
        Machine.ExecutesAlike relation machine other) :
    (left.runSteps count).Related relation (right.runSteps count) ∧
      List.Forall₂ relation (left.executedBySteps count)
        (right.executedBySteps count) := by
  induction count generalizing left right with
  | zero => exact ⟨related, .nil⟩
  | succ count induction =>
      have same := coupling.canStep related
      rw [Emulator.executedBySteps, Emulator.executedBySteps, ← same]
      rw [Emulator.executedBySteps] at executed
      cases leftCan : left.canStep with
      | false =>
          rw [Emulator.runSteps_of_refused leftCan,
            Emulator.runSteps_of_refused (same.symm.trans leftCan)]
          exact ⟨related, .nil⟩
      | true =>
          rw [if_pos leftCan] at executed
          rw [Emulator.runSteps_succ, Emulator.runSteps_succ]
          have stepped := coupling.emulatorStep related fun _ =>
            executed _ (List.mem_cons_self ..) _ related.machine
          obtain ⟨ran, traced⟩ := induction stepped fun machine later =>
            executed machine (List.mem_cons_of_mem _ later)
          exact ⟨ran, .cons related.machine traced⟩

/-- Calls are answered alike and lead to related emulators. -/
theorem call (related : left.Related relation right) (call : HostCall)
    (executed : ∀ machine ∈ left.executedByCall call, ∀ other,
      relation machine other →
        Machine.ExecutesAlike relation machine other) :
    left.answer call = right.answer call ∧
      (left.afterCall call).Related relation (right.afterCall call) ∧
      List.Forall₂ relation (left.executedByCall call)
        (right.executedByCall call) := by
  cases call with
  | reset =>
      exact ⟨rfl, ⟨coupling.reset related.machine, related.limit, rfl⟩, .nil⟩
  | step =>
      obtain ⟨ran, traced⟩ := coupling.runSteps related 1 executed
      rw [Emulator.runSteps_succ, Emulator.runSteps_succ] at ran
      refine ⟨?_, ran, traced⟩
      rw [Emulator.answer, Emulator.answer, Emulator.step_answer,
        Emulator.step_answer]
      exact congrArg HostAnswer.flag (coupling.canStep ran)
  | run =>
      have headroom : right.headroom = left.headroom := by
        rw [Emulator.headroom, Emulator.headroom, related.limit,
          related.retired]
      rw [Emulator.executedByCall, Emulator.executedByCall, headroom]
      obtain ⟨ran, traced⟩ := coupling.runSteps related left.headroom executed
      rw [Emulator.answer, Emulator.answer, Emulator.afterCall,
        Emulator.afterCall, Emulator.run, Emulator.run, headroom]
      exact ⟨by rw [ran.retired, related.retired], ran, traced⟩
  | interrupt level =>
      obtain ⟨same, taken⟩ := coupling.interrupt related.machine level
      exact ⟨congrArg HostAnswer.flag same,
        ⟨taken, related.limit, related.retired⟩, .nil⟩

/-- As long as the executed instructions end alike, two emulators remain related
and answer alike. -/
theorem calls (related : left.Related relation right)
    (calls : List HostCall)
    (executed : ∀ machine ∈ left.executed calls, ∀ other,
      relation machine other →
        Machine.ExecutesAlike relation machine other) :
    left.answers calls = right.answers calls ∧
      (left.after calls).Related relation (right.after calls) ∧
      List.Forall₂ relation (left.executed calls) (right.executed calls) := by
  induction calls generalizing left right with
  | nil => exact ⟨rfl, related, .nil⟩
  | cons call calls induction =>
      rw [Emulator.executed] at executed
      obtain ⟨answer, called, traced⟩ := coupling.call related call
        fun machine now => executed machine (List.mem_append_left _ now)
      obtain ⟨answers, after, laterTraced⟩ := induction called
        fun machine later => executed machine (List.mem_append_right _ later)
      rw [Emulator.answers, Emulator.answers, answer, answers]
      exact ⟨rfl, after, List.rel_append traced laterTraced⟩

end MachineCoupling

end M68k

import M68k.Proofs.ExceptionEntry
import M68k.Proofs.Invariant

/-!
# Exception entries that fail

An entry can fail at five places: the handler's stack is misaligned, the frame
cannot be written, the vector table is misaligned, the vector cannot be read, or
the handler's first word cannot be fetched.  The machine is then in the handler's
mode already, with another stack pointer and another memory.

The program counter is still that of the interrupted program at all places but
the last: the first word of the handler is fetched from the program counter,
which does not go back.
-/

namespace M68k

variable {σ : Type}

namespace Machine

section Failures

variable [Memory σ] (machine : Machine σ) (frame : ExceptionFrame)
  (vectorOffset : UInt16)

/-- An entry has tried to write its frame, and was granted all of it or not. -/
def FramesTo (granted : Bool) (framed : Machine σ) : Prop :=
  Execution.writeFrame frame vectorOffset machine.status.toWord
    (machine.framePointer frame) (machine.readyForFrame frame) =
      .ok granted framed

/-- An entry has got as far as the vector, which names a handler. -/
def FindsHandler (handler : UInt32) (found : Machine σ) : Prop :=
  ∃ framed, machine.FramesTo frame vectorOffset true framed ∧
    framed.misaligned framed.registers.vbr = false ∧
      Execution.onBus (Memory.readLong
        (framed.registers.vbr + vectorOffset.toUInt32) .supervisorData)
          framed = .ok handler found

/-- The ways in which an entry fails. -/
inductive EntryFails : Fault → Machine σ → Prop where
  | stack
      (misaligned : machine.handlerMode.misaligned
        machine.handlerMode.registers.stackPointer = true) :
      EntryFails .addressError machine.handlerMode
  | frame {framed : Machine σ}
      (framing : machine.FramesTo frame vectorOffset false framed) :
      EntryFails .busError framed
  | table {framed : Machine σ}
      (framing : machine.FramesTo frame vectorOffset true framed)
      (misaligned : framed.misaligned framed.registers.vbr = true) :
      EntryFails .addressError framed
  | vector {framed left : Machine σ} {fault : Fault}
      (framing : machine.FramesTo frame vectorOffset true framed)
      (unread : Execution.onBus (Memory.readLong
        (framed.registers.vbr + vectorOffset.toUInt32) .supervisorData :
          Bus σ UInt32) framed = .error fault left) :
      EntryFails fault left
  | handler {handler : UInt32} {found left : Machine σ} {fault : Fault}
      (finds : machine.FindsHandler frame vectorOffset handler found)
      (unfetched : Execution.prefetch (found.withPc handler) =
        .error fault left) :
      EntryFails fault left

end Failures

/-- A machine is in the handler's mode of another, with a stack pointer, a
program counter and a memory of its own. -/
def EntersFrom (start left : Machine σ) : Prop :=
  ∃ pointer pc memory, left =
    { start.handlerMode with
      registers := start.handlerMode.registers.setStackPointer pointer
      memory }.withPc pc

section

variable {machine left : Machine σ}

namespace EntersFrom

theorem onlyMemory {middle : Machine σ} (enters : machine.EntersFrom middle)
    (only : OnlyMemory middle left) : machine.EntersFrom left := by
  obtain ⟨pointer, pc, memory, rfl⟩ := enters
  obtain ⟨later, rfl⟩ := only
  exact ⟨pointer, pc, later, rfl⟩

theorem withPc (enters : machine.EntersFrom left) (address : UInt32) :
    machine.EntersFrom (left.withPc address) := by
  obtain ⟨pointer, pc, memory, rfl⟩ := enters
  exact ⟨pointer, address, memory, rfl⟩

/-- The general registers but the stack pointer are as they were. -/
theorem get (enters : machine.EntersFrom left) {register : Register}
    (different : register ≠ .stackPointer) :
    left.registers.get register = machine.registers.get register := by
  obtain ⟨pointer, pc, memory, rfl⟩ := enters
  calc (machine.handlerMode.registers.setStackPointer pointer).get register
    _ = machine.handlerMode.registers.get register :=
        Registers.get_set_of_ne _ _ different
    _ = machine.registers.get register :=
        machine.get_setStatusWord _ different

theorem vbr (enters : machine.EntersFrom left) :
    left.registers.vbr = machine.registers.vbr := by
  obtain ⟨pointer, pc, memory, rfl⟩ := enters
  exact machine.vbr_readyForFrame .short

/-- Stacks that the handler's mode does not select keep their pointers. -/
theorem logicalStackPointer (enters : machine.EntersFrom left)
    (fits : machine.MasterFits) {bank : StackBank}
    (inactive : bank ≠ left.activeBank) :
    left.logicalStackPointer bank = machine.logicalStackPointer bank := by
  obtain ⟨pointer, pc, memory, rfl⟩ := enters
  have inactive : bank ≠ machine.handlerMode.activeBank := inactive
  have written := machine.masterFits_handlerMode
    |>.logicalStackPointer_setStackPointer pointer bank
  rw [if_neg inactive] at written
  have exchanged := fits.logicalStackPointer_setStatusWord
    (handlerStatus machine.status.toWord) bank
  refine Eq.trans ?_ (written.trans exchanged)
  cases bank <;> rfl

end EntersFrom

theorem entersFrom_handlerMode (machine : Machine σ) :
    machine.EntersFrom machine.handlerMode := by
  refine ⟨machine.handlerMode.registers.stackPointer,
    machine.handlerMode.registers.pc, machine.handlerMode.memory, ?_⟩
  rw [Registers.setStackPointer, Registers.stackPointer,
    Registers.set_get_self]
  rfl

theorem entersFrom_readyForFrame (machine : Machine σ)
    (frame : ExceptionFrame) :
    machine.EntersFrom (machine.readyForFrame frame) :=
  ⟨machine.framePointer frame, machine.handlerMode.registers.pc,
    machine.handlerMode.memory, rfl⟩

end

section

variable [Memory σ] {machine left : Machine σ} {frame : ExceptionFrame}
  {vectorOffset : UInt16} {fault : Fault}

/-- The frame is written to the memory, and nothing else has changed since there
was room for it. -/
theorem FramesTo.onlyMemory {granted : Bool}
    (framing : machine.FramesTo frame vectorOffset granted left) :
    OnlyMemory (machine.readyForFrame frame) left := by
  obtain ⟨written, memory, run⟩ := Execution.writeFrame_apply frame
    vectorOffset machine.status.toWord (machine.framePointer frame)
    (machine.readyForFrame frame)
  rw [FramesTo, run] at framing
  cases framing
  exact ⟨memory, rfl⟩

theorem FindsHandler.onlyMemory {handler : UInt32}
    (finds : machine.FindsHandler frame vectorOffset handler left) :
    OnlyMemory (machine.readyForFrame frame) left := by
  obtain ⟨framed, framing, -, reading⟩ := finds
  obtain ⟨memory, rfl⟩ := framing.onlyMemory
  obtain ⟨later, -, rfl⟩ := Execution.onBus_eq_ok reading
  exact ⟨later, rfl⟩

namespace EntryFails

theorem entersFrom (fails : machine.EntryFails frame vectorOffset fault left) :
    machine.EntersFrom left := by
  have ready := machine.entersFrom_readyForFrame frame
  cases fails with
  | stack misaligned => exact machine.entersFrom_handlerMode
  | frame framing => exact ready.onlyMemory framing.onlyMemory
  | table framing misaligned => exact ready.onlyMemory framing.onlyMemory
  | vector framing unread =>
      have framed := ready.onlyMemory framing.onlyMemory
      exact framed.onlyMemory (Execution.onBus_eq_error unread)
  | handler finds unfetched =>
      have found := ready.onlyMemory finds.onlyMemory
      exact (found.withPc _).onlyMemory (Execution.prefetch_eq_error unfetched)

/-- The program counter has moved only if the handler was found. -/
theorem pc (fails : machine.EntryFails frame vectorOffset fault left) :
    left.registers.pc = machine.registers.pc ∨
      ∃ handler found,
        machine.FindsHandler frame vectorOffset handler found ∧
          Execution.prefetch (found.withPc handler) = .error fault left ∧
            left.registers.pc = handler := by
  have kept {after : Machine σ}
      (only : OnlyMemory (machine.readyForFrame frame) after) :
      after.registers.pc = machine.registers.pc := by
    obtain ⟨memory, rfl⟩ := only
    exact machine.pc_readyForFrame frame
  cases fails with
  | stack misaligned => exact .inl (machine.pc_setStatusWord _)
  | frame framing => exact .inl (kept framing.onlyMemory)
  | table framing misaligned => exact .inl (kept framing.onlyMemory)
  | vector framing unread =>
      obtain ⟨memory, rfl⟩ := framing.onlyMemory
      obtain ⟨later, rfl⟩ := Execution.onBus_eq_error unread
      exact .inl (kept ⟨later, rfl⟩)
  | @handler handler found left fault finds unfetched =>
      obtain ⟨memory, same⟩ := Execution.prefetch_eq_error unfetched
      refine .inr ⟨handler, found, finds, unfetched, ?_⟩
      rw [same]
      rfl

end EntryFails

end

end Machine

namespace Execution

variable [Memory σ] {machine left : Machine σ} {frame : ExceptionFrame}
  {vectorOffset : UInt16} {fault : Fault}

theorem entryFails_of_enterException
    (run : enterException frame vectorOffset machine = .error fault left) :
    machine.EntryFails frame vectorOffset fault left := by
  rw [enterException_apply] at run
  split at run
  · rename_i misaligned
    cases run
    exact .stack misaligned
  · cases framing : writeFrame frame vectorOffset machine.status.toWord
        (machine.framePointer frame) (machine.readyForFrame frame) with
    | error stopped framed =>
        -- A refused part of the frame is reported and ends nothing by itself.
        obtain ⟨written, memory, completed⟩ := writeFrame_apply frame
          vectorOffset machine.status.toWord (machine.framePointer frame)
          (machine.readyForFrame frame)
        cases framing.symm.trans completed
    | ok granted framed =>
        rw [framing] at run
        cases granted with
        | false =>
            cases run
            exact .frame framing
        | true =>
            simp only [if_true] at run
            split at run
            · rename_i misaligned
              cases run
              exact .table framing misaligned
            · rename_i aligned
              cases reading : onBus (Memory.readLong
                  (framed.registers.vbr + vectorOffset.toUInt32)
                    .supervisorData) framed with
              | error stopped read =>
                  rw [reading] at run
                  cases run
                  exact .vector framing reading
              | ok handler read =>
                  rw [reading] at run
                  exact .handler
                    ⟨framed, framing, by simpa using aligned, reading⟩ run

/-- An entry that fails keeps the general registers, the vector base and the
pointers of the stacks that it has not changed to.  It keeps the program counter
as well, unless it has found a handler and could not fetch its first word: then
the program counter is left at that handler. -/
theorem enterException_failed
    (run : enterException frame vectorOffset machine = .error fault left) :
    (∀ register, register ≠ .stackPointer →
        left.registers.get register = machine.registers.get register) ∧
      left.registers.vbr = machine.registers.vbr ∧
      (machine.MasterFits → ∀ bank, bank ≠ left.activeBank →
        left.logicalStackPointer bank = machine.logicalStackPointer bank) ∧
      (left.registers.pc = machine.registers.pc ∨
        ∃ handler found,
          machine.FindsHandler frame vectorOffset handler found ∧
            prefetch (found.withPc handler) = .error fault left ∧
              left.registers.pc = handler) := by
  have fails := entryFails_of_enterException run
  have enters := fails.entersFrom
  refine ⟨fun register different => enters.get different, enters.vbr, ?_,
    fails.pc⟩
  intro fits bank inactive
  exact enters.logicalStackPointer fits inactive

end Execution

namespace Machine

/-- A user at address 8 of a machine whose only vector names an odd handler. -/
def leavingForOdd : Machine FlatMemory where
  model := .mc68010
  condition := .running
  registers := { pc := 8, isp := 24 }
  memory := ⟨#[0, 0, 0, 0, 0, 0, 0, 33, 0, 0, 0, 0, 0, 0, 0, 0, 0, 0, 0, 0, 0, 0,
    0, 0]⟩

theorem leavingForOdd_failed :
    ∃ left,
      Execution.enterException .short 4 leavingForOdd =
        .error .addressError left ∧
      (∀ register, register ≠ .stackPointer →
        left.registers.get register =
          leavingForOdd.registers.get register) ∧
      left.logicalStackPointer .user =
        leavingForOdd.logicalStackPointer .user := by
  have fits : leavingForOdd.MasterFits := by
    unfold MasterFits
    decide
  have run : Execution.enterException .short 4 leavingForOdd =
      .error .addressError _ := rfl
  have failed := Execution.enterException_failed run
  exact ⟨_, run, failed.1, failed.2.2.1 fits .user (by decide)⟩

/-- The program counter does not go back. -/
theorem leavingForOdd_moves :
    ∃ left,
      Execution.enterException .short 4 leavingForOdd =
        .error .addressError left ∧
      leavingForOdd.registers.pc = 8 ∧ left.registers.pc = 33 :=
  ⟨_, rfl, by decide, by decide⟩

end Machine

end M68k

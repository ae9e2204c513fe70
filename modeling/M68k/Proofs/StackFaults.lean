import M68k.Memory.Flat
import M68k.Proofs.DecodedModes
import M68k.Proofs.FetchExecutions
import M68k.Proofs.StepPhases

/-!
# Faults of stack instructions

An instruction that faulted can be executed again if the fault left nothing but
the words that were fetched and what the memory did.  Executions that only fetch
and read are so at every point; a change is harmless once nothing after it can
fault.

Calls, returns and stack frames are built that way, apart from two: RTR restores
the condition codes before it reads the return address, and UNLK moves the stack
pointer before it reads the saved register.
-/

namespace M68k

/-- What a fault leaves of the machine that a stack instruction found.  RTR has
restored the condition codes and has passed them on the stack, if it could read
them; UNLK has moved the stack pointer to the frame.  The others have changed
nothing. -/
def Machine.afterStackFault {σ : Type} [Memory σ] (machine : Machine σ) :
    Instruction → Machine σ
  | .rtr =>
      match Execution.pop .word machine with
      | .error _ _ => machine
      | .ok codes _ =>
          setConditionCodes
            { machine with
              registers := machine.registers.setStackPointer
                (machine.registers.stackPointer + 2) }
            (.ofByte codes.toUInt8)
  | .unlk number =>
      { machine with
        registers := machine.registers.setStackPointer
          (machine.registers.get (.address number)) }
  | _ => machine

/-- Calls, returns and the instructions that open and close stack frames. -/
def Instruction.isStack : Instruction → Bool
  | bsr _ | jsr _ | pea _ | link _ | linkLong _ | unlk _ | rts | rtr | rtd
  | rte => true
  | _ => false

namespace Execution

variable {σ α β : Type}

/-! ## Executions that cannot fault -/

/-- An execution ends with a value, whatever the machine. -/
def Completes (execution : Execution σ α) : Prop :=
  ∀ machine, ∃ value left, execution machine = .ok value left

namespace Completes

theorem pure (value : α) : Completes (Pure.pure value : Execution σ α) :=
  fun machine => ⟨value, machine, rfl⟩

theorem observe (view : Machine σ → α) : Completes (Execution.observe view) :=
  fun machine => ⟨view machine, machine, rfl⟩

theorem update (change : Machine σ → Machine σ) :
    Completes (Execution.update change) :=
  fun machine => ⟨(), change machine, rfl⟩

theorem bind {first : Execution σ α} {next : α → Execution σ β}
    (completes : Completes first) (goesOn : ∀ value, Completes (next value)) :
    Completes (first >>= next) := by
  intro machine
  obtain ⟨value, left, run⟩ := completes machine
  obtain ⟨final, last, lastRun⟩ := goesOn value left
  refine ⟨final, last, ?_⟩
  rw [bind_apply, run]
  exact lastRun

end Completes

/-! ## Executions whose faults leave nothing -/

/-- If an execution ends with a fault, it has only fetched. -/
def Restartable (execution : Execution σ α) : Prop :=
  ∀ ⦃machine fault left⦄, execution machine = .error fault left →
    OnlyFetched machine left

theorem Fetches.restartable [Memory σ] {execution : Execution σ α}
    (fetches : Fetches execution) : Restartable execution := by
  intro machine fault left run
  have ends := fetches machine
  rw [run] at ends
  exact ends.onlyFetched

theorem Completes.restartable {execution : Execution σ α}
    (completes : Completes execution) : Restartable execution := by
  intro machine fault left run
  obtain ⟨value, final, completed⟩ := completes machine
  rw [run] at completed
  cases completed

/-- What comes after fetches starts from a machine that has only fetched. -/
theorem Fetches.bind_restartable [Memory σ] {first : Execution σ α}
    {next : α → Execution σ β} (fetches : Fetches first)
    (goesOn : ∀ value, Restartable (next value)) :
    Restartable (first >>= next) := by
  intro machine fault left run
  have ends := fetches machine
  rw [bind_apply] at run
  cases begun : first machine with
  | error stopped after =>
      rw [begun] at ends run
      cases run
      exact ends.onlyFetched
  | ok value after =>
      rw [begun] at ends run
      exact ends.onlyFetched.trans (goesOn value run)

/-- After a change, nothing can fault any more. -/
theorem Restartable.bind_completes {first : Execution σ α}
    {next : α → Execution σ β} (restartable : Restartable first)
    (goesOn : ∀ value, Completes (next value)) :
    Restartable (first >>= next) := by
  intro machine fault left run
  rw [bind_apply] at run
  cases begun : first machine with
  | error stopped after =>
      rw [begun] at run
      cases run
      exact restartable begun
  | ok value after =>
      rw [begun] at run
      obtain ⟨final, last, completed⟩ := goesOn value after
      cases completed.symm.trans run

/-! ## Stack instructions -/

section

variable [Memory σ]

theorem restartable_writeData (address value : UInt32) (size : OperandSize) :
    Restartable (σ := σ) (writeData address size value) := by
  intro machine fault left run
  have ends := ends_writeIn machine.dataSpace address size value machine
  have refused : writeIn machine.dataSpace address size value machine =
      .error fault left := run
  rw [refused] at ends
  exact .ofMemory ends

theorem restartable_push (size : OperandSize) (value : UInt32) :
    Restartable (σ := σ) (push size value) := by
  refine (Fetches.observe _).bind_restartable fun pointer => ?_
  exact (restartable_writeData _ _ _).bind_completes fun _ => .update _

theorem restartable_pop (size : OperandSize) :
    Restartable (σ := σ) (pop size) := by
  refine (Fetches.observe _).bind_restartable fun pointer => ?_
  refine (Fetches.readData _ _).restartable.bind_completes fun value => ?_
  exact .bind (.update _) fun _ => .pure value

theorem restartable_callSubroutine (target : UInt32) :
    Restartable (σ := σ) (callSubroutine target) := by
  refine (Fetches.observe _).bind_restartable fun address => ?_
  exact (restartable_push _ _).bind_completes fun _ => .update _

theorem restartable_bsr (displacement : UInt8) :
    Restartable (σ := σ) (bsr displacement) :=
  (Fetches.branchTarget displacement).bind_restartable
    restartable_callSubroutine

theorem restartable_jsr {target : AddressingMode}
    (control : target.isControl = true) :
    Restartable (σ := σ) (jsr target) :=
  (Fetches.resolveAddress control .long).bind_restartable
    restartable_callSubroutine

theorem restartable_pea {address : AddressingMode}
    (control : address.isControl = true) :
    Restartable (σ := σ) (pea address) :=
  (Fetches.resolveAddress control .long).bind_restartable
    (restartable_push .long)

theorem restartable_rts : Restartable (σ := σ) rts :=
  (restartable_pop .long).bind_completes fun _ => .update _

theorem restartable_rtd : Restartable (σ := σ) rtd := by
  refine Fetches.fetchDisplacement.bind_restartable fun displacement => ?_
  refine (restartable_pop .long).bind_completes fun address => ?_
  exact .bind (.update _) fun _ => .bind (.observe _) fun _ => .update _

/-- Everything on the stack is read before the first change. -/
theorem restartable_rte : Restartable (σ := σ) rte := by
  refine (Fetches.observe _).bind_restartable fun pointer => ?_
  refine (Fetches.readData _ _).bind_restartable fun format => ?_
  cases frameSize? (format.toUInt16 >>> 12) with
  | none => exact (Fetches.throw _).restartable
  | some size =>
      refine (Fetches.readData _ _).bind_restartable fun status => ?_
      refine (Fetches.readData _ _).restartable.bind_completes fun address => ?_
      exact .bind (.update _) fun _ => .bind (.update _) fun _ => .update _

theorem restartable_linkBy (number : Fin 8) (displacement : UInt32) :
    Restartable (σ := σ) (linkBy number displacement) := by
  refine (Fetches.observe _).bind_restartable fun value => ?_
  refine (restartable_push _ _).bind_completes fun _ => ?_
  refine .bind (.observe _) fun pointer => .bind (.update _) fun _ => ?_
  exact .bind (.observe _) fun _ => .update _

/-- A value that was popped moved the stack pointer past it. -/
theorem pop_eq_ok {machine left : Machine σ} {size : OperandSize}
    {value : UInt32} (run : pop size machine = .ok value left) :
    OnlyMemory
      { machine with
        registers := machine.registers.setStackPointer
          (machine.registers.stackPointer + UInt32.ofNat size.bytes) }
      left := by
  have ends := ends_readIn machine.dataSpace machine.registers.stackPointer
    size machine
  have stages : pop size machine =
      (readIn machine.dataSpace machine.registers.stackPointer size >>=
        fun value => setRegister .stackPointer
          (machine.registers.stackPointer + UInt32.ofNat size.bytes) >>=
            fun _ => pure value) machine := rfl
  rw [stages, bind_apply] at run
  cases read : readIn machine.dataSpace machine.registers.stackPointer size
      machine with
  | error fault after =>
      rw [read] at run
      cases run
  | ok found after =>
      rw [read] at ends run
      obtain ⟨memory, rfl⟩ := ends
      cases run
      exact ⟨memory, rfl⟩

/-- A return that restores condition codes has restored them, if it could, when
it reads its return address. -/
theorem rtr_error {machine left : Machine σ} {fault : Fault}
    (run : rtr machine = .error fault left) :
    OnlyFetched (machine.afterStackFault .rtr) left := by
  rw [rtr, bind_apply] at run
  rw [Machine.afterStackFault]
  cases first : pop .word machine with
  | error stopped after =>
      rw [first] at run
      cases run
      exact restartable_pop .word first
  | ok codes popped =>
      rw [first] at run
      have rest : Restartable (σ := σ) (pop .long >>= setPc) :=
        (restartable_pop .long).bind_completes fun _ => .update _
      obtain ⟨memory, rfl⟩ := pop_eq_ok first
      refine OnlyFetched.trans ?_ (rest run)
      exact .ofMemory ⟨memory, rfl⟩

/-- A stack frame is closed by moving the stack pointer to it before the saved
register is read. -/
theorem unlk_error {machine left : Machine σ} {number : Fin 8} {fault : Fault}
    (run : unlk number machine = .error fault left) :
    OnlyFetched (machine.afterStackFault (.unlk number)) left := by
  have rest : Restartable (σ := σ) (pop .long >>= fun saved =>
      setRegister (.address number) saved) :=
    (restartable_pop .long).bind_completes fun _ => .update _
  exact rest run

end

end Execution

/-- A stack instruction that faults has only fetched, and can be executed again
with the stack that it found, unless it is RTR or UNLK: what these changed is
not undone. -/
theorem Execution.stackInstruction_faulted {σ : Type} [Memory σ]
    {machine left : Machine σ} {instruction : Instruction} {fault : Fault}
    (decoded : Instruction.decode? machine.opcode = some instruction)
    (stack : instruction.isStack = true)
    (run : executeOpcode machine = .error fault left) :
    OnlyFetched (machine.afterStackFault instruction) left := by
  have modes := Instruction.takesItsModes_of_decode? decoded
  have restarts (restartable : Restartable (σ := σ) instruction.execute) :
      OnlyFetched machine left := by
    rw [executeOpcode] at run
    split at run
    · cases run
      exact .refl machine
    · rename_i admitted found
      obtain rfl : instruction = admitted :=
        Option.some.inj
          (decoded.symm.trans (Instruction.admit_eq_ok found).1)
      exact restartable run
  have executed (old : instruction.since = .mc68000)
      (unreserved : instruction.privilegedSince? = none) :
      instruction.execute machine = .error fault left := by
    rw [← run, executeOpcode_of_admitted
      (Instruction.admit_of_decode? decoded old unreserved _ _)]
  cases instruction with
  | bsr displacement => exact restarts (restartable_bsr displacement)
  | jsr target => exact restarts (restartable_jsr modes)
  | pea address => exact restarts (restartable_pea modes)
  | link number =>
      exact restarts (Fetches.fetchDisplacement.bind_restartable
        (restartable_linkBy number))
  | linkLong number =>
      exact restarts (Fetches.fetchLong.bind_restartable
        (restartable_linkBy number))
  | rts => exact restarts restartable_rts
  | rtd => exact restarts restartable_rtd
  | rte => exact restarts restartable_rte
  | rtr => exact rtr_error (executed rfl rfl)
  | unlk number => exact unlk_error (executed rfl rfl)
  | _ => cases stack

namespace Machine

/-- A machine about to call a subroutine with a stack that is not in memory. -/
def callingUnmapped : Machine FlatMemory where
  model := .mc68000
  opcode := 0x4EB8
  memory := ⟨#[0x20, 0x00]⟩

theorem callingUnmapped_faulted :
    ∃ left,
      Execution.executeOpcode callingUnmapped = .error .busError left ∧
        OnlyFetched callingUnmapped left := by
  have decoded : Instruction.decode? callingUnmapped.opcode =
      some (.jsr .absoluteShort) := by decide
  have run : Execution.executeOpcode callingUnmapped =
      .error .busError (callingUnmapped.withPc 2) := rfl
  exact ⟨_, run, Execution.stackInstruction_faulted decoded rfl run⟩

/-- A machine about to return over the end of memory. -/
def returningOverEnd : Machine FlatMemory where
  model := .mc68000
  opcode := 0x4E77
  registers := { address := #v[0, 0, 0, 0, 0, 0, 0, 2] }
  memory := ⟨#[0x00, 0x00, 0x00, 0x1F]⟩

/-- A machine about to close a stack frame that is not in memory. -/
def unlinkingUnmapped : Machine FlatMemory where
  model := .mc68000
  opcode := 0x4E5E
  registers := { address := #v[0, 0, 0, 0, 0, 0, 8, 4] }
  memory := ⟨#[]⟩

/-- Neither finds its stack pointer again, and the first not its condition codes
either. -/
theorem stackFault_changes :
    (∃ left,
      Execution.executeOpcode returningOverEnd = .error .busError left ∧
        returningOverEnd.registers.stackPointer = 2 ∧
        left.registers.stackPointer = 4 ∧
        returningOverEnd.status.toWord = 0 ∧ left.status.toWord = 0x1F) ∧
      ∃ left,
        Execution.executeOpcode unlinkingUnmapped = .error .busError left ∧
          unlinkingUnmapped.registers.stackPointer = 4 ∧
          left.registers.stackPointer = 8 :=
  ⟨⟨_, rfl, by decide, by decide, by decide, by decide⟩,
    _, rfl, by decide, by decide⟩

end Machine

end M68k

import M68k.Proofs.BreakpointOpcodes
import M68k.Proofs.DetachedMachine

/-!
# Coherence of the prefetched opcode

The opcode that a running machine holds is the word in memory at the program
counter, also when the instruction before has just written that word: every way
in which a step, an interrupt or a reset ends fetches the opcode last.  The one
exception is a breakpoint that no handler served.
-/

namespace M68k

namespace Machine

/-! ## The word at the program counter -/

/-- The opcode is the word in memory at the program counter. -/
structure HoldsNextWord (machine : Machine FlatMemory) : Prop where
  even : machine.registers.pc % 2 = 0
  word : machine.memory.run? machine.registers.pc 2 =
    some (bytesOfWord machine.opcode)

/-- The program counter is at a breakpoint, and the opcode is its substitute. -/
structure AtBreakpoint (machine : Machine FlatMemory) (vector : Fin 8) :
    Prop where
  even : machine.registers.pc % 2 = 0
  opcode : machine.opcode = 0x4AFC
  word : machine.memory.run? machine.registers.pc 2 =
    some (bytesOfWord (0x4848 + UInt16.ofNat vector.val))

section

variable {machine left : Machine FlatMemory} {model : Model}

theorem holdsNextWord_of_prefetch
    (run : Execution.prefetch machine = .ok () left) : left.HoldsNextWord := by
  obtain ⟨even, word, found, rfl⟩ := Execution.prefetch_flat.mp run
  exact ⟨even, found⟩

theorem holdsNextWord_of_enterException {frame : ExceptionFrame}
    {vectorOffset : UInt16}
    (run : Execution.enterException frame vectorOffset machine =
      .ok () left) : left.HoldsNextWord := by
  obtain ⟨-, framed, handler, read, -, -, fetching⟩ :=
    Execution.enterException_eq_ok run
  exact holdsNextWord_of_prefetch fetching

/-- A breakpoint in memory whose opcode is held is met, and not passed. -/
theorem HoldsNextWord.atBreakpoint (holds : machine.HoldsNextWord)
    {vector : Fin 8}
    (decoded : Instruction.decode? machine.opcode = some (.bkpt vector)) :
    AtBreakpoint
      { (machine.withPc (machine.registers.pc + 2)).withPc
          (machine.registers.pc + 2 - 2) with
        opcode := Execution.illegalOpcode } vector := by
  have back : machine.registers.pc + 2 - 2 = machine.registers.pc := by
    rw [UInt32.add_sub_cancel]
  have opcode := Instruction.decode?_eq_bkpt_iff.mp decoded
  rw [back]
  refine ⟨holds.even, rfl, ?_⟩
  rw [← opcode]
  exact holds.word

/-- A breakpoint's substitute is no breakpoint. -/
theorem AtBreakpoint.decode_ne {vector : Fin 8}
    (substituted : machine.AtBreakpoint vector) (number : Fin 8) :
    Instruction.decode? machine.opcode ≠ some (.bkpt number) := by
  rw [substituted.opcode]
  revert number
  decide

/-- How a step ends that leaves the machine running. -/
theorem step_coherent (detached : machine.Detached model)
    (coherent : machine.HoldsNextWord ∨ ∃ vector, machine.AtBreakpoint vector)
    (running : machine.step.condition = .running) :
    machine.step.HoldsNextWord ∨
      ∃ vector, machine.HoldsNextWord ∧
        Instruction.decode? machine.opcode = some (.bkpt vector) ∧
          .mc68010 ≤ model ∧ machine.step.AtBreakpoint vector := by
  rw [step_eq_enterPending] at running ⊢
  cases phases : machine.beforeEntry with
  | mk left pending =>
      rw [phases] at running
      cases pending with
      | some pending =>
          rw [enterPending] at running ⊢
          cases run : Execution.enterException pending.frame
              pending.vectorOffset left with
          | ok value entered =>
              exact .inl (holdsNextWord_of_enterException run)
          | error fault entered =>
              rw [run] at running
              cases running
      | none =>
          rcases beforeEntry_eq_none phases with stopped | halted |
            ⟨executed, fetching⟩
          · have begun : Detached model
                (machine.withPc (machine.registers.pc + 2)) :=
              ⟨detached.model, detached.handler⟩
            obtain ⟨vector, decoded, present, rfl⟩ :=
              begun.executeOpcode_eq_breakpoint stopped
            rcases coherent with holds | ⟨number, substituted⟩
            · exact .inr ⟨vector, holds, decoded, present,
                holds.atBreakpoint decoded⟩
            · exact absurd decoded (substituted.decode_ne vector)
          · exact absurd running halted
          · exact .inl (holdsNextWord_of_prefetch fetching)

theorem interrupt_coherent (level : UInt8)
    (running : (machine.interrupt level).2.condition = .running) :
    (machine.interrupt level).2 = machine ∨
      (machine.interrupt level).2.HoldsNextWord := by
  rcases machine.interrupt_cases level with ⟨-, refused⟩ |
    ⟨-, ⟨entered, run, taken⟩ | ⟨fault, entered, run, failed⟩⟩
  · rw [refused]
    exact .inl rfl
  · have holds := holdsNextWord_of_enterException run
    rw [taken]
    exact .inr ⟨holds.even, holds.word⟩
  · rw [failed] at running
    cases running

theorem reset_coherent (running : machine.reset.condition = .running) :
    machine.reset.HoldsNextWord := by
  rw [reset] at running ⊢
  cases run : loadResetVectors machine.cleared with
  | ok value started =>
      obtain ⟨loaded, fetching⟩ := loadResetVectors_eq_ok run
      have holds := holdsNextWord_of_prefetch fetching
      exact ⟨holds.even, holds.word⟩
  | error fault left =>
      rw [run] at running
      cases running

end

end Machine

/-! ## Sequences of calls -/

namespace Emulator

variable {start emulator : Emulator FlatMemory} {model : Model}

/-- The emulator has just met a breakpoint that no handler served. -/
def PausedAt (start : Emulator FlatMemory) (machine : Machine FlatMemory)
    (vector : Fin 8) : Prop :=
  ∃ earlier, (start.after earlier).canStep = true ∧
    (start.after earlier).machine.HoldsNextWord ∧
    Instruction.decode? (start.after earlier).machine.opcode =
        some (.bkpt vector) ∧
      machine = (start.after earlier).step.2.machine

/-- What holds of every emulator that calls lead to. -/
structure Coherent (start : Emulator FlatMemory) (model : Model)
    (emulator : Emulator FlatMemory) : Prop where
  reached : ∃ calls, start.after calls = emulator
  detached : emulator.machine.Detached model
  held : emulator.machine.condition = .running →
    emulator.machine.HoldsNextWord ∨
      ∃ vector, .mc68010 ≤ model ∧ emulator.machine.AtBreakpoint vector ∧
        start.PausedAt emulator.machine vector

theorem Coherent.step (coherent : start.Coherent model emulator) :
    start.Coherent model emulator.step.2 := by
  obtain ⟨calls, rfl⟩ := coherent.reached
  have reached : start.after (calls ++ [.step]) = (start.after calls).step.2 :=
    start.after_concat calls .step
  by_cases canStep : (start.after calls).canStep = true
  · have stepped : (start.after calls).step.2.machine =
        (start.after calls).machine.step := by
      rw [machine_step, if_pos canStep]
    refine ⟨⟨_, reached⟩, stepped ▸ coherent.detached.step, ?_⟩
    intro running
    rw [stepped] at running ⊢
    have held := (coherent.held (running_of_canStep canStep)).imp_right
      fun ⟨vector, _, paused, _⟩ => Exists.intro vector paused
    rcases Machine.step_coherent coherent.detached held running with
      holds | ⟨vector, holds, decoded, present, paused⟩
    · exact .inl holds
    · exact .inr ⟨vector, present, paused, calls, canStep, holds, decoded,
        stepped.symm⟩
  · have still : (start.after calls).step.2.machine =
        (start.after calls).machine := by
      rw [machine_step, if_neg canStep]
    refine ⟨⟨_, reached⟩, still ▸ coherent.detached, ?_⟩
    rw [still]
    exact coherent.held

theorem Coherent.interrupt (coherent : start.Coherent model emulator)
    (level : UInt8) : start.Coherent model (emulator.interrupt level).2 := by
  obtain ⟨calls, rfl⟩ := coherent.reached
  refine ⟨⟨_, start.after_concat calls (.interrupt level)⟩,
    coherent.detached.interrupt level, ?_⟩
  intro running
  rcases Machine.interrupt_coherent level running with unchanged | holds
  · have same : ((start.after calls).interrupt level).2.machine =
        (start.after calls).machine := unchanged
    rw [same] at running ⊢
    exact coherent.held running
  · exact .inl holds

theorem Coherent.reset (coherent : start.Coherent model emulator) :
    start.Coherent model emulator.reset := by
  obtain ⟨calls, rfl⟩ := coherent.reached
  refine ⟨⟨_, start.after_concat calls .reset⟩, coherent.detached.reset, ?_⟩
  exact fun running => .inl (Machine.reset_coherent running)

/-- Whatever a host calls, a running machine holds the word in memory at its
program counter, or has just met a breakpoint there that no handler served. -/
theorem prefetch_coherent (model : Model) (memory : FlatMemory)
    (limit : Option UInt64) (calls : List HostCall)
    (running : ((new model memory limit).after calls).machine.condition =
      .running) :
    let start := new model memory limit
    let machine := (start.after calls).machine
    machine.HoldsNextWord ∨
      ∃ vector, .mc68010 ≤ model ∧ machine.AtBreakpoint vector ∧
        start.PausedAt machine vector := by
  intro start machine
  have begun : start.Coherent model start := by
    refine ⟨⟨[], rfl⟩, ⟨rfl, rfl⟩, ?_⟩
    intro running
    cases running
  have coherent : start.Coherent model (start.after calls) :=
    after_property (fun _ => Coherent.reset) (fun _ => Coherent.step)
      (fun _ => Coherent.interrupt) begun calls
  exact coherent.held running

/-- An instruction that writes a NOP over the next one. -/
def overwriting : FlatMemory :=
  ⟨#[0, 0, 0, 0, 0, 0, 0, 8, 0x31, 0xFC, 0x4E, 0x71, 0, 14, 0, 0]⟩

theorem overwriting_prefetch :
    let machine := ((new .mc68000 overwriting).after [.reset, .step]).machine
    machine.opcode = 0x4E71 ∧ machine.HoldsNextWord := by
  intro machine
  have opcode : machine.opcode = 0x4E71 := by decide +kernel
  rcases prefetch_coherent .mc68000 overwriting none [.reset, .step]
      (by decide +kernel) with holds | ⟨vector, present, -, -⟩
  · exact ⟨opcode, holds⟩
  · exact absurd present (by decide)

end Emulator

end M68k

import M68k.Proofs.InstructionLimit
import M68k.Proofs.PrefetchCoherence
import M68k.Proofs.RegisterLists

/-!
# Counting loops of one instruction

A DBcc that branches to itself counts a data register's low word down, once in
each step.  The word is tested after it was counted, so the loop ends with the
step that takes it from zero to 0xFFFF, or with the first step if the condition
holds.
-/

namespace M68k

namespace OperandSize

/-- Replacing the word in a long keeps the high word. -/
theorem merge_word (kept : UInt32) (value : UInt16) :
    word.merge kept value.toUInt32 = joinWords (highWord kept) value := by
  apply UInt32.toNat_inj.mp
  have sized : word ≠ .unsized := by decide
  have above := merge_div sized kept value.toUInt32
  have below := number_merge sized kept value.toUInt32
  have bound := value.toNat_lt
  simp only [number, bits, bytes, UInt16.toNat_toUInt32] at above below
  rw [toNat_joinWords, toNat_highWord]
  omega

end OperandSize

namespace Machine

/-- The low word of a data register. -/
def count {σ : Type} (machine : Machine σ) (counter : Fin 8) : UInt16 :=
  (machine.registers.get (.data counter)).toUInt16

/-- The machine with another low word in a data register. -/
def withCount {σ : Type} (machine : Machine σ) (counter : Fin 8)
    (count : UInt16) : Machine σ :=
  { machine with
    registers := machine.registers.set (.data counter)
      (joinWords (highWord (machine.registers.get (.data counter))) count) }

/-- The machine behind an instruction of two words, with the next opcode
fetched. -/
def past {σ : Type} (machine : Machine σ) (opcode : UInt16) : Machine σ :=
  { machine.withPc (machine.registers.pc + 4) with opcode }

section

variable {σ : Type} (machine : Machine σ) (counter : Fin 8)

theorem toNat_count :
    (machine.count counter).toNat =
      (machine.registers.get (.data counter)).toNat % 2 ^ 16 := by
  rw [Machine.count, UInt32.toNat_toUInt16]

@[simp]
theorem count_withCount (count : UInt16) :
    (machine.withCount counter count).count counter = count := by
  rw [Machine.count, withCount, Registers.get_set_self, toUInt16_joinWords]

@[simp]
theorem withCount_withCount (first second : UInt16) :
    (machine.withCount counter first).withCount counter second =
      machine.withCount counter second := by
  simp only [withCount, Registers.get_set_self, highWord_joinWords,
    Registers.set_set_self]

@[simp]
theorem withCount_count :
    machine.withCount counter (machine.count counter) = machine := by
  rw [withCount, Machine.count, joinWords_highWord, Registers.set_get_self]

end

end Machine

/-- A word that is zero before it is counted down is 0xFFFF afterwards. -/
theorem sub_one_eq_last_iff (count : UInt16) :
    count - 1 = 0xFFFF ↔ count = 0 := by
  constructor
  · intro last
    rw [← UInt16.sub_add_cancel count 1, last]
    rfl
  · rintro rfl
    rfl

/-- What counting and branching does once the displacement is fetched. -/
theorem Execution.dbcc_of_fetchWord {σ : Type} [Memory σ]
    {machine left : Machine σ} {displacement : UInt16}
    (fetched : fetchWord machine = .ok displacement left)
    (condition : Condition) (counter : Fin 8) :
    dbcc condition counter machine =
      .ok ()
        (if condition.holds left.status.codes.flags then left
        else if left.count counter = 0 then left.withCount counter 0xFFFF
        else
          (left.withCount counter (left.count counter - 1)).withPc
            (machine.registers.pc + signExtendWord displacement)) := by
  have last := sub_one_eq_last_iff (left.count counter)
  simp only [dbcc, fetchDisplacement, pc, observe, bind_apply, fetched,
    pure_apply, test, ite_apply, register, setRegister, setPc, update,
    OperandSize.merge_word, ne_eq, ite_not]
  by_cases holds : condition.holds left.status.codes.flags = true
  · rw [if_pos holds, if_pos holds]
  · rw [if_neg holds, if_neg holds]
    by_cases zero : left.count counter = 0
    · have counted := last.mpr zero
      rw [Machine.count] at counted
      rw [if_pos counted, if_pos zero, counted]
      rfl
    · have counted := mt last.mp zero
      rw [Machine.count] at counted
      rw [if_neg counted, if_neg zero]
      rfl

/-! ## One turn -/

namespace Machine

/-- A running machine at an instruction that counts and branches to itself, with
another instruction behind. -/
structure CountsInPlace (machine : Machine FlatMemory) (condition : Condition)
    (counter : Fin 8) (next : UInt16) : Prop where
  running : machine.condition = .running
  untraced : machine.status.trace = false
  fetched : machine.HoldsNextWord
  decoded : Instruction.decode? machine.opcode = some (.dbcc condition counter)
  displacement : machine.memory.run? (machine.registers.pc + 2) 2 =
    some (bytesOfWord 0xFFFE)
  next : machine.memory.run? (machine.registers.pc + 4) 2 =
    some (bytesOfWord next)

namespace CountsInPlace

variable {machine : Machine FlatMemory} {condition : Condition}
  {counter : Fin 8} {next : UInt16}

/-- A loop is a loop whatever its count is. -/
theorem withCount (loop : machine.CountsInPlace condition counter next)
    (count : UInt16) :
    (machine.withCount counter count).CountsInPlace condition counter next where
  running := loop.running
  untraced := loop.untraced
  fetched := ⟨loop.fetched.even, loop.fetched.word⟩
  decoded := loop.decoded
  displacement := loop.displacement
  next := loop.next

/-- The branch leads back, because the displacement counts from the word that
holds it. -/
theorem executeOpcode (loop : machine.CountsInPlace condition counter next) :
    Execution.executeOpcode (machine.withPc (machine.registers.pc + 2)) =
      .ok ()
        (if condition.holds machine.status.codes.flags then
          machine.withPc (machine.registers.pc + 4)
        else if machine.count counter = 0 then
          (machine.withCount counter 0xFFFF).withPc (machine.registers.pc + 4)
        else machine.withCount counter (machine.count counter - 1)) := by
  have behind : machine.registers.pc + 2 + 2 = machine.registers.pc + 4 :=
    UInt32.add_assoc _ 2 2
  have back : machine.registers.pc + 2 + signExtendWord 0xFFFE =
      machine.registers.pc := by
    have inverse : 2 + signExtendWord 0xFFFE = 0 := by decide
    rw [UInt32.add_assoc, inverse, UInt32.add_zero]
  have fetched : Execution.fetchWord
      (machine.withPc (machine.registers.pc + 2)) =
        .ok 0xFFFE (machine.withPc (machine.registers.pc + 4)) := by
    rw [← behind]
    exact Execution.fetchWord_flat (even_add_two loop.fetched.even)
      loop.displacement
  have admitted : Instruction.admit
      (machine.withPc (machine.registers.pc + 2)).opcode machine.model
      machine.isSupervisor = .ok (.dbcc condition counter) :=
    Instruction.admit_of_decode? loop.decoded rfl rfl _ _
  refine (Execution.executeOpcode_of_admitted admitted).trans ?_
  refine (Execution.dbcc_of_fetchWord fetched condition counter).trans ?_
  have returned : (machine.withCount counter (machine.count counter - 1)).withPc
      (machine.registers.pc + 2 + signExtendWord 0xFFFE) =
        machine.withCount counter (machine.count counter - 1) := by
    rw [back]
    rfl
  rw [← returned]
  rfl

theorem prefetch_past (loop : machine.CountsInPlace condition counter next) :
    Execution.prefetch (machine.withPc (machine.registers.pc + 4)) =
      .ok () (machine.past next) := by
  have even : (machine.registers.pc + 4) % 2 = 0 := by
    have behind := even_add_two (even_add_two loop.fetched.even)
    rwa [UInt32.add_assoc] at behind
  exact Execution.prefetch_flat.mpr ⟨even, next, loop.next, rfl⟩

theorem step_of_holds (loop : machine.CountsInPlace condition counter next)
    (holds : condition.holds machine.status.codes.flags = true) :
    machine.step = machine.past next := by
  have executed := loop.executeOpcode
  rw [if_pos holds] at executed
  exact step_of_executeOpcode executed loop.running loop.untraced
    loop.prefetch_past

theorem step_of_zero (loop : machine.CountsInPlace condition counter next)
    (fails : condition.holds machine.status.codes.flags = false)
    (zero : machine.count counter = 0) :
    machine.step = (machine.withCount counter 0xFFFF).past next := by
  have executed := loop.executeOpcode
  rw [fails, if_neg Bool.false_ne_true, if_pos zero] at executed
  exact step_of_executeOpcode executed loop.running loop.untraced
    (loop.withCount 0xFFFF).prefetch_past

/-- The branch fetches the instruction that is executed already. -/
theorem step_of_pos (loop : machine.CountsInPlace condition counter next)
    (fails : condition.holds machine.status.codes.flags = false)
    (positive : machine.count counter ≠ 0) :
    machine.step = machine.withCount counter (machine.count counter - 1) := by
  have executed := loop.executeOpcode
  rw [fails, if_neg Bool.false_ne_true, if_neg positive] at executed
  exact step_of_executeOpcode executed loop.running loop.untraced
    (Execution.prefetch_flat.mpr
      ⟨loop.fetched.even, machine.opcode, loop.fetched.word, rfl⟩)

end CountsInPlace

end Machine

/-! ## The whole loop -/

namespace Emulator

/-- The emulator after turns that branched. -/
def turned {σ : Type} (emulator : Emulator σ) (counter : Fin 8)
    (turns : Nat) : Emulator σ :=
  { emulator with
    machine := emulator.machine.withCount counter
      (emulator.machine.count counter - UInt16.ofNat turns)
    retired := emulator.retired + UInt64.ofNat turns }

variable {emulator : Emulator FlatMemory} {condition : Condition}
  {counter : Fin 8} {next : UInt16}

theorem turned_zero : emulator.turned counter 0 = emulator := by
  simp [turned]

theorem count_turned (turns : Nat) :
    (emulator.turned counter turns).machine.count counter =
      emulator.machine.count counter - UInt16.ofNat turns :=
  Machine.count_withCount _ _ _

private theorem retired_add_one (retired : UInt64) (turns : Nat) :
    retired + UInt64.ofNat turns + 1 = retired + UInt64.ofNat (turns + 1) := by
  rw [UInt64.ofNat_add, UInt64.add_assoc]
  rfl

theorem toNat_count_turned {turns : Nat}
    (within : turns ≤ (emulator.machine.count counter).toNat) :
    ((emulator.turned counter turns).machine.count counter).toNat =
      (emulator.machine.count counter).toNat - turns := by
  have width := (emulator.machine.count counter).toNat_lt
  have small : (UInt16.ofNat turns).toNat = turns :=
    UInt16.toNat_ofNat_of_lt' (by rw [UInt16.size]; omega)
  rw [count_turned, UInt16.toNat_sub_of_le _ _
    (UInt16.le_iff_toNat_le.mpr (small.trans_le within)), small]

section

variable
  (loop : emulator.machine.CountsInPlace condition counter next)
  (fails : condition.holds emulator.machine.status.codes.flags = false)
  {turns : Nat}
  (allowed : emulator.Allows ((emulator.machine.count counter).toNat + 1))

include loop fails allowed

theorem step_turned (within : turns < (emulator.machine.count counter).toNat) :
    (emulator.turned counter turns).step.2 =
      emulator.turned counter (turns + 1) := by
  have looping : (emulator.turned counter turns).machine.CountsInPlace
      condition counter next := loop.withCount _
  have positive : (emulator.turned counter turns).machine.count counter ≠ 0 := by
    intro zero
    have left : ((emulator.turned counter turns).machine.count counter).toNat =
        _ := toNat_count_turned within.le
    rw [zero, UInt16.toNat_zero] at left
    omega
  rw [step_of_allows allowed (by omega) looping.running rfl rfl,
    looping.step_of_pos fails positive, count_turned]
  have counted : emulator.machine.count counter - UInt16.ofNat turns - 1 =
      emulator.machine.count counter - UInt16.ofNat (turns + 1) := by
    rw [UInt16.ofNat_add]
    grind
  simp only [turned, counted, retired_add_one, Machine.withCount_withCount]

/-- Every turn but the last counts by one and branches. -/
theorem runSteps_turned
    (within : turns ≤ (emulator.machine.count counter).toNat) :
    emulator.runSteps turns = emulator.turned counter turns := by
  induction turns with
  | zero => exact turned_zero.symm
  | succ turns induction =>
      rw [runSteps_concat, induction (by omega),
        step_turned loop fails allowed (by omega)]

/-- The last turn takes the count from zero to the largest word. -/
theorem runSteps_last :
    emulator.runSteps ((emulator.machine.count counter).toNat + 1) =
      { emulator with
        machine := (emulator.machine.withCount counter 0xFFFF).past next
        retired := emulator.retired +
          UInt64.ofNat ((emulator.machine.count counter).toNat + 1) } := by
  have zero : (emulator.turned counter
      (emulator.machine.count counter).toNat).machine.count counter = 0 := by
    apply UInt16.toNat_inj.mp
    rw [toNat_count_turned (Nat.le_refl _), Nat.sub_self]
    rfl
  have looping : (emulator.turned counter
      (emulator.machine.count counter).toNat).machine.CountsInPlace
        condition counter next := loop.withCount _
  rw [runSteps_concat, runSteps_turned loop fails allowed (Nat.le_refl _),
    step_of_allows allowed (Nat.lt_succ_self _) looping.running rfl rfl,
    looping.step_of_zero fails zero]
  simp only [turned, Machine.withCount_withCount, retired_add_one]

end

/-- How often a loop executes its instruction. -/
def loopSteps (emulator : Emulator FlatMemory) (condition : Condition)
    (counter : Fin 8) : Nat :=
  if condition.holds emulator.machine.status.codes.flags then 1
  else (emulator.machine.registers.get (.data counter)).toNat % 2 ^ 16 + 1

/-- A loop stays at its instruction, and then leaves it with nothing changed but
the program counter, the opcode and the low word of the counter. -/
structure RunsLoop (emulator : Emulator FlatMemory) (condition : Condition)
    (counter : Fin 8) (next : UInt16) : Prop where
  never : condition = .never →
    condition.holds emulator.machine.status.codes.flags = false
  stays : ∀ steps < emulator.loopSteps condition counter,
    (emulator.runSteps steps).machine.registers.pc =
        emulator.machine.registers.pc ∧
      (emulator.runSteps steps).machine.opcode = emulator.machine.opcode
  /-- Until the loop is left, only the counter and the number of retired
  instructions change. -/
  turns : ∀ steps < emulator.loopSteps condition counter,
    emulator.runSteps steps = emulator.turned counter steps
  passes : condition.holds emulator.machine.status.codes.flags = true →
    emulator.runSteps 1 =
      { emulator with
        machine := emulator.machine.past next
        retired := emulator.retired + 1 }
  counts : condition.holds emulator.machine.status.codes.flags = false →
    emulator.runSteps (emulator.loopSteps condition counter) =
      { emulator with
        machine := (emulator.machine.withCount counter 0xFFFF).past next
        retired := emulator.retired +
          UInt64.ofNat (emulator.loopSteps condition counter) }

/-- A DBcc that branches to itself is executed once if its condition holds, and
otherwise once more than its counter's low word says, which is 0xFFFF then. -/
theorem countingLoop_leaves
    (loop : emulator.machine.CountsInPlace condition counter next)
    (allowed : emulator.Allows (emulator.loopSteps condition counter)) :
    emulator.RunsLoop condition counter next := by
  have counted := emulator.machine.toNat_count counter
  have turns : ∀ steps < emulator.loopSteps condition counter,
      emulator.runSteps steps = emulator.turned counter steps := by
    intro steps within
    rw [loopSteps] at allowed within
    cases holds : condition.holds emulator.machine.status.codes.flags with
    | true =>
        rw [if_pos holds] at within
        obtain rfl : steps = 0 := by omega
        exact turned_zero.symm
    | false =>
        rw [holds, if_neg Bool.false_ne_true, ← counted] at allowed within
        exact runSteps_turned loop holds allowed (Nat.le_of_lt_succ within)
  constructor
  case never =>
    rintro rfl
    rfl
  case stays =>
    intro steps within
    rw [turns steps within]
    exact ⟨rfl, rfl⟩
  case turns => exact turns
  case passes =>
    intro holds
    rw [loopSteps, if_pos holds] at allowed
    rw [runSteps_succ, runSteps,
      step_of_allows allowed Nat.zero_lt_one loop.running rfl
        (UInt64.add_zero _).symm,
      loop.step_of_holds holds]
  case counts =>
    intro fails
    rw [loopSteps, fails, if_neg Bool.false_ne_true, ← counted] at allowed ⊢
    exact runSteps_last loop fails allowed

/-- A loop with a count of two, and a limit that leaves room for it only. -/
def countingTwice : Emulator FlatMemory where
  machine :=
    { model := .mc68000
      registers := { data := Vector.replicate 8 0x12340002 }
      condition := .running
      opcode := 0x51C8
      memory := ⟨#[0x51, 0xC8, 0xFF, 0xFE, 0x4E, 0x71]⟩ }
  limit := some 3

theorem countingTwice_leaves :
    countingTwice.machine.CountsInPlace .never 0 0x4E71 ∧
      countingTwice.Allows (countingTwice.loopSteps .never 0) ∧
        countingTwice.RunsLoop .never 0 0x4E71 := by
  have loop : countingTwice.machine.CountsInPlace .never 0 0x4E71 :=
    { running := rfl
      untraced := by decide
      fetched := ⟨by decide, by decide⟩
      decoded := by decide +kernel
      displacement := by decide
      next := by decide }
  have allowed : countingTwice.Allows (countingTwice.loopSteps .never 0) := by
    rintro limit limited
    cases limited
    decide
  exact ⟨loop, allowed, countingLoop_leaves loop allowed⟩

end Emulator

end M68k

import M68k.Machine.Access

/-!
# Executions step by step

What an execution does from a given machine, one step at a time.  These
equations run a concrete sequence of steps symbolically; nothing is asked of the
memory.
-/

namespace M68k

namespace Bus

variable {σ α : Type}

/-- The memory after a transaction, granted or refused. -/
def leaves (transaction : Bus σ α) (memory : σ) : σ :=
  match transaction memory with
  | .ok _ left | .error _ left => left

/-- What a granted transaction answers. -/
def answer? (transaction : Bus σ α) (memory : σ) : Option α :=
  match transaction memory with
  | .ok answer _ => some answer
  | .error _ _ => none

/-- Whether a transaction is granted. -/
def isGranted (transaction : Bus σ α) (memory : σ) : Bool :=
  match transaction memory with
  | .ok _ _ => true
  | .error _ _ => false

theorem isGranted_iff {transaction : Bus σ Unit} {memory : σ} :
    transaction.isGranted memory = true ↔
      transaction memory = .ok () (transaction.leaves memory) := by
  simp only [isGranted, leaves]
  cases transaction memory <;> simp

end Bus

namespace Machine

/-- Only the last bit of an address counts for alignment. -/
theorem misaligned_congr {σ : Type} (machine : Machine σ)
    {left right : UInt32} (parity : left.toNat % 2 = right.toNat % 2) :
    machine.misaligned left = machine.misaligned right := by
  have same : left % 2 = right % 2 := by
    apply UInt32.toNat_inj.1
    simpa using parity
  rw [misaligned, misaligned, same]

theorem misaligned_add_even {σ : Type} (machine : Machine σ)
    (address : UInt32) {distance : UInt32} (even : distance.toNat % 2 = 0) :
    machine.misaligned (address + distance) = machine.misaligned address := by
  apply misaligned_congr
  rw [UInt32.toNat_add]
  omega

end Machine

namespace Execution

variable {σ α β : Type}

theorem bind_apply (first : Execution σ α) (next : α → Execution σ β)
    (machine : Machine σ) :
    (first >>= next) machine =
      match first machine with
      | .ok value left => next value left
      | .error fault left => .error fault left := by
  simp only [bind, EStateM.bind]
  cases first machine <;> rfl

/-- An execution in two parts succeeds if both do. -/
theorem bind_eq_ok {first : Execution σ α} {next : α → Execution σ β}
    {machine left : Machine σ} {value : β}
    (run : (first >>= next) machine = .ok value left) :
    ∃ found middle, first machine = .ok found middle ∧
      next found middle = .ok value left := by
  rw [bind_apply] at run
  cases firstRun : first machine with
  | ok found middle =>
      rw [firstRun] at run
      exact ⟨found, middle, rfl, run⟩
  | error fault after =>
      rw [firstRun] at run
      cases run

/-- An execution in two parts fails if one of them does. -/
theorem bind_eq_error {first : Execution σ α} {next : α → Execution σ β}
    {machine left : Machine σ} {fault : Fault}
    (run : (first >>= next) machine = .error fault left) :
    first machine = .error fault left ∨
      ∃ found middle, first machine = .ok found middle ∧
        next found middle = .error fault left := by
  rw [bind_apply] at run
  cases firstRun : first machine with
  | ok found middle =>
      rw [firstRun] at run
      exact .inr ⟨found, middle, rfl, run⟩
  | error fault after =>
      rw [firstRun] at run
      cases run
      exact .inl rfl

theorem pure_apply (value : α) (machine : Machine σ) :
    (pure value : Execution σ α) machine = .ok value machine :=
  rfl

theorem throw_apply (fault : Fault) (machine : Machine σ) :
    (throw fault : Execution σ α) machine = .error fault machine :=
  rfl

theorem ite_apply (condition : Prop) [Decidable condition]
    (first second : Execution σ α) (machine : Machine σ) :
    (if condition then first else second) machine =
      if condition then first machine else second machine := by
  split <;> rfl

theorem onBus_ok {transaction : Bus σ α} {machine : Machine σ} {memory : σ}
    {value : α} (run : transaction machine.memory = .ok value memory) :
    onBus transaction machine = .ok value { machine with memory } := by
  rw [onBus, run]

theorem onBus_refused {transaction : Bus σ α} {machine : Machine σ}
    {memory : σ} (run : transaction machine.memory = .error () memory) :
    onBus transaction machine = .error .busError { machine with memory } := by
  rw [onBus, run]

/-- A transaction that succeeds touches nothing but the memory. -/
theorem onBus_eq_ok {transaction : Bus σ α} {machine left : Machine σ}
    {value : α} (run : onBus transaction machine = .ok value left) :
    ∃ memory, transaction machine.memory = .ok value memory ∧
      left = { machine with memory } := by
  simp only [onBus] at run
  cases granted : transaction machine.memory with
  | ok found memory =>
      rw [granted] at run
      cases run
      exact ⟨memory, rfl, rfl⟩
  | error refusal memory =>
      rw [granted] at run
      cases run

theorem onBus_eq_error {transaction : Bus σ α} {machine left : Machine σ}
    {fault : Fault} (run : onBus transaction machine = .error fault left) :
    ∃ memory, left = { machine with memory } := by
  rw [onBus] at run
  split at run
  · cases run
  · cases run
    exact ⟨_, rfl⟩

theorem attempt_apply (transaction : Bus σ Unit) (machine : Machine σ) :
    attempt transaction machine =
      .ok (transaction.isGranted machine.memory)
        { machine with memory := transaction.leaves machine.memory } := by
  simp only [attempt, Bus.isGranted, Bus.leaves]
  cases transaction machine.memory <;> rfl

theorem checkAlignment_apply (machine : Machine σ) (address : UInt32)
    (size : OperandSize) :
    checkAlignment address size machine =
      if size ≠ .byte ∧ machine.misaligned address = true then
        .error .addressError machine
      else .ok () machine := by
  simp only [checkAlignment, bind_apply, misaligned, observe, ite_apply,
    throw_apply, pure_apply, Bool.and_eq_true, decide_eq_true_eq]

theorem checkAlignment_ok {machine : Machine σ} {address : UInt32}
    (aligned : machine.misaligned address = false) (size : OperandSize) :
    checkAlignment address size machine = .ok () machine := by
  rw [checkAlignment_apply, if_neg (by simp [aligned])]

/-- An extension word is fetched where the program counter is. -/
theorem fetchWord_eq_ok [Memory σ] {machine left : Machine σ} {word : UInt16}
    (run : fetchWord machine = .ok word left) :
    ∃ memory,
      Memory.fetchWord machine.registers.pc machine.programSpace
          machine.memory = .ok word memory ∧
        left =
          { machine with memory }.withPc (machine.registers.pc + 2) := by
  simp only [fetchWord, instructionWordAt, pc,
    programSpace, setPc, observe,
    update, bind_apply, ite_apply,
    throw_apply, pure_apply] at run
  by_cases even : machine.registers.pc % 2 = 0
  · simp only [even, ne_eq, not_true_eq_false, if_false] at run
    cases fetched : onBus (Memory.fetchWord machine.registers.pc
        machine.programSpace) machine with
    | error fault after => simp [fetched] at run
    | ok found after =>
        obtain ⟨memory, granted, rfl⟩ := onBus_eq_ok fetched
        rw [fetched] at run
        cases run
        exact ⟨memory, granted, rfl⟩
  · simp [even] at run

/-- A word that the memory gives at an even program counter is fetched and
passed. -/
theorem fetchWord_of_granted [Memory σ] {machine : Machine σ} {word : UInt16}
    {memory : σ} (even : machine.registers.pc % 2 = 0)
    (granted : Memory.fetchWord machine.registers.pc machine.programSpace
      machine.memory = .ok word memory) :
    fetchWord machine =
      .ok word ({ machine with memory }.withPc
        (machine.registers.pc + 2)) := by
  have read := onBus_ok granted
  simp only [fetchWord, instructionWordAt, pc, programSpace, setPc, observe,
    update, bind_apply, even, ne_eq, not_true_eq_false, if_false, read,
    pure_apply]

/-- A prefetch asks the memory only at even addresses. -/
theorem prefetch_apply [Memory σ] (machine : Machine σ) :
    prefetch machine =
      if machine.registers.pc % 2 ≠ 0 then .error .addressError machine
      else
        match Memory.fetchWord machine.registers.pc machine.programSpace
            machine.memory with
        | .ok opcode memory => .ok () { machine with opcode, memory }
        | .error _ memory => .error .busError { machine with memory } := by
  simp only [prefetch, instructionWordAt, pc, programSpace, setOpcode, observe,
    update, bind_apply, ite_apply, throw_apply, onBus]
  by_cases odd : machine.registers.pc % 2 ≠ 0
  · simp only [if_pos odd]
  · simp only [if_neg odd]
    cases Memory.fetchWord machine.registers.pc machine.programSpace
      machine.memory <;> rfl

/-- A prefetch that succeeds touches nothing but the opcode and the memory. -/
theorem prefetch_eq_ok [Memory σ] {machine left : Machine σ}
    (run : prefetch machine = .ok () left) :
    machine.registers.pc % 2 = 0 ∧
      ∃ opcode memory, left = { machine with opcode, memory } := by
  rw [prefetch_apply] at run
  split at run
  · cases run
  · rename_i even
    split at run
    · cases run
      exact ⟨Decidable.not_not.mp even, _, _, rfl⟩
    · cases run

theorem prefetch_eq_error [Memory σ] {machine left : Machine σ}
    {fault : Fault} (run : prefetch machine = .error fault left) :
    ∃ memory, left = { machine with memory } := by
  rw [prefetch_apply] at run
  split at run
  · cases run
    exact ⟨machine.memory, rfl⟩
  · split at run
    · cases run
    · cases run
      exact ⟨_, rfl⟩

end Execution

end M68k

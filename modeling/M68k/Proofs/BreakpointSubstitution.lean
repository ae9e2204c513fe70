import M68k.Proofs.AlignedAccesses
import M68k.Proofs.HandlerSuccession
import M68k.Proofs.InstructionLimit

/-!
# Substitutes of breakpoints

A handler that only answers leaves no trace of itself in the processor.  The step
over a breakpoint puts the answer in place of the opcode and nothing else, so
the step after it executes the answer as an instruction at the breakpoint's
address.  What is recorded of visits to handlers is no part of the processor,
and no instruction but another breakpoint looks at it.
-/

namespace M68k

namespace Machine

variable {σ : Type}

/-- The word that takes the place of a breakpoint: the answer of a handler that
does nothing else, or the illegal instruction if no handler is attached. -/
inductive Substitutes (machine : Machine σ) (vector : Fin 8) :
    UInt16 → Prop where
  | unserviced (detached : machine.handler = none) :
      Substitutes machine vector 0x4AFC
  | served {replies : Vector UInt16 8}
      (attached : machine.handler = some ⟨replies, []⟩) :
      Substitutes machine vector (replies.get vector)

/-- Two machines that differ in their records of visits at most. -/
inductive DifferInVisits (machine : Machine σ) : Machine σ → Prop where
  | intro (visits : List BreakpointVisit) :
      DifferInVisits machine { machine with visits }

/-! ## The breakpoint -/

theorem bkpt_substitutes {machine : Machine σ} {vector : Fin 8}
    {word : UInt16} (substitutes : machine.Substitutes vector word) :
    ∃ visits, Execution.bkpt vector machine =
      .error .breakpoint
        { machine.withPc (machine.registers.pc - 2) with
          opcode := word
          visits } := by
  cases substitutes with
  | unserviced detached =>
      exact ⟨machine.visits, Execution.bkpt_detached detached vector⟩
  | served attached =>
      cases machine
      simp only at attached
      subst attached
      exact ⟨_, rfl⟩

variable [Memory σ]

/-- A step over a breakpoint exchanges the opcode and changes nothing else. -/
theorem step_substitutes {machine : Machine σ} {vector : Fin 8}
    {word : UInt16}
    (opcode : machine.opcode = 0x4848 + UInt16.ofNat vector.val)
    (present : .mc68010 ≤ machine.model)
    (substitutes : machine.Substitutes vector word) :
    DifferInVisits { machine with opcode := word } machine.step := by
  have passed : (machine.withPc (machine.registers.pc + 2)).Substitutes vector
      word := by
    cases substitutes with
    | unserviced detached => exact .unserviced detached
    | served attached => exact .served attached
  have executed : Execution.executeOpcode
      (machine.withPc (machine.registers.pc + 2)) = Execution.bkpt vector _ :=
    executeOpcode_bkpt opcode present
  obtain ⟨visits, run⟩ := bkpt_substitutes passed
  have back : machine.registers.pc + 2 - 2 = machine.registers.pc :=
    UInt32.add_sub_cancel _ _
  have stepped : machine.step = { machine with opcode := word, visits } := by
    rw [step, executed, run]
    simp only [withPc, back]
  rw [stepped]
  exact .intro visits

/-! ## The instruction in its place -/

theorem differInVisits_machineCoupling :
    MachineCoupling (DifferInVisits : Machine σ → Machine σ → Prop) where
  general := by rintro left _ ⟨visits⟩ register; rfl
  counter := by rintro left _ ⟨visits⟩; rfl
  status := by rintro left _ ⟨visits⟩; rfl
  alignment := by rintro left _ ⟨visits⟩; rfl
  extensions := by rintro left _ ⟨visits⟩; rfl
  branches := by rintro left _ ⟨visits⟩; rfl
  finalPointer := by rintro left _ ⟨visits⟩; rfl
  writeGeneral := by rintro left _ ⟨visits⟩ register value; exact .intro visits
  writeCounter := by rintro left _ ⟨visits⟩ address; exact .intro visits
  writeCodes := by rintro left _ ⟨visits⟩ codes inRange; exact .intro visits
  access := by
    rintro left _ ⟨visits⟩ space access aligned inMode
    exact .onBus rfl (.intro visits)
  control := by rintro left _ ⟨visits⟩ register; rfl
  writeControl := by rintro left _ ⟨visits⟩ register value; exact .intro visits
  saveStackPointer := by rintro left _ ⟨visits⟩; exact .intro visits
  loadStackPointer := by rintro left _ ⟨visits⟩; exact .intro visits
  writeStatus := by rintro left _ ⟨visits⟩ word; exact .intro visits
  resetDevices := by rintro left _ ⟨visits⟩; exact .intro visits
  accessAny := by
    rintro left _ ⟨visits⟩ space access aligned
    exact .onBus rfl (.intro visits)
  condition := by rintro left _ ⟨visits⟩; rfl
  writeOpcode := by rintro left _ ⟨visits⟩ opcode; exact .intro visits
  writeCondition := by rintro left _ ⟨visits⟩ condition; exact .intro visits
  raiseMask := by rintro left _ ⟨visits⟩ level; exact .intro visits
  clear := by rintro left _ ⟨visits⟩; exact .intro visits

/-- Only breakpoints make visits, so only they could tell records apart. -/
theorem DifferInVisits.step {left right : Machine σ}
    (differ : left.DifferInVisits right)
    (ordinary : ∀ number : Fin 8,
      left.opcode ≠ 0x4848 + UInt16.ofNat number.val) :
    left.step.DifferInVisits right.step := by
  have coupling := differInVisits_machineCoupling (σ := σ)
  apply coupling.step differ
  obtain ⟨visits⟩ := differ
  have passed : DifferInVisits (left.withPc (left.registers.pc + 2))
      { left.withPc (left.registers.pc + 2) with visits } := .intro visits
  refine .executeOpcode passed rfl ?_
  intro instruction admitted
  refine coupling.matchedOrdinary passed ?_ fun _ _ _ _ => rfl
  rintro number rfl
  exact ordinary number
    (Instruction.decode?_eq_bkpt_iff.mp (Instruction.admit_eq_ok admitted).1)

end Machine

namespace Emulator

variable {σ : Type}

/-- The emulator with its memory watched from now on. -/
def watched (emulator : Emulator σ) : Emulator (WatchedMemory σ) :=
  emulator.withMemory ⟨emulator.machine.memory, []⟩

/-- The emulator about to execute a word in place of its opcode. -/
def withOpcode (emulator : Emulator σ) (opcode : UInt16) : Emulator σ :=
  emulator.withMachine { emulator.machine with opcode }

/-- A running emulator with a breakpoint ahead that a word takes the place of,
and with room for both. -/
structure MeetsBreakpoint (emulator : Emulator σ) (vector : Fin 8)
    (word : UInt16) : Prop where
  running : emulator.machine.condition = .running
  present : .mc68010 ≤ emulator.machine.model
  opcode : emulator.machine.opcode = 0x4848 + UInt16.ofNat vector.val
  substitutes : emulator.machine.Substitutes vector word
  ordinary : ∀ number : Fin 8, word ≠ 0x4848 + UInt16.ofNat number.val
  allowed : emulator.Allows 2

theorem MeetsBreakpoint.watched {emulator : Emulator σ} {vector : Fin 8}
    {word : UInt16} (meets : emulator.MeetsBreakpoint vector word) :
    emulator.watched.MeetsBreakpoint vector word where
  running := meets.running
  present := meets.present
  opcode := meets.opcode
  substitutes := by
    cases meets.substitutes with
    | unserviced detached => exact .unserviced detached
    | served attached => exact .served attached
  ordinary := meets.ordinary
  allowed := meets.allowed

variable [Memory σ] {emulator : Emulator σ} {vector : Fin 8} {word : UInt16}

theorem MeetsBreakpoint.steps (meets : emulator.MeetsBreakpoint vector word) :
    (emulator.withOpcode word).step.2.machine.DifferInVisits
        emulator.step.2.step.2.machine ∧
      emulator.step.2.step.2.limit =
          (emulator.withOpcode word).step.2.limit ∧
        emulator.step.2.step.2.retired =
          (emulator.withOpcode word).step.2.retired + 1 := by
  have differ := Machine.step_substitutes meets.opcode meets.present
    meets.substitutes
  have single : (emulator.withOpcode word).step.2 =
      { emulator with
        machine := Machine.step { emulator.machine with opcode := word }
        retired := emulator.retired + 1 } :=
    step_of_allows meets.allowed Nat.zero_lt_two meets.running rfl
      (UInt64.add_zero _).symm
  have first : emulator.step.2 =
      { emulator with
        machine := emulator.machine.step, retired := emulator.retired + 1 } :=
    step_of_allows meets.allowed Nat.zero_lt_two meets.running rfl
      (UInt64.add_zero _).symm
  have running : emulator.step.2.machine.condition = .running := by
    rw [first]
    exact (Machine.differInVisits_machineCoupling.condition differ).symm.trans
      meets.running
  have second : emulator.step.2.step.2 =
      { emulator.step.2 with
        machine := emulator.step.2.machine.step
        retired := emulator.step.2.retired + 1 } :=
    step_of_allows meets.allowed Nat.one_lt_two running
      (by rw [first]) (by rw [first]; rfl)
  rw [second, single, first]
  exact ⟨differ.step meets.ordinary, rfl, rfl⟩

/-- What a word does in place of a breakpoint: after two steps it has done what
it does in one step as the opcode, and the memory was asked for the same. -/
structure RunsInPlace (emulator : Emulator σ) (word : UInt16) : Prop where
  machine : ∃ visits, emulator.step.2.step.2.machine =
    { (emulator.withOpcode word).step.2.machine with visits }
  limit : emulator.step.2.step.2.limit =
    (emulator.withOpcode word).step.2.limit
  retired : emulator.step.2.step.2.retired =
    (emulator.withOpcode word).step.2.retired + 1
  requests : emulator.watched.step.2.step.2.machine.memory.requests =
    (emulator.withOpcode word).watched.step.2.machine.memory.requests

/-- A breakpoint is transparent to the word that takes its place.  But for the
count of instructions and the record of visits, everything is as if the word had
been the opcode: branch targets and return addresses, trace and exception
frames, registers, memory and the accesses to it. -/
theorem breakpoint_transparent
    (meets : emulator.MeetsBreakpoint vector word) :
    emulator.RunsInPlace word := by
  obtain ⟨differ, limit, retired⟩ := meets.steps
  obtain ⟨differWatched, -⟩ := meets.watched.steps
  constructor
  case machine =>
    generalize emulator.step.2.step.2.machine = final at differ ⊢
    obtain ⟨visits⟩ := differ
    exact ⟨visits, rfl⟩
  case limit => exact limit
  case retired => exact retired
  case requests =>
    have same : emulator.watched.withOpcode word =
        (emulator.withOpcode word).watched := rfl
    rw [same] at differWatched
    generalize emulator.watched.step.2.step.2.machine = final
      at differWatched ⊢
    obtain ⟨visits⟩ := differWatched
    rfl

/-- A handler that lets a subroutine return in place of every breakpoint. -/
def returningHandler : BreakpointHandler where
  replies := .replicate 8 0x4E75
  actions := []

/-- An emulator at a breakpoint in a subroutine, with the return address on the
stack. -/
def leavingSubroutine : Emulator FlatMemory where
  machine :=
    { model := .mc68010
      condition := .running
      opcode := 0x484A
      registers := { address := #v[0, 0, 0, 0, 0, 0, 0, 6] }
      memory := ⟨#[0x48, 0x4A, 0, 0, 0x4E, 0x71, 0, 0, 0, 4]⟩
      handler := some returningHandler }

theorem returningHandler_transparent :
    leavingSubroutine.MeetsBreakpoint 2 0x4E75 ∧
      leavingSubroutine.RunsInPlace 0x4E75 ∧
      leavingSubroutine.step.2.step.2.machine.registers =
        { address := #v[0, 0, 0, 0, 0, 0, 0, 10], pc := 4 } ∧
      leavingSubroutine.step.2.step.2.machine.opcode = 0x4E71 ∧
      leavingSubroutine.step.2.step.2.retired = 2 := by
  have served : leavingSubroutine.machine.Substitutes 2
      (returningHandler.replies.get 2) := .served rfl
  have meets : leavingSubroutine.MeetsBreakpoint 2 0x4E75 :=
    { running := rfl
      present := by decide
      opcode := rfl
      substitutes := served
      ordinary := by decide
      allowed := by rintro limit ⟨⟩ }
  have runs : leavingSubroutine.RunsInPlace 0x4E75 :=
    breakpoint_transparent meets
  refine ⟨meets, runs, ?_⟩
  obtain ⟨visits, final⟩ := runs.machine
  rw [final, runs.retired]
  exact ⟨rfl, rfl, rfl⟩

end Emulator

end M68k

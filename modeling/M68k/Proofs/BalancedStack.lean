import M68k.Proofs.DecodedModes
import M68k.Proofs.FetchExecutions
import M68k.Proofs.StackOperations
import M68k.Proofs.StepPhases

/-!
# Balanced use of the stack

A push is undone by a pop, a frame that LINK opens by UNLK, and a call by its
return.  Uses that are well nested give back what was stacked, in the opposite
order, and leave the registers and the memory from the stack pointer up as they
were.

The instructions among the actions may be anywhere in memory: an action says
nothing about the program counter that it is found with.
-/

namespace M68k

/-! ## Actions on the stack -/

/-- What can be done to the stack. -/
inductive StackAction where
  | push (size : OperandSize) (value : UInt32)
  | pop (size : OperandSize)
  | link (number : Fin 8) (displacement : UInt32)
  | unlk (number : Fin 8)
  /-- A call whose return address is given. -/
  | call (back : UInt32)
  | rts

/-- How a sequence of actions ends, with what it has taken from the stack. -/
abbrev StackOutcome :=
  EStateM.Result Fault (Machine FlatMemory) (List UInt32)

/-- An outcome of which more has been taken before. -/
def StackOutcome.after (taken : List UInt32) : StackOutcome → StackOutcome
  | .ok later left => .ok (taken ++ later) left
  | .error fault left => .error fault left

/-- The machine about to execute an opcode, with the address behind it as its
program counter. -/
def Machine.dispatch {σ : Type} (machine : Machine σ) (pc : UInt32)
    (opcode : UInt16) : Machine σ :=
  { machine.withPc pc with opcode }

/-- The action of an instruction, with the words that follow its opcode. -/
inductive Instruction.UsesStack (machine : Machine FlatMemory) :
    Instruction → StackAction → Prop where
  | link {number : Fin 8} {displacement : UInt32}
      {fetched : Machine FlatMemory}
      (words : Execution.fetchDisplacement machine =
        .ok displacement fetched) :
      UsesStack machine (.link number) (.link number displacement)
  | linkLong {number : Fin 8} {displacement : UInt32}
      {fetched : Machine FlatMemory}
      (words : Execution.fetchLong machine = .ok displacement fetched) :
      UsesStack machine (.linkLong number) (.link number displacement)
  | unlk {number : Fin 8} : UsesStack machine (.unlk number) (.unlk number)
  | bsr {displacement : UInt8} {target back : UInt32}
      {fetched : Machine FlatMemory}
      (words : Execution.branchTarget displacement machine =
        .ok target fetched)
      (behind : fetched.registers.pc = back) :
      UsesStack machine (.bsr displacement) (.call back)
  | jsr {mode : AddressingMode} {target back : UInt32}
      {fetched : Machine FlatMemory}
      (words : mode.resolveAddress .long machine = .ok target fetched)
      (behind : fetched.registers.pc = back) :
      UsesStack machine (.jsr mode) (.call back)
  | rts : UsesStack machine .rts .rts

namespace StackAction

/-- Actions that only instructions do. -/
def isInstruction : StackAction → Bool
  | push _ _ | pop _ => false
  | _ => true

/-- What an executed instruction has taken from the stack. -/
def taken (action : StackAction) (left : Machine FlatMemory) : List UInt32 :=
  match action with
  | .rts => [left.registers.pc]
  | _ => []

/-- How an action ends. -/
inductive Ends (machine : Machine FlatMemory) :
    StackAction → StackOutcome → Prop where
  | push (size : OperandSize) (value : UInt32) :
      Ends machine (.push size value)
        ((Execution.push size value >>= fun _ => pure []) machine)
  | pop (size : OperandSize) :
      Ends machine (.pop size)
        ((Execution.pop size >>= fun value => pure [value]) machine)
  | instruction {action : StackAction} (instruction : Instruction)
      (pc : UInt32) (opcode : UInt16)
      (admitted : Instruction.admit opcode machine.model machine.isSupervisor =
        .ok instruction)
      (uses : instruction.UsesStack (machine.dispatch pc opcode) action) :
      Ends machine action
        ((Execution.executeOpcode >>= fun _ =>
          Execution.observe action.taken) (machine.dispatch pc opcode))

/-- How a sequence of actions ends, which the first fault ends early. -/
inductive Run : Machine FlatMemory → List StackAction → StackOutcome → Prop
    where
  | done (machine : Machine FlatMemory) : Run machine [] (.ok [] machine)
  | next {machine middle : Machine FlatMemory} {action : StackAction}
      {actions : List StackAction} {taken : List UInt32}
      {outcome : StackOutcome} (first : Ends machine action (.ok taken middle))
      (rest : Run middle actions outcome) :
      Run machine (action :: actions) (outcome.after taken)
  | fails {machine left : Machine FlatMemory} {action : StackAction}
      {actions : List StackAction} {fault : Fault}
      (first : Ends machine action (.error fault left)) :
      Run machine (action :: actions) (.error fault left)

/-! ## Sequences of actions -/

theorem after_after (first second : List UInt32) (outcome : StackOutcome) :
    (outcome.after second).after first = outcome.after (first ++ second) := by
  cases outcome with
  | ok later left =>
      simp only [StackOutcome.after, List.append_assoc]
  | error fault left => rfl

/-- A run of two sequences is a run of the second after one of the first, unless
the first ends early. -/
theorem run_append {first second : List StackAction}
    {machine : Machine FlatMemory} {outcome : StackOutcome}
    (run : Run machine (first ++ second) outcome) :
    (∃ taken middle later, Run machine first (.ok taken middle) ∧
      Run middle second later ∧ outcome = later.after taken) ∨
      ∃ fault left, Run machine first (.error fault left) := by
  induction first generalizing machine outcome with
  | nil =>
      refine .inl ⟨[], machine, outcome, .done machine, run, ?_⟩
      cases outcome <;> rfl
  | cons action actions ih =>
      cases run with
      | fails stopped => exact .inr ⟨_, _, .fails stopped⟩
      | next begun rest =>
          obtain ⟨taken, middle, later, early, late, rfl⟩ |
            ⟨fault, left, stopped⟩ := ih rest
          · refine .inl ⟨_, middle, later, .next begun early, late, ?_⟩
            rw [after_after]
          · exact .inr ⟨fault, left, .next begun stopped⟩

/-- However an action ends, it has taken the same from the stack and left a
machine that has a property. -/
def Gives (action : StackAction) (machine : Machine FlatMemory)
    (taken : List UInt32) (leaves : Machine FlatMemory → Prop) : Prop :=
  ∀ ⦃outcome⦄, Ends machine action outcome →
    ∃ left, leaves left ∧ outcome = .ok taken left

/-- However a sequence of actions ends, it has taken the same from the stack and
left a machine that has a property. -/
def AllGive (actions : List StackAction) (machine : Machine FlatMemory)
    (taken : List UInt32) (leaves : Machine FlatMemory → Prop) : Prop :=
  ∀ ⦃outcome⦄, Run machine actions outcome →
    ∃ left, leaves left ∧ outcome = .ok taken left

section

variable {machine : Machine FlatMemory} {action : StackAction}
  {actions first second : List StackAction} {taken later : List UInt32}
  {between leaves : Machine FlatMemory → Prop}

theorem AllGive.nil (holds : leaves machine) :
    AllGive [] machine [] leaves := by
  intro outcome run
  cases run
  exact ⟨machine, holds, rfl⟩

theorem AllGive.cons (gives : action.Gives machine taken between)
    (goesOn : ∀ middle, between middle → AllGive actions middle later leaves) :
    AllGive (action :: actions) machine (taken ++ later) leaves := by
  intro outcome run
  cases run with
  | fails stopped =>
      obtain ⟨left, -, ended⟩ := gives stopped
      cases ended
  | next begun rest =>
      obtain ⟨middle, holds, ended⟩ := gives begun
      cases ended
      obtain ⟨left, final, rfl⟩ := goesOn _ holds rest
      exact ⟨left, final, rfl⟩

theorem AllGive.append (gives : AllGive first machine taken between)
    (goesOn : ∀ middle, between middle → AllGive second middle later leaves) :
    AllGive (first ++ second) machine (taken ++ later) leaves := by
  intro outcome run
  obtain ⟨seen, middle, outcome, early, late, rfl⟩ | ⟨fault, left, stopped⟩ :=
    run_append run
  · obtain ⟨middle, holds, ended⟩ := gives early
    cases ended
    obtain ⟨left, final, rfl⟩ := goesOn middle holds late
    exact ⟨left, final, rfl⟩
  · obtain ⟨left, -, ended⟩ := gives stopped
    cases ended

end

end StackAction

/-! ## Replaced registers -/

/-- The registers and the memory of a machine have been replaced, and its
program counter and opcode may have changed. -/
def Machine.Becomes (machine : Machine FlatMemory) (registers : Registers)
    (memory : FlatMemory) (left : Machine FlatMemory) : Prop :=
  ∃ pc opcode,
    left = { machine with registers := { registers with pc }, opcode, memory }

namespace Machine.Becomes

variable {machine middle left : Machine FlatMemory} {registers : Registers}
  {memory final : FlatMemory}

theorem memory_eq (becomes : machine.Becomes registers memory left) :
    left.memory = memory := by
  obtain ⟨pc, opcode, rfl⟩ := becomes
  rfl

theorem model_eq (becomes : machine.Becomes registers memory left) :
    left.model = machine.model := by
  obtain ⟨pc, opcode, rfl⟩ := becomes
  rfl

theorem get_eq (becomes : machine.Becomes registers memory left)
    (register : Register) :
    left.registers.get register = registers.get register := by
  obtain ⟨pc, opcode, rfl⟩ := becomes
  cases register <;> rfl

theorem endOf_eq (becomes : machine.Becomes registers memory left)
    (number : Fin 8) :
    left.endOf number = (registers.get (.address number)).toNat := by
  rw [endOf, becomes.get_eq]

/-- Registers that were replaced and are kept then have been replaced. -/
theorem trans (early : machine.Becomes registers memory middle)
    (late : middle.Becomes middle.registers final left) :
    machine.Becomes registers final left := by
  obtain ⟨pc, opcode, rfl⟩ := early
  obtain ⟨behind, word, rfl⟩ := late
  exact ⟨behind, word, rfl⟩

end Machine.Becomes

theorem Machine.PointsAbove.dispatch {machine : Machine FlatMemory}
    {number : Fin 8} {size : OperandSize} {length : Nat}
    (points : machine.PointsAbove number size length) (pc : UInt32)
    (opcode : UInt16) :
    (machine.dispatch pc opcode).PointsAbove number size length :=
  points.below 0 rfl (Nat.zero_add length).le (fun _ => rfl) rfl rfl

/-- What follows the words of an instruction finds the machine with another
program counter. -/
theorem Execution.Fetches.bind_dispatch {α β : Type}
    {words : Execution FlatMemory α} (fetches : Fetches words)
    {machine fetched : Machine FlatMemory} {pc : UInt32} {opcode : UInt16}
    {value : α} (run : words (machine.dispatch pc opcode) = .ok value fetched)
    (next : α → Execution FlatMemory β) :
    ∃ behind, fetched = machine.dispatch behind opcode ∧
      (words >>= next) (machine.dispatch pc opcode) =
        next value (machine.dispatch behind opcode) := by
  obtain ⟨behind, rfl⟩ := fetches.eq_withPc run
  refine ⟨behind, rfl, ?_⟩
  rw [bind_apply, run]
  rfl

namespace StackAction

variable {action : StackAction} {machine left : Machine FlatMemory}
  {size : OperandSize} {value : UInt32} {taken : List UInt32}
  {leaves : Machine FlatMemory → Prop}

theorem gives_of_push (pushed : Execution.push size value machine = .ok () left)
    (holds : leaves left) : (push size value).Gives machine [] leaves := by
  intro outcome ends
  cases ends with
  | push =>
      rw [Execution.bind_apply, pushed]
      exact ⟨left, holds, rfl⟩
  | instruction instruction pc opcode admitted uses => cases uses

theorem gives_of_pop (popped : Execution.pop size machine = .ok value left)
    (holds : leaves left) : (pop size).Gives machine [value] leaves := by
  intro outcome ends
  cases ends with
  | pop =>
      rw [Execution.bind_apply, popped]
      exact ⟨left, holds, rfl⟩
  | instruction instruction pc opcode admitted uses => cases uses

/-- An action that is an instruction gives what each such instruction gives. -/
theorem gives_of_execute (executed : action.isInstruction = true)
    (executes : ∀ pc opcode instruction,
      Instruction.decode? opcode = some instruction →
        instruction.UsesStack (machine.dispatch pc opcode) action →
          ∃ left, instruction.execute (machine.dispatch pc opcode) =
            .ok () left ∧ action.taken left = taken ∧ leaves left) :
    action.Gives machine taken leaves := by
  intro outcome ends
  cases ends with
  | push | pop => cases executed
  | instruction instruction pc opcode admitted uses =>
      obtain ⟨left, executed, rfl, holds⟩ := executes pc opcode instruction
        (Instruction.admit_eq_ok admitted).1 uses
      refine ⟨left, holds, ?_⟩
      have admitted : Instruction.admit (machine.dispatch pc opcode).opcode
          (machine.dispatch pc opcode).model
          (machine.dispatch pc opcode).isSupervisor = .ok instruction :=
        admitted
      rw [Execution.bind_apply, Execution.executeOpcode_of_admitted admitted,
        executed]
      rfl

theorem link_gives (points : machine.PointsAbove 7 .long 4) (number : Fin 8)
    (displacement : UInt32) :
    (link number displacement).Gives machine []
      (machine.Becomes (machine.registers.framed number displacement)
        (machine.memory.overwrite (machine.registers.below 7 4)
          ((bytesOfLong (machine.registers.get (.address number))).map
            some))) := by
  refine gives_of_execute rfl ?_
  intro pc opcode instruction decoded uses
  cases uses with
  | link words =>
      obtain ⟨behind, -, continued⟩ :=
        Execution.Fetches.fetchDisplacement.bind_dispatch words
          (Execution.linkBy number)
      exact ⟨_, continued.trans (Execution.linkBy_flat number displacement
        (points.dispatch behind opcode)), rfl, behind, opcode, rfl⟩
  | linkLong words =>
      obtain ⟨behind, -, continued⟩ :=
        Execution.Fetches.fetchLong.bind_dispatch words
          (Execution.linkBy number)
      exact ⟨_, continued.trans (Execution.linkBy_flat number displacement
        (points.dispatch behind opcode)), rfl, behind, opcode, rfl⟩

theorem call_gives (points : machine.PointsAbove 7 .long 4) (back : UInt32) :
    (call back).Gives machine []
      (machine.Becomes (machine.registers.lower 7 4)
        (machine.memory.overwrite (machine.registers.below 7 4)
          ((bytesOfLong back).map some))) := by
  refine gives_of_execute rfl ?_
  intro pc opcode instruction decoded uses
  cases uses with
  | @bsr displacement target back fetched words behind =>
      obtain ⟨pc, rfl, continued⟩ :=
        (Execution.Fetches.branchTarget displacement).bind_dispatch words
          Execution.callSubroutine
      subst behind
      exact ⟨_, continued.trans (Execution.callSubroutine_flat target
        (points.dispatch pc opcode)), rfl, target, opcode, rfl⟩
  | @jsr mode target back fetched words behind =>
      have control := Instruction.takesItsModes_of_decode? decoded
      obtain ⟨pc, rfl, continued⟩ :=
        (Execution.Fetches.resolveAddress control .long).bind_dispatch words
          Execution.callSubroutine
      subst behind
      exact ⟨_, continued.trans (Execution.callSubroutine_flat target
        (points.dispatch pc opcode)), rfl, target, opcode, rfl⟩

section

variable {memory : FlatMemory}
  (aligned : machine.misaligned (machine.registers.below 7 4) = false)

include aligned

theorem unlk_gives {number : Fin 8} {displacement : UInt32}
    (different : number ≠ 7)
    (becomes : machine.Becomes
      (machine.registers.framed number displacement) memory left)
    (holds : memory.run? (machine.registers.below 7 4) 4 =
      some (bytesOfLong (machine.registers.get (.address number)))) :
    (unlk number).Gives left [] (machine.Becomes machine.registers memory) := by
  refine gives_of_execute rfl ?_
  intro behind word instruction decoded uses
  obtain ⟨pc, opcode, rfl⟩ := becomes
  cases uses with
  | unlk =>
    have closed : Execution.unlk number
        (Machine.dispatch
          { machine with
            registers :=
              { machine.registers.framed number displacement with pc }
            opcode, memory } behind word) = _ :=
      Execution.unlk_flat { machine.registers with pc := behind } different rfl
        aligned holds
    exact ⟨_, closed, rfl, behind, word, rfl⟩

theorem rts_gives {back : UInt32}
    (becomes : machine.Becomes (machine.registers.lower 7 4) memory left)
    (holds : memory.run? (machine.registers.below 7 4) 4 =
      some (bytesOfLong back)) :
    rts.Gives left [back] (machine.Becomes machine.registers memory) := by
  refine gives_of_execute rfl ?_
  intro behind word instruction decoded uses
  obtain ⟨pc, opcode, rfl⟩ := becomes
  cases uses with
  | rts =>
    have returned : Execution.rts
        (Machine.dispatch
          { machine with
            registers := { machine.registers.lower 7 4 with pc }
            opcode, memory } behind word) = _ :=
      Execution.rts_flat { machine.registers with pc := behind } back rfl
        aligned holds
    exact ⟨_, returned, rfl, back, word, rfl⟩

end

end StackAction

/-! ## Pairs of actions -/

/-- Two actions of which the second undoes the first. -/
inductive StackPair where
  | operand (size : OperandSize) (value : UInt32)
  | frame (number : Fin 8) (displacement : UInt32)
  | call (back : UInt32)

namespace StackPair

def opening : StackPair → StackAction
  | operand size value => .push size value
  | frame number displacement => .link number displacement
  | call back => .call back

def closing : StackPair → StackAction
  | operand size _ => .pop size
  | frame number _ => .unlk number
  | call _ => .rts

/-- What the closing action takes from the stack, as far as it is told. -/
def taken : StackPair → List UInt32
  | operand size value => [size.zeroExtend value]
  | frame _ _ => []
  | call back => [back]

/-- The size of what the opening action stacks. -/
def size : StackPair → OperandSize
  | operand size _ => size
  | frame _ _ | call _ => .long

/-- What the opening action stacks. -/
def stacked (registers : Registers) : StackPair → UInt32
  | operand _ value => value
  | frame number _ => registers.get (.address number)
  | call back => back

/-- The bytes that the opening action reserves. -/
def room : StackPair → UInt32
  | frame _ displacement => 0 - displacement
  | operand _ _ | call _ => 0

/-- The bytes between the stack pointers before and after the opening action. -/
def depth (pair : StackPair) : Nat :=
  pair.size.bytes + pair.room.toNat

theorem bytes_le_depth (pair : StackPair) : pair.size.bytes ≤ pair.depth :=
  Nat.le_add_right _ _

/-- The registers after the opening action. -/
def opened (registers : Registers) : StackPair → Registers
  | operand size _ => registers.lower 7 size.bytes
  | frame number displacement => registers.framed number displacement
  | call _ => registers.lower 7 4

/-- Words and longs are pushed.  A frame is kept by another register than the
stack pointer, which stays even where it has to be. -/
def IsUsable (model : Model) : StackPair → Prop
  | operand size _ => size = .word ∨ size = .long
  | frame number displacement =>
      number ≠ 7 ∧
        (model.needsAlignedData = true → displacement.toNat % 2 = 0)
  | call _ => True

section

variable {pair : StackPair} {model : Model}

theorem IsUsable.sized (usable : pair.IsUsable model) :
    pair.size ≠ .unsized ∧ pair.size ≠ .byte := by
  cases pair with
  | operand size value =>
      obtain rfl | rfl := usable <;> simp [StackPair.size]
  | frame number displacement | call back => simp [StackPair.size]

theorem IsUsable.even_depth (usable : pair.IsUsable model)
    (needed : model.needsAlignedData = true) : pair.depth % 2 = 0 := by
  have even := OperandSize.even_bytes usable.sized.2
  cases pair with
  | operand size value | call back => exact even
  | frame number displacement =>
      have even := usable.2 needed
      show (4 + (0 - displacement).toNat) % 2 = 0
      rw [UInt32.toNat_sub]
      have bound := displacement.toNat_lt
      simp only [UInt32.toNat_zero]
      omega

end

variable {pair : StackPair} {machine left : Machine FlatMemory}

/-- The opening action stacks what it has to stack. -/
theorem opening_gives (usable : pair.IsUsable machine.model)
    (points : machine.PointsAbove 7 .long pair.size.bytes) :
    pair.opening.Gives machine []
      (machine.Becomes (pair.opened machine.registers)
        (machine.memory.overwrite
          (machine.registers.below 7 pair.size.bytes)
          ((pair.size.bytesOf (pair.stacked machine.registers)).map
            some))) := by
  cases pair with
  | operand size value =>
      obtain ⟨sized, wide⟩ : size ≠ .unsized ∧ size ≠ .byte := usable.sized
      exact StackAction.gives_of_push (Execution.push_flat sized wide points)
        ⟨machine.registers.pc, machine.opcode, rfl⟩
  | frame number displacement =>
      exact StackAction.link_gives points number displacement
  | call back => exact StackAction.call_gives points back

/-- The closing action takes what the opening action has stacked, and gives back
the registers. -/
theorem closing_gives {memory : FlatMemory}
    (usable : pair.IsUsable machine.model)
    (points : machine.PointsAbove 7 .long pair.size.bytes)
    (becomes : machine.Becomes (pair.opened machine.registers) memory left)
    (holds : memory.run? (machine.registers.below 7 pair.size.bytes)
      pair.size.bytes =
        some (pair.size.bytesOf (pair.stacked machine.registers))) :
    pair.closing.Gives left pair.taken
      (machine.Becomes machine.registers memory) := by
  obtain ⟨sized, wide⟩ := usable.sized
  have aligned : machine.misaligned
      (machine.registers.below 7 pair.size.bytes) = false :=
    points.aligned_below (Nat.le_refl _)
      (fun _ => OperandSize.even_bytes wide) (by decide)
  cases pair with
  | operand size value =>
      obtain ⟨pc, opcode, rfl⟩ := becomes
      have popped : Execution.pop size
          { machine with
            registers := { machine.registers.lower 7 size.bytes with pc }
            opcode, memory } = _ :=
        Execution.pop_flat { machine.registers with pc } value sized rfl aligned
          holds
      exact StackAction.gives_of_pop popped ⟨pc, opcode, rfl⟩
  | frame number displacement =>
      exact StackAction.unlk_gives aligned usable.1 becomes holds
  | call back => exact StackAction.rts_gives aligned becomes holds

/-- The opening action lowers the stack pointer by what it stacks and
reserves. -/
theorem toNat_opened (unwrapped : pair.depth ≤ machine.endOf 7) :
    ((pair.opened machine.registers).get (.address 7)).toNat =
      machine.endOf 7 - pair.depth := by
  cases pair with
  | operand size value =>
      have lowered := machine.registers.get_lower_self 7 size.bytes
      rw [opened, lowered]
      exact Machine.toNat_below unwrapped
  | call back =>
      have lowered := machine.registers.get_lower_self 7 4
      rw [opened, lowered]
      exact Machine.toNat_below unwrapped
  | frame number displacement =>
      have unwrapped : 4 + (0 - displacement).toNat ≤ machine.endOf 7 :=
        unwrapped
      have below : (machine.registers.below 7 4).toNat = machine.endOf 7 - 4 :=
        Machine.toNat_below (by omega)
      have pointer : machine.registers.below 7 4 + displacement =
          machine.registers.below 7 4 - (0 - displacement) := by grind
      rw [opened, Registers.stackPointer_framed, pointer,
        UInt32.toNat_sub_of_le _ _ (UInt32.le_iff_toNat_le.mpr (by omega)),
        below, Nat.sub_sub]
      rfl

end StackPair

/-! ## Nested pairs -/

namespace Machine

variable {machine middle left : Machine FlatMemory}

/-- So many bytes below the stack pointer lie in memory, and the stack pointer
is aligned where it has to be. -/
def HasRoom (machine : Machine FlatMemory) (depth : Nat) : Prop :=
  0 < depth → machine.PointsAbove 7 .long depth

/-- The registers are back, and so is the memory outside of so many bytes below
the stack pointer. -/
def Restored (machine : Machine FlatMemory) (depth : Nat)
    (left : Machine FlatMemory) : Prop :=
  ∃ memory, machine.Becomes machine.registers memory left ∧
    FlatMemory.AgreeOutside (machine.endOf 7 - depth) depth memory
      machine.memory

theorem Restored.refl (machine : Machine FlatMemory) (depth : Nat) :
    machine.Restored depth machine :=
  ⟨machine.memory, ⟨machine.registers.pc, machine.opcode, rfl⟩, rfl,
    fun _ _ => rfl⟩

/-- One use of the stack after another. -/
theorem Restored.trans {first second : Nat}
    (early : machine.Restored first middle)
    (late : middle.Restored second left)
    (unwrapped : max first second ≤ machine.endOf 7) :
    machine.Restored (max first second) left := by
  obtain ⟨memory, becomes, before⟩ := early
  obtain ⟨final, kept, after⟩ := late
  rw [becomes.endOf_eq, ← endOf, becomes.memory_eq] at after
  exact ⟨final, becomes.trans kept,
    .trans (after.mono (by omega) (by omega))
      (before.mono (by omega) (by omega))⟩

theorem HasRoom.mono {depth less : Nat} (room : machine.HasRoom depth)
    (within : less ≤ depth) : machine.HasRoom less := by
  intro positive
  exact (room (by omega)).mono within

theorem HasRoom.unwrapped {depth : Nat} (room : machine.HasRoom depth) :
    depth ≤ machine.endOf 7 := by
  by_cases positive : 0 < depth
  · exact (room positive).unwrapped
  · omega

/-- A machine that has its registers back has the room that it had. -/
theorem Restored.hasRoom {used depth : Nat}
    (restored : machine.Restored used left) (room : machine.HasRoom depth) :
    left.HasRoom depth := by
  obtain ⟨memory, becomes, agree⟩ := restored
  intro positive
  exact (room positive).below 0 (becomes.endOf_eq 7) (by omega) (fun _ => rfl)
    (by rw [becomes.memory_eq, agree.1]) becomes.model_eq

end Machine

namespace StackPair

variable {pair : StackPair} {machine opened middle : Machine FlatMemory}
  {memory : FlatMemory} {depth : Nat}

/-- Between the two actions there is the room that the first leaves. -/
theorem hasRoom_opened (usable : pair.IsUsable machine.model)
    (room : machine.HasRoom (pair.depth + depth))
    (becomes : machine.Becomes (pair.opened machine.registers) memory opened)
    (sized : memory.size = machine.memory.size) : opened.HasRoom depth := by
  intro positive
  have points := room (by omega)
  have unwrapped := points.unwrapped
  have mapped := points.mapped
  have place : opened.endOf 7 = machine.endOf 7 - pair.depth :=
    (becomes.endOf_eq 7).trans (toNat_opened (by omega))
  refine ⟨by omega, ?_, ?_, points.notStack⟩
  · rw [becomes.memory_eq]
    omega
  · intro wide needed
    rw [becomes.model_eq] at needed
    have even := usable.even_depth needed
    have aligned := points.aligned wide needed
    omega

/-- What is stacked by the first action is still there when only what lies below
it has been used, and nothing else has changed. -/
theorem holds_of_restored
    (points : machine.PointsAbove 7 .long (pair.depth + depth))
    (becomes : machine.Becomes (pair.opened machine.registers)
      (machine.memory.overwrite (machine.registers.below 7 pair.size.bytes)
        ((pair.size.bytesOf (pair.stacked machine.registers)).map some)) opened)
    (restored : opened.Restored depth middle) :
    ∃ memory, machine.Becomes (pair.opened machine.registers) memory middle ∧
      memory.run? (machine.registers.below 7 pair.size.bytes) pair.size.bytes =
        some (pair.size.bytesOf (pair.stacked machine.registers)) ∧
      FlatMemory.AgreeOutside (machine.endOf 7 - (pair.depth + depth))
        (pair.depth + depth) memory machine.memory := by
  have unwrapped := points.unwrapped
  have mapped := points.mapped
  have stored := pair.bytes_le_depth
  have place : opened.endOf 7 = machine.endOf 7 - pair.depth :=
    (becomes.endOf_eq 7).trans (toNat_opened (by omega))
  have below : (machine.registers.below 7 pair.size.bytes).toNat =
      machine.endOf 7 - pair.size.bytes := Machine.toNat_below (by omega)
  have length := pair.size.length_bytesOf (pair.stacked machine.registers)
  have written := machine.memory.agreeOutside_overwrite
    (machine.registers.below 7 pair.size.bytes)
    ((pair.size.bytesOf (pair.stacked machine.registers)).map some)
  have stacked := machine.memory.run?_overwrite_self
    (machine.registers.below 7 pair.size.bytes)
    (pair.size.bytesOf (pair.stacked machine.registers)) (by omega)
  rw [List.length_map, length] at written
  rw [length] at stacked
  obtain ⟨memory, kept, used⟩ := restored
  rw [place, becomes.memory_eq] at used
  refine ⟨memory, becomes.trans kept, ?_, ?_⟩
  · refine FlatMemory.run?_congr used.1.symm (fun offset inside => ?_) stacked
    exact (used.2 _ (by omega)).symm
  · exact .trans (used.mono (by omega) (by omega))
      (written.mono (by omega) (by omega))

end StackPair

/-- A use of the stack by pairs that are well nested. -/
inductive StackUse where
  | done
  /-- A pair with what happens between its actions and after it. -/
  | nest (pair : StackPair) (inside after : StackUse)

namespace StackUse

def actions : StackUse → List StackAction
  | done => []
  | nest pair inside after =>
      pair.opening :: (inside.actions ++ pair.closing :: after.actions)

/-- What is taken from the stack, in order. -/
def taken : StackUse → List UInt32
  | done => []
  | nest pair inside after => inside.taken ++ (pair.taken ++ after.taken)

/-- The bytes of the stack that are used. -/
def depth : StackUse → Nat
  | done => 0
  | nest pair inside after => max (pair.depth + inside.depth) after.depth

def IsUsable (model : Model) : StackUse → Prop
  | done => True
  | nest pair inside after =>
      pair.IsUsable model ∧ inside.IsUsable model ∧ after.IsUsable model

/-- By induction on the nesting: what is inside of a pair finds less room, and
what comes after it the registers and the room from before it. -/
theorem allGive {use : StackUse} {machine : Machine FlatMemory}
    (usable : use.IsUsable machine.model) (room : machine.HasRoom use.depth) :
    StackAction.AllGive use.actions machine use.taken
      (machine.Restored use.depth) := by
  induction use generalizing machine with
  | done => exact .nil (.refl machine 0)
  | nest pair inside after insideGives afterGives =>
      obtain ⟨pairUsable, insideUsable, afterUsable⟩ := usable
      have unwrapped : max (pair.depth + inside.depth) after.depth ≤
          machine.endOf 7 := room.unwrapped
      have pairRoom : machine.HasRoom (pair.depth + inside.depth) :=
        room.mono (Nat.le_max_left _ _)
      have afterRoom : machine.HasRoom after.depth :=
        room.mono (Nat.le_max_right _ _)
      have deep : 0 < pair.depth := Nat.lt_of_lt_of_le
        (OperandSize.bytes_pos pairUsable.sized.1) pair.bytes_le_depth
      have points := pairRoom (by omega)
      have pointsStored : machine.PointsAbove 7 .long pair.size.bytes :=
        points.mono (Nat.le_add_right_of_le pair.bytes_le_depth)
      show StackAction.AllGive _ machine
        ([] ++ (inside.taken ++ (pair.taken ++ after.taken))) _
      refine .cons (StackPair.opening_gives pairUsable pointsStored) ?_
      intro opened opens
      have insideRoom := StackPair.hasRoom_opened pairUsable pairRoom opens
        (FlatMemory.size_overwrite _ _ _)
      refine .append (insideGives (opens.model_eq ▸ insideUsable) insideRoom) ?_
      intro middle used
      obtain ⟨memory, becomes, holds, agree⟩ :=
        StackPair.holds_of_restored points opens used
      refine .cons (StackPair.closing_gives pairUsable pointsStored becomes
        holds) ?_
      intro closed closes
      have restored : machine.Restored (pair.depth + inside.depth) closed :=
        ⟨memory, closes, agree⟩
      intro outcome run
      obtain ⟨left, late, rfl⟩ := afterGives (closes.model_eq ▸ afterUsable)
        (restored.hasRoom afterRoom) run
      exact ⟨left, restored.trans late unwrapped, rfl⟩

/-- Well-nested use of the stack is balanced: however it runs, it ends without a
fault, every pop has taken what its push stacked and every return has gone to
the address behind its call, all data and address registers are back, and no
byte at or above the stack pointer has changed. -/
theorem run_balanced {use : StackUse} {machine : Machine FlatMemory}
    (usable : use.IsUsable machine.model) (room : machine.HasRoom use.depth)
    {outcome : StackOutcome}
    (run : StackAction.Run machine use.actions outcome) :
    ∃ left, outcome = .ok use.taken left ∧
      (∀ register, left.registers.get register =
        machine.registers.get register) ∧
      (∀ index, machine.registers.stackPointer.toNat ≤ index →
        left.memory.bytes[index]? = machine.memory.bytes[index]?) ∧
      machine.Restored use.depth left := by
  obtain ⟨left, restored, rfl⟩ := allGive usable room run
  have unwrapped := room.unwrapped
  obtain ⟨memory, becomes, agree⟩ := restored
  refine ⟨left, rfl, becomes.get_eq, ?_, memory, becomes, agree⟩
  intro index above
  have above : machine.endOf 7 ≤ index := above
  rw [becomes.memory_eq]
  exact agree.2 index (by omega)

/-- A frame in which a subroutine is called that pushes a word and pops it. -/
def callInFrame : StackUse :=
  .nest (.frame 6 (0 - 2))
    (.nest (.call 2) (.nest (.operand .word 0x1234) .done .done) .done) .done

/-- A machine with the displacement of LINK A6,#-2 at address zero and behind it
a stack for a word, a return address and a frame. -/
def calling (frame pointer pc : UInt32) (opcode pushed : UInt16)
    (back saved : UInt32) : Machine FlatMemory where
  model := .mc68000
  registers := { address := #v[0, 0, 0, 0, 0, 0, frame, pointer], pc }
  opcode
  memory :=
    ⟨(bytesOfWord 0xFFFE ++ bytesOfWord pushed ++ bytesOfLong back ++ [0, 0] ++
      bytesOfLong saved).toArray⟩

theorem callInFrame_balanced :
    ∃ left, StackAction.Run (calling 0xDEADBEEF 14 0 0 0 0 0)
        callInFrame.actions (.ok [0x1234, 2] left) ∧
      left.registers.get (.address 6) = 0xDEADBEEF ∧
      left.registers.get .stackPointer = 14 := by
  have link : StackAction.Ends (calling 0xDEADBEEF 14 0 0 0 0 0)
      (.link 6 (0 - 2)) (.ok [] (calling 10 8 2 0x4E56 0 0 0xDEADBEEF)) :=
    .instruction (.link 6) 0 0x4E56 rfl (.link rfl)
  have bsr : StackAction.Ends (calling 10 8 2 0x4E56 0 0 0xDEADBEEF)
      (.call 2) (.ok [] (calling 10 4 4 0x6102 0 2 0xDEADBEEF)) :=
    .instruction (.bsr 2) 2 0x6102 rfl (.bsr rfl rfl)
  have push : StackAction.Ends (calling 10 4 4 0x6102 0 2 0xDEADBEEF)
      (.push .word 0x1234)
      (.ok [] (calling 10 2 4 0x6102 0x1234 2 0xDEADBEEF)) :=
    .push .word 0x1234
  have pop : StackAction.Ends (calling 10 2 4 0x6102 0x1234 2 0xDEADBEEF)
      (.pop .word)
      (.ok [0x1234] (calling 10 4 4 0x6102 0x1234 2 0xDEADBEEF)) :=
    .pop .word
  have rts : StackAction.Ends (calling 10 4 4 0x6102 0x1234 2 0xDEADBEEF)
      .rts (.ok [2] (calling 10 8 2 0x4E75 0x1234 2 0xDEADBEEF)) :=
    .instruction .rts 6 0x4E75 rfl .rts
  have unlk : StackAction.Ends (calling 10 8 2 0x4E75 0x1234 2 0xDEADBEEF)
      (.unlk 6)
      (.ok [] (calling 0xDEADBEEF 14 4 0x4E5E 0x1234 2 0xDEADBEEF)) :=
    .instruction (.unlk 6) 4 0x4E5E rfl .unlk
  have run : StackAction.Run (calling 0xDEADBEEF 14 0 0 0 0 0)
      callInFrame.actions _ :=
    .next link (.next bsr (.next push (.next pop (.next rts (.next unlk
      (.done _))))))
  have usable : callInFrame.IsUsable .mc68000 :=
    ⟨⟨by decide, fun _ => rfl⟩, ⟨trivial, ⟨.inl rfl, trivial, trivial⟩,
      trivial⟩, trivial⟩
  have room : (calling 0xDEADBEEF 14 0 0 0 0 0).HasRoom callInFrame.depth :=
    fun _ => ⟨by decide, by decide, fun _ _ => rfl, OperandSize.noConfusion⟩
  obtain ⟨left, ended, registers, -⟩ := run_balanced usable room run
  rw [ended] at run
  exact ⟨left, run, registers _, registers _⟩

end StackUse

end M68k

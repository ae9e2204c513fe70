import M68k.Memory.Flat
import M68k.Proofs.BreakpointOpcodes
import M68k.Proofs.MachineInvariant
import Mathlib.Logic.Function.Iterate

/-!
# The handler after a breakpoint

A handler can attach handlers and detach them while it is asked.  Of these
actions the last counts: the handler that it attached stays.  A handler that was
detached last comes back, like one that did nothing of the kind, because all that
is seen afterwards is that no handler is attached.

So no breakpoint leaves a machine without a handler, and how often handlers were
asked tells which one is attached.
-/

namespace M68k

/-! ## What a handler does last -/

namespace HostAction

/-- What an action leaves attached, if it attaches or detaches. -/
def attachment? : HostAction → Option (Option BreakpointHandler)
  | attach replies actions => some (some ⟨replies, actions⟩)
  | detach => some none
  | _ => none

/-- Where an action moves the program counter. -/
def pc? : HostAction → Option UInt32
  | writePc address => some address
  | _ => none

end HostAction

namespace BreakpointHandler

/-- The last of the values that the actions of a handler give to something. -/
def last? {α : Type} (handler : BreakpointHandler)
    (value? : HostAction → Option α) : Option α :=
  (handler.actions.filterMap value?).getLast?

/-- The handler that is attached when a handler has been asked: the one that it
attached, unless it detached that or attached none, and else itself. -/
def successor (handler : BreakpointHandler) : BreakpointHandler :=
  (handler.last? HostAction.attachment?).join.getD handler

end BreakpointHandler

namespace Machine

variable {σ : Type}

/-- What is only ever written by some actions is as the last of them left it. -/
theorem performAll_last {α : Type} {view : Machine σ → α}
    {value? : HostAction → Option α}
    (writes : ∀ (machine : Machine σ) action,
      view (machine.perform action) = (value? action).getD (view machine))
    (actions : List HostAction) (machine : Machine σ) :
    view (actions.foldl perform machine) =
      ((actions.filterMap value?).getLast?).getD (view machine) := by
  induction actions generalizing machine with
  | nil => rfl
  | cons action actions induction =>
      rw [List.foldl_cons, induction, writes]
      cases written : value? action with
      | none => rw [List.filterMap_cons_none written, Option.getD_none]
      | some value =>
          rw [List.filterMap_cons_some written, List.getLast?_cons,
            Option.getD_some, Option.getD_some]

theorem handler_perform (machine : Machine σ) (action : HostAction) :
    (machine.perform action).handler =
      action.attachment?.getD machine.handler := by
  cases action <;> rfl

theorem pc_perform (machine : Machine σ) (action : HostAction) :
    (machine.perform action).registers.pc =
      action.pc?.getD machine.registers.pc := by
  cases action with
  | writeRegister register value => exact Registers.pc_set _ _ _
  | writeStatus word => exact machine.pc_setStatusWord word
  | writePc | writeOpcode | attach | detach => rfl

theorem visits_performAll (actions : List HostAction) (machine : Machine σ) :
    (actions.foldl perform machine).visits = machine.visits := by
  induction actions generalizing machine with
  | nil => rfl
  | cons action actions kept =>
      refine (kept (machine.perform action)).trans ?_
      cases action <;> rfl

/-! ## One breakpoint -/

variable {machine : Machine σ} {handler : BreakpointHandler}

/-- What is left of a machine whose handler was asked. -/
theorem askHandler_attached (attached : machine.handler = some handler)
    (vector : Fin 8) :
    ∃ left,
      machine.askHandler vector = (some (handler.replies.get vector), left) ∧
        left.handler = some handler.successor ∧
          left.registers.pc =
              (handler.last? HostAction.pc?).getD machine.registers.pc ∧
            left.visits.length = machine.visits.length + 1 := by
  let asked := (machine.withHandler none).recordVisit vector
  let left := handler.actions.foldl perform asked
  have attachment : left.handler =
      (handler.last? HostAction.attachment?).getD none :=
    performAll_last handler_perform handler.actions asked
  have counter : left.registers.pc =
      (handler.last? HostAction.pc?).getD machine.registers.pc :=
    @performAll_last σ _ (·.registers.pc) _ pc_perform handler.actions asked
  have visits : left.visits = asked.visits := visits_performAll _ _
  have answer : machine.askHandler vector =
      (some (handler.replies.get vector),
        if left.handler.isSome then left
        else left.withHandler (some handler)) := by
    rw [askHandler, attached]
  refine ⟨_, answer, ?_, ?_, ?_⟩
  · rw [BreakpointHandler.successor]
    -- Nothing attached is what a detachment leaves, and what doing nothing does.
    cases last : handler.last? HostAction.attachment? with
    | none =>
        rw [last, Option.getD_none] at attachment
        rw [attachment]
        rfl
    | some attached =>
        rw [last, Option.getD_some] at attachment
        rw [attachment]
        cases attached with
        | none => rfl
        | some other => exact attachment
  · split
    · exact counter
    · exact counter
  · have counted : left.visits.length = machine.visits.length + 1 := by
      rw [visits]
      rfl
    split
    · exact counted
    · exact counted

/-- A breakpoint takes the opcode that its handler answers. -/
theorem bkpt_attached (attached : machine.handler = some handler)
    (vector : Fin 8) :
    ∃ left, Execution.bkpt vector machine = .error .breakpoint left ∧
      left.opcode = handler.replies.get vector ∧
        left.handler = some handler.successor ∧
          left.registers.pc = (handler.last? HostAction.pc?).getD
              (machine.registers.pc - 2) ∧
            left.visits.length = machine.visits.length + 1 := by
  let back :=
    { machine.withPc (machine.registers.pc - 2) with
      opcode := Execution.illegalOpcode }
  have still : back.handler = some handler := attached
  obtain ⟨left, answer, succeeded, counter, visits⟩ :=
    askHandler_attached still vector
  refine ⟨{ left with opcode := handler.replies.get vector }, ?_, rfl,
    succeeded, counter, visits⟩
  have run : Execution.bkpt vector machine =
      match back.askHandler vector with
      | (some opcode, left) => .error .breakpoint { left with opcode }
      | (none, left) => .error .breakpoint left := by
    simp only [Execution.bkpt, Execution.bind_apply, Execution.pc,
      Execution.observe, Execution.setPc, Execution.setOpcode,
      Execution.update, Execution.askHandler, back]
    split
    · rename_i opcode left asked
      rw [asked]
      rfl
    · rename_i left asked
      rw [asked]
      rfl
  rw [run, answer]

/-- Models that have breakpoints execute their opcodes as such. -/
theorem executeOpcode_bkpt [Memory σ] {vector : Fin 8}
    (breakpoint : machine.opcode = 0x4848 + UInt16.ofNat vector.val)
    (present : .mc68010 ≤ machine.model) :
    Execution.executeOpcode machine = Execution.bkpt vector machine :=
  Execution.executeOpcode_of_admitted
    (Instruction.admit_of_present
      (Instruction.decode?_eq_bkpt_iff.mpr breakpoint) (Nat.not_lt.mpr present)
      rfl _)

/-- A step over a breakpoint asks the handler. -/
theorem step_breakpoint [Memory σ] (attached : machine.handler = some handler)
    {vector : Fin 8}
    (breakpoint : machine.opcode = 0x4848 + UInt16.ofNat vector.val)
    (present : .mc68010 ≤ machine.model) :
    machine.step.opcode = handler.replies.get vector ∧
      machine.step.registers.pc =
          (handler.last? HostAction.pc?).getD machine.registers.pc ∧
        machine.step.handler = some handler.successor := by
  let past := machine.withPc (machine.registers.pc + 2)
  have still : past.handler = some handler := attached
  obtain ⟨left, run, opcode, succeeded, counter, -⟩ :=
    bkpt_attached still vector
  have executed : Execution.executeOpcode past = Execution.bkpt vector past :=
    executeOpcode_bkpt breakpoint present
  have stepped : machine.step = left := by
    rw [step, executed, run]
  have back : past.registers.pc - 2 = machine.registers.pc :=
    UInt32.add_sub_cancel _ _
  rw [back] at counter
  rw [stepped]
  exact ⟨opcode, counter, succeeded⟩

/-! ## Any number of breakpoints -/

/-- The attached handler has succeeded another as often as handlers were asked
since. -/
def HasSuccessor (first : BreakpointHandler) (before : Nat)
    (machine : Machine σ) : Prop :=
  ∃ count, machine.visits.length = before + count ∧
    machine.handler = some (BreakpointHandler.successor^[count] first)

variable {first : BreakpointHandler} {before : Nat}

theorem hasSuccessor_invariant [Memory σ] (first : BreakpointHandler)
    (before : Nat) :
    StepInvariant fun machine : Machine σ =>
      machine.HasSuccessor first before where
  writeGeneral has _ _ := has
  writeCounter has _ := has
  writeCodes has _ _ := has
  access has _ _ _ _ := has
  writeControl has _ _ := has
  saveStackPointer has := has
  loadStackPointer has := has
  writeStatus has _ := has
  writeCondition has _ := has
  resetDevices has := has
  accessAny has _ _ _ := has
  writeOpcode has _ := has
  raiseMask has _ := has
  clear has := has

/-- A breakpoint makes one more visit and one more succession. -/
theorem HasSuccessor.bkpt (has : machine.HasSuccessor first before)
    (vector : Fin 8) :
    Ends (HasSuccessor first before) (Execution.bkpt vector machine) := by
  obtain ⟨count, counted, attached⟩ := has
  obtain ⟨left, run, -, succeeded, -, visits⟩ := bkpt_attached attached vector
  rw [run]
  refine ⟨count + 1, by rw [visits, counted, Nat.add_assoc], ?_⟩
  rw [succeeded, Function.iterate_succ_apply']

theorem HasSuccessor.step [Memory σ] (has : machine.HasSuccessor first before) :
    machine.step.HasSuccessor first before := by
  have invariant := hasSuccessor_invariant (σ := σ) first before
  have past : (machine.withPc (machine.registers.pc + 2)).HasSuccessor first
      before := has
  refine invariant.step has (ends_executeOpcode past fun instruction _ => ?_)
  rcases instruction.bkpt_or_ordinary with ⟨vector, rfl⟩ | ordinary
  · exact past.bkpt vector
  · exact (invariant.coupling.executeAny ordinary).ends past

end Machine

namespace Emulator

variable {σ : Type} [Memory σ]

/-- The handlers of all calls of a host succeed one another. -/
theorem hasSuccessor_after {emulator : Emulator σ}
    {first : BreakpointHandler} {before : Nat}
    (has : emulator.machine.HasSuccessor first before)
    (calls : List HostCall) :
    (emulator.after calls).machine.HasSuccessor first before := by
  have invariant := Machine.hasSuccessor_invariant (σ := σ) first before
  apply @after_property σ _ fun emulator =>
    emulator.machine.HasSuccessor first before
  · exact fun emulator has => invariant.reset has
  · intro emulator has
    rw [machine_step]
    split
    · exact has.step
    · exact has
  · exact fun emulator has level => invariant.interrupt has level
  · exact has

/-- A breakpoint goes on with the opcode that its handler answers, at its own
address unless the handler has moved the program counter.  The handler that was
attached last stays; a handler that has detached it, or attached none, comes
back.  After any calls the attached handler is the successor of as many handlers
as were asked, so no breakpoint leaves the machine without one. -/
theorem breakpoints_succeed {emulator : Emulator σ}
    {handler : BreakpointHandler}
    (attached : emulator.machine.handler = some handler) :
    (∀ vector : Fin 8,
      emulator.machine.opcode = 0x4848 + UInt16.ofNat vector.val →
      .mc68010 ≤ emulator.machine.model →
        emulator.machine.step.opcode = handler.replies.get vector ∧
          emulator.machine.step.registers.pc =
              (handler.last? HostAction.pc?).getD
                emulator.machine.registers.pc ∧
            emulator.machine.step.handler =
              some ((handler.last? HostAction.attachment?).join.getD
                handler)) ∧
      ∀ calls, ∃ count,
        (emulator.after calls).machine.visits.length =
            emulator.machine.visits.length + count ∧
          (emulator.after calls).machine.handler =
            some (BreakpointHandler.successor^[count] handler) := by
  constructor
  · intro vector breakpoint present
    exact Machine.step_breakpoint attached breakpoint present
  · intro calls
    have starts : emulator.machine.HasSuccessor handler
        emulator.machine.visits.length := ⟨0, rfl, attached⟩
    exact hasSuccessor_after starts calls

/-- A handler that detaches itself, and answers with another breakpoint. -/
def leavingHandler : BreakpointHandler where
  replies := .replicate 8 0x4849
  actions := [.detach]

/-- A handler that moves the program counter and attaches another in place of
one that it has detached again. -/
def replacingHandler : BreakpointHandler where
  replies := .replicate 8 0x4848
  actions := [.attach (.replicate 8 0x4E71) [], .detach, .writePc 6,
    .attach leavingHandler.replies leavingHandler.actions]

/-- An emulator about to meet a breakpoint with a handler attached. -/
def meetingBreakpoint (handler : BreakpointHandler) : Emulator FlatMemory where
  machine :=
    { model := .mc68010
      condition := .running
      opcode := 0x484A
      memory := ⟨#[]⟩
      handler := some handler }

theorem replacingHandler_succeeds :
    (meetingBreakpoint replacingHandler).machine.step.opcode = 0x4848 ∧
      (meetingBreakpoint replacingHandler).machine.step.registers.pc = 6 ∧
        (meetingBreakpoint replacingHandler).machine.step.handler =
            some leavingHandler ∧
          ((meetingBreakpoint replacingHandler).after
              [.step, .step]).machine.handler =
            some (BreakpointHandler.successor^[2] replacingHandler) := by
  obtain ⟨asks, succeeds⟩ := @breakpoints_succeed FlatMemory _
    (meetingBreakpoint replacingHandler) replacingHandler rfl
  obtain ⟨opcode, counter, handler⟩ := asks 2 rfl (by decide)
  obtain ⟨count, visits, attached⟩ := succeeds [.step, .step]
  obtain rfl : 2 = count := visits.trans (Nat.zero_add count)
  exact ⟨opcode, counter, handler, attached⟩

/-- A handler that has detached itself is attached again. -/
theorem leavingHandler_returns :
    leavingHandler.last? HostAction.attachment? = some none ∧
      (meetingBreakpoint leavingHandler).machine.step.handler =
        some leavingHandler :=
  ⟨rfl, rfl⟩

end Emulator

end M68k

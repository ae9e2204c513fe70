import M68k.Emulator

/-!
# Sequences of host calls

A host drives an emulator by a few calls.  A run is a sequence of steps, so what
steps, resets and interrupts keep holds after every sequence of calls.  Between
the calls a host may also change the machine itself.
-/

namespace M68k

/-- A call that makes an emulator do something. -/
inductive HostCall where
  | reset
  | step
  | run
  | interrupt (level : UInt8)
deriving DecidableEq, Repr

/-- What a call answers: a step whether the emulator can go on, a run how many
instructions it executed, an interrupt whether it was taken. -/
inductive HostAnswer where
  | done
  | flag (value : Bool)
  | count (instructions : UInt64)
deriving DecidableEq, Repr

/-- A call, or a change of the machine between calls. -/
inductive HostCommand where
  | call (call : HostCall)
  | act (action : HostAction)
  | writeCodes (byte : UInt8)

namespace Emulator

variable {σ : Type}

theorem running_of_canStep {emulator : Emulator σ}
    (canStep : emulator.canStep = true) :
    emulator.machine.condition = .running := by
  rw [Emulator.canStep, Bool.and_eq_true] at canStep
  exact eq_of_beq canStep.1

variable [Memory σ]

/-! ## Steps -/

theorem step_of_canStep {emulator : Emulator σ}
    (canStep : emulator.canStep = true) :
    emulator.step.2 =
      { emulator with
        machine := emulator.machine.step
        retired := emulator.retired + 1 } := by
  rw [step, if_pos canStep]

theorem step_of_refused {emulator : Emulator σ}
    (refused : emulator.canStep = false) :
    emulator.step = (false, emulator) := by
  rw [step, refused]
  rfl

/-- A step tells whether another step would execute an instruction. -/
theorem step_answer (emulator : Emulator σ) :
    emulator.step.1 = emulator.step.2.canStep := by
  cases canStep : emulator.canStep with
  | true =>
      rw [step, if_pos canStep]
  | false => rw [step_of_refused canStep, canStep]

theorem machine_step (emulator : Emulator σ) :
    emulator.step.2.machine =
      if emulator.canStep then emulator.machine.step else emulator.machine := by
  rw [step]
  split <;> rfl

theorem runSteps_of_refused {emulator : Emulator σ}
    (refused : emulator.canStep = false) (count : Nat) :
    emulator.runSteps count = emulator := by
  cases count with
  | zero => rfl
  | succ count => rw [runSteps, step_of_refused refused]; rfl

/-- Stopping early is the same as going on, because refused steps change
nothing. -/
theorem runSteps_succ (emulator : Emulator σ) (count : Nat) :
    emulator.runSteps (count + 1) = emulator.step.2.runSteps count := by
  have answer := emulator.step_answer
  rw [runSteps]
  generalize emulator.step = result at answer ⊢
  obtain ⟨more, stepped⟩ := result
  cases more with
  | true => rfl
  | false => exact (runSteps_of_refused answer.symm count).symm

/-- The last of some steps follows the others. -/
theorem runSteps_concat (emulator : Emulator σ) (count : Nat) :
    emulator.runSteps (count + 1) = (emulator.runSteps count).step.2 := by
  induction count generalizing emulator with
  | zero => rw [runSteps_succ, runSteps, runSteps]
  | succ count induction => rw [runSteps_succ, induction, ← runSteps_succ]

/-! ## Calls -/

/-- The emulator after a call. -/
def afterCall (emulator : Emulator σ) : HostCall → Emulator σ
  | .reset => emulator.reset
  | .step => emulator.step.2
  | .run => emulator.run.2
  | .interrupt level => (emulator.interrupt level).2

/-- The emulator after a sequence of calls. -/
def after (emulator : Emulator σ) (calls : List HostCall) : Emulator σ :=
  calls.foldl afterCall emulator

theorem after_append (emulator : Emulator σ) (calls later : List HostCall) :
    emulator.after (calls ++ later) = (emulator.after calls).after later := by
  rw [after, List.foldl_append]
  rfl

theorem after_concat (emulator : Emulator σ) (calls : List HostCall)
    (call : HostCall) :
    emulator.after (calls ++ [call]) =
      (emulator.after calls).afterCall call :=
  emulator.after_append calls [call]

/-- Calls of which none changes anything change nothing together. -/
theorem after_of_still {emulator : Emulator σ} {calls : List HostCall}
    (still : ∀ call ∈ calls, emulator.afterCall call = emulator) :
    emulator.after calls = emulator := by
  induction calls with
  | nil => rfl
  | cons call calls induction =>
      rw [after, List.foldl_cons, still call (List.mem_cons_self ..)]
      exact induction fun later listed =>
        still later (List.mem_cons_of_mem call listed)

/-- A run is a sequence of steps. -/
theorem runSteps_eq_after (emulator : Emulator σ) (count : Nat) :
    emulator.runSteps count = emulator.after (List.replicate count .step) := by
  induction count generalizing emulator with
  | zero => rfl
  | succ count induction =>
      rw [runSteps_succ, induction]
      rfl

def answer (emulator : Emulator σ) : HostCall → HostAnswer
  | .reset => .done
  | .step => .flag emulator.step.1
  | .run => .count emulator.run.1
  | .interrupt level => .flag (emulator.interrupt level).1

/-- The answers to a sequence of calls. -/
def answers (emulator : Emulator σ) : List HostCall → List HostAnswer
  | [] => []
  | call :: calls =>
      emulator.answer call :: (emulator.afterCall call).answers calls

/-- The machines whose instruction a number of steps executes. -/
def executedBySteps (emulator : Emulator σ) : Nat → List (Machine σ)
  | 0 => []
  | count + 1 =>
      if emulator.canStep then
        emulator.machine :: emulator.step.2.executedBySteps count
      else []

/-- The machines whose instruction a call executes. -/
def executedByCall (emulator : Emulator σ) : HostCall → List (Machine σ)
  | .step => emulator.executedBySteps 1
  | .run => emulator.executedBySteps emulator.headroom
  | .reset | .interrupt _ => []

/-- The machines whose instruction a sequence of calls executes, in order. -/
def executed (emulator : Emulator σ) : List HostCall → List (Machine σ)
  | [] => []
  | call :: calls =>
      emulator.executedByCall call ++ (emulator.afterCall call).executed calls

theorem executed_append (emulator : Emulator σ)
    (calls later : List HostCall) :
    emulator.executed (calls ++ later) =
      emulator.executed calls ++ (emulator.after calls).executed later := by
  induction calls generalizing emulator with
  | nil => rfl
  | cons call calls induction =>
      rw [List.cons_append, executed, executed, induction, List.append_assoc]
      rfl

/-! ## Commands -/

/-- The emulator after a command. -/
def afterCommand (emulator : Emulator σ) : HostCommand → Emulator σ
  | .call call => emulator.afterCall call
  | .act action => emulator.withMachine (emulator.machine.perform action)
  | .writeCodes byte =>
      emulator.withMachine (emulator.machine.setConditionCodes (.ofByte byte))

/-- The emulator after a sequence of commands. -/
def afterCommands (emulator : Emulator σ) (commands : List HostCommand) :
    Emulator σ :=
  commands.foldl afterCommand emulator

/-- What a step keeps, a run keeps. -/
theorem runSteps_property {property : Emulator σ → Prop}
    (step : ∀ emulator, property emulator → property emulator.step.2)
    {emulator : Emulator σ} (holds : property emulator) (count : Nat) :
    property (emulator.runSteps count) := by
  induction count generalizing emulator with
  | zero => exact holds
  | succ count kept =>
      rw [runSteps_succ]
      exact kept (step emulator holds)

/-- What resets, steps and interrupts keep holds after all calls. -/
theorem after_property {property : Emulator σ → Prop}
    (reset : ∀ emulator, property emulator → property emulator.reset)
    (step : ∀ emulator, property emulator → property emulator.step.2)
    (interrupt : ∀ emulator, property emulator → ∀ level,
      property (emulator.interrupt level).2)
    {emulator : Emulator σ} (holds : property emulator)
    (calls : List HostCall) : property (emulator.after calls) := by
  induction calls generalizing emulator with
  | nil => exact holds
  | cons call calls kept =>
      suffices property (emulator.afterCall call) from kept this
      cases call with
      | reset => exact reset emulator holds
      | step => exact step emulator holds
      | run => exact runSteps_property step holds emulator.headroom
      | interrupt level => exact interrupt emulator holds level

end Emulator

end M68k

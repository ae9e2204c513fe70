import M68k.Memory.Flat
import M68k.Proofs.HostCalls

/-!
# The limit of instructions

The loop behind a run has no bound of its own: it steps until a step answers
that there is no other.  Under a limit it comes to an end, because every
executed instruction is counted and the count does not wrap before the limit
stops it.  Up to there the limit makes no difference.
-/

namespace M68k

namespace Emulator

variable {σ : Type}

def unlimited (emulator : Emulator σ) : Emulator σ :=
  { emulator with limit := none }

/-- The limit leaves room for a number of instructions. -/
def Allows (emulator : Emulator σ) (count : Nat) : Prop :=
  ∀ limit, emulator.limit = some limit →
    emulator.retired.toNat + count ≤ limit.toNat

variable {emulator : Emulator σ} {limit : UInt64}

theorem canStep_iff (limited : emulator.limit = some limit) :
    emulator.canStep = true ↔
      emulator.machine.condition = .running ∧ emulator.retired < limit := by
  rw [canStep, limitReached, limited, Bool.and_eq_true, beq_iff_eq,
    Option.any_some, Bool.not_eq_true', decide_eq_false_iff_not,
    UInt64.not_le]

theorem canStep_unlimited :
    emulator.unlimited.canStep = true ↔
      emulator.machine.condition = .running := by
  rw [canStep, Bool.and_eq_true, beq_iff_eq]
  exact and_iff_left rfl

variable [Memory σ]

/-- Steps as long as a step answers that another is possible. -/
inductive StepsUntilDone : Emulator σ → Emulator σ → Prop where
  | last {emulator : Emulator σ} (answer : emulator.step.1 = false) :
      StepsUntilDone emulator emulator.step.2
  | again {emulator final : Emulator σ} (answer : emulator.step.1 = true)
      (rest : StepsUntilDone emulator.step.2 final) :
      StepsUntilDone emulator final

/-- The loop has at most one end. -/
theorem StepsUntilDone.unique {final other : Emulator σ}
    (first : emulator.StepsUntilDone final)
    (second : emulator.StepsUntilDone other) : final = other := by
  induction first with
  | last answer =>
      cases second with
      | last _ => rfl
      | again more _ => rw [answer] at more; cases more
  | again answer _ induction =>
      cases second with
      | last done => rw [answer] at done; cases done
      | again _ rest => exact induction rest

/-! ## One step -/

/-- What a step under a limit does. -/
structure StepsWithin (emulator : Emulator σ) (limit : UInt64) : Prop where
  executes : emulator.canStep = true ↔
    emulator.machine.condition = .running ∧ emulator.retired < limit
  executed : emulator.canStep = true →
    emulator.step.2.machine = emulator.machine.step ∧
      emulator.step.2.retired.toNat = emulator.retired.toNat + 1
  answer : emulator.step.1 = true ↔
    emulator.step.2.machine.condition = .running ∧
      emulator.step.2.retired < limit
  refused : emulator.canStep = false → emulator.step = (false, emulator)

theorem limit_step (emulator : Emulator σ) :
    emulator.step.2.limit = emulator.limit := by
  rw [step]
  split <;> rfl

/-- Below a limit the count has room for another instruction. -/
theorem retired_step (limited : emulator.limit = some limit)
    (canStep : emulator.canStep = true) :
    emulator.step.2.retired.toNat = emulator.retired.toNat + 1 := by
  have below : emulator.retired < limit := ((canStep_iff limited).mp canStep).2
  have room : emulator.retired.toNat < limit.toNat := below
  have width := limit.toNat_lt
  rw [step_of_canStep canStep, UInt64.toNat_add, UInt64.toNat_one]
  omega

theorem stepsWithin (limited : emulator.limit = some limit) :
    emulator.StepsWithin limit where
  executes := canStep_iff limited
  executed := fun canStep =>
    ⟨by rw [step_of_canStep canStep], retired_step limited canStep⟩
  answer := by
    rw [step_answer]
    exact canStep_iff ((limit_step emulator).trans limited)
  refused := step_of_refused

/-- Where a step is possible the limit makes no difference. -/
theorem unlimited_step (canStep : emulator.canStep = true) :
    emulator.unlimited.step.2 = emulator.step.2.unlimited := by
  have unlimitedCan : emulator.unlimited.canStep = true :=
    canStep_unlimited.mpr (running_of_canStep canStep)
  rw [step_of_canStep canStep, step_of_canStep unlimitedCan]
  rfl

/-- An instruction that there is room for is executed. -/
theorem step_of_allows {start : Emulator σ} {count turns : Nat}
    (allowed : start.Allows count) (room : turns < count)
    (running : emulator.machine.condition = .running)
    (sameLimit : emulator.limit = start.limit)
    (retired : emulator.retired = start.retired + UInt64.ofNat turns) :
    emulator.step.2 =
      { emulator with
        machine := emulator.machine.step
        retired := emulator.retired + 1 } := by
  apply step_of_canStep
  cases limited : start.limit with
  | none =>
      rw [canStep, running, limitReached, sameLimit, limited]
      rfl
  | some limit =>
      have below := allowed limit limited
      have width := limit.toNat_lt
      refine (canStep_iff (sameLimit.trans limited)).mpr ⟨running, ?_⟩
      rw [retired, UInt64.lt_iff_toNat_lt, UInt64.toNat_add,
        UInt64.toNat_ofNat']
      omega

/-! ## Many steps -/

theorem executedBySteps_of_refused (refused : emulator.canStep = false)
    (count : Nat) : emulator.executedBySteps count = [] := by
  cases count with
  | zero => rfl
  | succ count => rw [executedBySteps, refused]; rfl

theorem executedBySteps_of_canStep (canStep : emulator.canStep = true)
    (count : Nat) :
    emulator.executedBySteps (count + 1) =
      emulator.machine :: emulator.step.2.executedBySteps count := by
  rw [executedBySteps, if_pos canStep]

theorem length_executedBySteps_le (emulator : Emulator σ) (count : Nat) :
    (emulator.executedBySteps count).length ≤ count := by
  induction count generalizing emulator with
  | zero => exact Nat.le_refl 0
  | succ count bounded =>
      rw [executedBySteps]
      split
      · exact Nat.succ_le_succ (bounded _)
      · exact Nat.zero_le _

/-- The count grows by one with each executed instruction. -/
theorem retired_runSteps (limited : emulator.limit = some limit)
    (count : Nat) :
    (emulator.runSteps count).retired.toNat =
      emulator.retired.toNat + (emulator.executedBySteps count).length := by
  induction count generalizing emulator with
  | zero => rfl
  | succ count induction =>
      cases canStep : emulator.canStep with
      | false =>
          rw [runSteps_of_refused canStep, executedBySteps_of_refused canStep]
          rfl
      | true =>
          rw [runSteps_succ, executedBySteps_of_canStep canStep,
            induction ((limit_step emulator).trans limited),
            retired_step limited canStep, List.length_cons]
          omega

/-- As many steps as the limit leaves are enough to reach the end. -/
theorem canStep_runSteps (limited : emulator.limit = some limit)
    {count : Nat} (enough : limit.toNat ≤ emulator.retired.toNat + count) :
    (emulator.runSteps count).canStep = false := by
  induction count generalizing emulator with
  | zero =>
      rw [runSteps, Bool.eq_false_iff, Ne, canStep_iff limited]
      rintro ⟨-, below⟩
      have room : emulator.retired.toNat < limit.toNat := below
      omega
  | succ count induction =>
      cases canStep : emulator.canStep with
      | false => rw [runSteps_of_refused canStep, canStep]
      | true =>
          rw [runSteps_succ]
          apply induction ((limit_step emulator).trans limited)
          rw [retired_step limited canStep]
          omega

theorem unlimited_runSteps (emulator : Emulator σ) (count : Nat) :
    emulator.unlimited.after
        (List.replicate (emulator.executedBySteps count).length .step) =
      (emulator.runSteps count).unlimited := by
  induction count generalizing emulator with
  | zero => rfl
  | succ count induction =>
      cases canStep : emulator.canStep with
      | false =>
          rw [runSteps_of_refused canStep, executedBySteps_of_refused canStep]
          rfl
      | true =>
          rw [runSteps_succ, executedBySteps_of_canStep canStep,
            ← induction, ← unlimited_step canStep]
          rfl

/-- Steps that have come to an end are all the steps of the loop. -/
theorem stepsUntilDone_runSteps {count : Nat}
    (done : (emulator.runSteps count).canStep = false) :
    emulator.StepsUntilDone (emulator.runSteps count) := by
  have refused {emulator : Emulator σ} (refused : emulator.canStep = false) :
      emulator.StepsUntilDone emulator := by
    have answer : emulator.step.1 = false := by rw [step_of_refused refused]
    have last := StepsUntilDone.last answer
    rw [step_of_refused refused] at last
    exact last
  induction count generalizing emulator with
  | zero => exact refused done
  | succ count induction =>
      cases canStep : emulator.canStep with
      | false =>
          rw [runSteps_of_refused canStep]
          exact refused canStep
      | true =>
          rw [runSteps_succ] at done ⊢
          cases more : emulator.step.1 with
          | true => exact .again more (induction done)
          | false =>
              rw [step_answer] at more
              rw [runSteps_of_refused more]
              exact .last (emulator.step_answer.trans more)

/-! ## Runs -/

/-- What a run under a limit does. -/
structure RunsWithin (emulator : Emulator σ) (limit : UInt64) : Prop where
  ends : ∀ final, emulator.StepsUntilDone final ↔ final = emulator.run.2
  answer : emulator.run.1.toNat = (emulator.executedByCall .run).length
  bounded : (emulator.executedByCall .run).length ≤
    limit.toNat - emulator.retired.toNat
  counted : emulator.run.2.retired.toNat =
    emulator.retired.toNat + (emulator.executedByCall .run).length
  below : emulator.run.2.retired.toNat ≤
    max limit.toNat emulator.retired.toNat
  unlimited : emulator.unlimited.after
      (List.replicate (emulator.executedByCall .run).length .step) =
    emulator.run.2.unlimited

theorem runsWithin (limited : emulator.limit = some limit) :
    emulator.RunsWithin limit := by
  have headroom : emulator.headroom =
      limit.toNat - emulator.retired.toNat := by
    rw [Emulator.headroom, limited]
    rfl
  have bounded : (emulator.executedByCall .run).length ≤
      limit.toNat - emulator.retired.toNat :=
    headroom ▸ length_executedBySteps_le emulator emulator.headroom
  have counted : emulator.run.2.retired.toNat =
      emulator.retired.toNat + (emulator.executedByCall .run).length :=
    retired_runSteps limited emulator.headroom
  have width := emulator.run.2.retired.toNat_lt
  constructor
  case ends =>
    have stopped : emulator.run.2.canStep = false :=
      canStep_runSteps limited (by omega)
    have ends : emulator.StepsUntilDone emulator.run.2 :=
      stepsUntilDone_runSteps stopped
    intro final
    exact ⟨fun other => other.unique ends, fun same => same ▸ ends⟩
  case answer =>
    show (emulator.run.2.retired - emulator.retired).toNat = _
    rw [UInt64.toNat_sub_of_le _ _ (by
      rw [UInt64.le_iff_toNat_le, counted]
      exact Nat.le_add_right _ _), counted, Nat.add_sub_cancel_left]
  case bounded => exact bounded
  case counted => exact counted
  case below => omega
  case unlimited => exact unlimited_runSteps emulator emulator.headroom

/-- Under a limit every run comes to an end.  It executes at most as many
instructions as the limit leaves and answers how many, the count never wraps,
and the same number of steps without a limit leads to the same state.  A step
counts one instruction, or changes nothing. -/
theorem limit_respected (emulator : Emulator σ) (limit : UInt64)
    (limited : emulator.limit = some limit) :
    emulator.StepsWithin limit ∧ emulator.RunsWithin limit :=
  ⟨stepsWithin limited, runsWithin limited⟩

/-- A loop of one instruction. -/
def looping : Emulator FlatMemory where
  machine :=
    { model := .mc68000
      condition := .running
      opcode := 0x60FE
      memory := ⟨#[0x60, 0xFE]⟩ }
  limit := some 5
  retired := 2

/-- A loop without end executes the three instructions that are left. -/
theorem looping_stops :
    looping.limit = some 5 ∧ looping.run.1 = 3 ∧
      looping.StepsUntilDone looping.run.2 ∧
      looping.StepsWithin 5 ∧ looping.RunsWithin 5 := by
  have limited : looping.limit = some 5 := rfl
  obtain ⟨steps, runs⟩ := limit_respected looping 5 limited
  exact ⟨limited, by decide +kernel, (runs.ends _).mpr rfl, steps, runs⟩

end Emulator

end M68k

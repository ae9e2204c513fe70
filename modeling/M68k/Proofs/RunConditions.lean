import M68k.Memory.Flat
import M68k.Proofs.DetachedMachine

/-!
# Run conditions

What each call makes of the run condition.  Only STOP among the instructions
changes it, a failed delivery halts the machine, and what is neither running nor
stopped waits for a reset, which forgets everything that came before.
-/

namespace M68k

namespace Machine

variable {σ : Type}

/-- An interrupt at a level is above the mask, or cannot be masked. -/
def PassesMask (machine : Machine σ) (level : UInt8) : Prop :=
  level &&& 7 ≠ 0 ∧
    (level &&& 7 = 7 ∨ machine.status.interruptMask < level &&& 7)

theorem acceptsInterrupt_iff (machine : Machine σ) (level : UInt8) :
    machine.acceptsInterrupt (level &&& 7) = true ↔
      (machine.condition = .running ∨ machine.condition = .stopped) ∧
        machine.PassesMask level := by
  simp only [acceptsInterrupt, PassesMask, Bool.and_eq_true, Bool.or_eq_true,
    beq_iff_eq, bne_iff_ne, decide_eq_true_eq]
  tauto

variable [Memory σ]

/-- The machine is about to execute STOP with an immediate. -/
structure StopsWith (machine : Machine σ) (immediate : UInt16) : Prop where
  decoded : Instruction.decode? machine.opcode = some .stop
  supervisor : machine.isSupervisor = true
  fetched : ∃ left, Execution.fetchWord
    (machine.withPc (machine.registers.pc + 2)) = .ok immediate left

/-- The next step leads to an exception, and its entry fails. -/
def FailsDelivery (machine : Machine σ) : Prop :=
  ∃ left pending fault failed, machine.beforeEntry = (left, some pending) ∧
    Execution.enterException pending.frame pending.vectorOffset left =
      .error fault failed

/-! ## Instructions -/

/-- Apart from STOP, instructions keep the run condition. -/
theorem condition_invariant (condition : RunCondition) :
    SupervisorInvariant fun machine : Machine σ =>
      machine.condition = condition where
  writeGeneral same _ _ := same
  writeCounter same _ := same
  writeCodes same _ _ := same
  access same _ _ _ _ := same
  writeControl same _ _ := same
  saveStackPointer same := same
  loadStackPointer same := same
  writeStatus same _ := same
  resetDevices same := same
  accessAny same _ _ _ := same

/-- An instruction that is not a completed STOP keeps the run condition. -/
theorem ends_executeOpcode_condition {machine : Machine σ}
    (detached : machine.handler = none)
    (goesOn : ∀ immediate, ¬machine.StopsWith immediate) :
    Ends (fun left => left.condition = machine.condition)
      (Execution.executeOpcode
        (machine.withPc (machine.registers.pc + 2))) := by
  have coupling := (condition_invariant (σ := σ) machine.condition).coupling
  have passed : (machine.withPc (machine.registers.pc + 2)).condition =
    machine.condition := rfl
  refine ends_executeOpcode passed ?_
  intro instruction admitted
  obtain ⟨decoded, -, allowed⟩ := Instruction.admit_eq_ok admitted
  rcases instruction.bkpt_or_ordinary with ⟨vector, rfl⟩ | ordinary
  · have unattached :
        (machine.withPc (machine.registers.pc + 2)).handler = none := detached
    rw [Instruction.execute, Execution.bkpt_detached unattached]
    exact passed
  · by_cases stops : instruction = .stop
    · subst stops
      have supervisor : machine.isSupervisor = true :=
        allowed.resolve_right fun free => by cases free
      have fetching := coupling.fetchWord.ends passed
      rw [Instruction.execute, Execution.stop, Execution.bind_apply]
      cases fetched : Execution.fetchWord
          (machine.withPc (machine.registers.pc + 2)) with
      | ok immediate left =>
          exact absurd ⟨decoded, supervisor, left, fetched⟩
            (goesOn immediate)
      | error fault left =>
          rw [fetched] at fetching
          exact fetching
    · have agree := coupling.executeAt ⟨rfl, passed⟩ ordinary stops
        fun _ _ _ _ => rfl
      exact agree.ends

/-- A completed STOP ends without a fault, and no longer running. -/
theorem StopsWith.executeOpcode {machine : Machine σ} {immediate : UInt16}
    (stops : machine.StopsWith immediate) :
    ∃ left,
      Execution.executeOpcode
          (machine.withPc (machine.registers.pc + 2)) = .ok () left ∧
        left.condition =
          if immediate = 0xFFFF then .finished else .stopped := by
  obtain ⟨left, fetched⟩ := stops.fetched
  have anyModel (model : Model) :
      Instruction.admit machine.opcode model true = .ok .stop := by
    unfold Instruction.admit
    rw [stops.decoded]
    cases model <;> rfl
  let passed := machine.withPc (machine.registers.pc + 2)
  have admitted : Instruction.admit passed.opcode passed.model
      passed.isSupervisor = .ok .stop := by
    have supervisor : passed.isSupervisor = true := stops.supervisor
    rw [supervisor]
    exact anyModel machine.model
  have executed : Execution.executeOpcode passed = Execution.stop passed :=
    Execution.executeOpcode_of_admitted admitted
  rw [executed, Execution.stop, Execution.bind_apply, fetched]
  by_cases last : immediate = 0xFFFF
  · simp only [if_pos last]
    exact ⟨_, rfl, rfl⟩
  · simp only [if_neg last]
    exact ⟨_, rfl, rfl⟩

theorem StopsWith.beforeEntry {machine : Machine σ} {immediate : UInt16}
    (stops : machine.StopsWith immediate) :
    ∃ left, machine.beforeEntry = (left, none) ∧
      left.condition =
        if immediate = 0xFFFF then .finished else .stopped := by
  obtain ⟨left, executed, condition⟩ := stops.executeOpcode
  have stopped : left.condition ≠ .running := by
    rw [condition]
    split <;> decide
  refine ⟨left, ?_, condition⟩
  simp only [Machine.beforeEntry, executed]
  rw [if_pos stopped]

/-- The run condition after a step that executes STOP. -/
theorem StopsWith.step_condition {machine : Machine σ} {immediate : UInt16}
    (stops : machine.StopsWith immediate) :
    ¬machine.FailsDelivery ∧
      machine.step.condition =
        if immediate = 0xFFFF then .finished else .stopped := by
  obtain ⟨left, begun, condition⟩ := stops.beforeEntry
  constructor
  · rintro ⟨other, pending, fault, failed, entry, -⟩
    rw [begun] at entry
    cases entry
  · rw [step_eq_enterPending, begun]
    exact condition

theorem StopsWith.unique {machine : Machine σ} {immediate other : UInt16}
    (stops : machine.StopsWith immediate) (stopsToo : machine.StopsWith other) :
    immediate = other := by
  obtain ⟨left, fetched⟩ := stops.fetched
  obtain ⟨leftToo, fetchedToo⟩ := stopsToo.fetched
  rw [fetched] at fetchedToo
  cases fetchedToo
  rfl

/-- A step that is not a completed STOP goes on, unless the entry of its
exception fails. -/
theorem step_condition_of_not_stopping {machine : Machine σ}
    (detached : machine.handler = none) (running : machine.condition = .running)
    (goesOn : ∀ immediate, ¬machine.StopsWith immediate) :
    machine.FailsDelivery ∧ machine.step.condition = .halted ∨
      ¬machine.FailsDelivery ∧ machine.step.condition = .running := by
  have begun : machine.beforeEntry.1.condition = .running := by
    refine @beforeEntry_property σ _ (fun left => left.condition = .running)
      machine ?_ ?_ ?_
    · exact running ▸ ends_executeOpcode_condition detached goesOn
    · exact fun _ same _ => same
    · exact fun _ same _ _ => same
  rw [step_eq_enterPending]
  cases first : machine.beforeEntry with
  | mk left pending =>
      rw [first] at begun
      cases pending with
      | none =>
          refine .inr ⟨?_, begun⟩
          rintro ⟨other, pending, fault, failed, entry, -⟩
          rw [first] at entry
          cases entry
      | some pending =>
          have entered := (ends_enterException pending.frame
            pending.vectorOffset left).mono fun _ same =>
              same.condition.trans begun
          cases entry : Execution.enterException pending.frame
              pending.vectorOffset left with
          | ok value after =>
              rw [entry] at entered
              refine .inr ⟨?_, ?_⟩
              · rintro ⟨other, later, fault, failed, same, failing⟩
                rw [first] at same
                cases same
                rw [entry] at failing
                cases failing
              · rw [enterPending, entry]
                exact entered
          | error fault after =>
              refine .inl ⟨⟨left, pending, fault, after, first, entry⟩, ?_⟩
              rw [enterPending, entry]
              rfl

/-- Where a step of a running machine leads, and when. -/
structure StepsToCondition (machine : Machine σ) : Prop where
  finishes : machine.step.condition = .finished ↔ machine.StopsWith 0xFFFF
  stops : machine.step.condition = .stopped ↔
    ∃ immediate, immediate ≠ 0xFFFF ∧ machine.StopsWith immediate
  halts : machine.step.condition = .halted ↔ machine.FailsDelivery
  started : machine.step.condition ≠ .startup

theorem stepsToCondition {machine : Machine σ}
    (detached : machine.handler = none)
    (running : machine.condition = .running) : machine.StepsToCondition := by
  by_cases stopping : ∃ immediate, machine.StopsWith immediate
  · obtain ⟨immediate, stops⟩ := stopping
    obtain ⟨delivered, condition⟩ := stops.step_condition
    by_cases last : immediate = 0xFFFF
    · subst last
      rw [if_pos rfl] at condition
      constructor
      · exact iff_of_true condition stops
      · rw [condition]
        refine iff_of_false (by decide) ?_
        rintro ⟨other, different, stopsToo⟩
        exact different (stopsToo.unique stops)
      · rw [condition]
        exact iff_of_false (by decide) delivered
      · rw [condition]
        decide
    · rw [if_neg last] at condition
      constructor
      · rw [condition]
        exact iff_of_false (by decide) fun stopsToo =>
          last (stops.unique stopsToo)
      · exact iff_of_true condition ⟨immediate, last, stops⟩
      · rw [condition]
        exact iff_of_false (by decide) delivered
      · rw [condition]
        decide
  · have goesOn (immediate : UInt16) : ¬machine.StopsWith immediate :=
      fun stops => stopping ⟨immediate, stops⟩
    have unstopped :
        ¬∃ immediate, immediate ≠ 0xFFFF ∧ machine.StopsWith immediate :=
      fun ⟨immediate, _, stops⟩ => goesOn immediate stops
    rcases step_condition_of_not_stopping detached running goesOn with
      ⟨failed, condition⟩ | ⟨delivered, condition⟩
    · constructor <;> rw [condition]
      · exact iff_of_false (by decide) (goesOn 0xFFFF)
      · exact iff_of_false (by decide) unstopped
      · exact iff_of_true rfl failed
      · decide
    · constructor <;> rw [condition]
      · exact iff_of_false (by decide) (goesOn 0xFFFF)
      · exact iff_of_false (by decide) unstopped
      · exact iff_of_false (by decide) delivered
      · decide

/-! ## Resets -/

/-- The machine with the run condition, breakpoint handler and visits of
another. -/
def withHistory (machine other : Machine σ) : Machine σ :=
  { machine with
    condition := other.condition
    handler := other.handler
    visits := other.visits }

omit [Memory σ] in
theorem coupled_onBus_withHistory {α : Type} (other : Machine σ)
    (transaction : Bus σ α) :
    Coupled (fun left right => right = left.withHistory other)
      (Execution.onBus transaction) (Execution.onBus transaction) := by
  intro left right same
  subst same
  exact .onBus rfl rfl

theorem coupled_prefetch_withHistory (other : Machine σ) :
    Coupled (fun left right => right = left.withHistory other)
      Execution.prefetch Execution.prefetch := by
  have observe {α : Type} (view : Machine σ → α)
      (blind : ∀ machine : Machine σ,
        view (machine.withHistory other) = view machine) :
      Coupled (fun left right => right = left.withHistory other)
        (Execution.observe view) (Execution.observe view) :=
    .observe fun left right same => same ▸ (blind left).symm
  have word (address : UInt32) :
      Coupled (fun left right => right = left.withHistory other)
        (Execution.instructionWordAt address)
        (Execution.instructionWordAt address) := by
    unfold Execution.instructionWordAt
    refine Coupled.throwIf (by decide) ?_
    intro _
    exact (observe programSpace fun _ => rfl).bind fun space =>
      coupled_onBus_withHistory other (Memory.fetchWord address space)
  exact (observe (·.registers.pc) fun _ => rfl).bind fun address =>
    (word address).bind fun _ => .update fun _ _ same => same ▸ rfl

theorem coupled_loadResetVectors_withHistory (other : Machine σ) :
    Coupled (fun left right => right = left.withHistory other)
      loadResetVectors loadResetVectors :=
  (coupled_onBus_withHistory other _).bind fun _ =>
    (coupled_onBus_withHistory other _).bind fun _ =>
      (Coupled.update fun _ _ same => same ▸ rfl).bind fun _ =>
        (Coupled.update fun _ _ same => same ▸ rfl).bind fun _ =>
          coupled_prefetch_withHistory other

/-- A reset forgets everything but the model, the memory, and what breakpoint
handlers there are and have seen. -/
theorem reset_eq_fresh (machine : Machine σ) :
    machine.reset =
      { reset { model := machine.model, memory := machine.memory } with
        handler := machine.handler
        visits := machine.visits } := by
  have loaded : Agree (fun left right => right = left.withHistory machine)
      (loadResetVectors
        (cleared { model := machine.model, memory := machine.memory }))
      (loadResetVectors machine.cleared) :=
    coupled_loadResetVectors_withHistory machine _ _ rfl
  rw [reset, reset]
  generalize loadResetVectors
    (cleared { model := machine.model, memory := machine.memory }) = fresh
      at loaded ⊢
  generalize loadResetVectors machine.cleared = used at loaded ⊢
  cases loaded with
  | ok same => rw [same]; rfl
  | error ordinary same => rw [same]; rfl

end Machine

/-! ## The host -/

namespace Emulator

variable {σ : Type} [Memory σ]

/-- What the calls make of the run condition. -/
structure ObeysConditions (emulator : Emulator σ) : Prop where
  still : emulator.machine.condition ≠ .running ∨
      emulator.limitReached = true →
    emulator.step = (false, emulator) ∧ emulator.run = (0, emulator)
  refuses : emulator.machine.condition = .startup ∨
      emulator.machine.condition = .halted ∨
      emulator.machine.condition = .finished →
    ∀ level, emulator.interrupt level = (false, emulator)
  masked : ∀ level, ¬emulator.machine.PassesMask level →
    emulator.interrupt level = (false, emulator)
  /-- Only a reset ends a start, a halt or the end of a run. -/
  waits : emulator.machine.condition = .startup ∨
      emulator.machine.condition = .halted ∨
      emulator.machine.condition = .finished →
    ∀ later, .reset ∉ later → emulator.after later = emulator
  /-- Only a reset or an interrupt that passes the mask ends a stop. -/
  sleeps : emulator.machine.condition = .stopped → ∀ later, .reset ∉ later →
    (∀ level, .interrupt level ∈ later →
      ¬emulator.machine.PassesMask level) →
      emulator.after later = emulator
  interrupts : emulator.machine.condition = .running ∨
      emulator.machine.condition = .stopped →
    ∀ level, emulator.machine.PassesMask level →
      (∃ entered, emulator.machine.interruptEntry level = .ok () entered) ∧
          (emulator.interrupt level).1 = true ∧
          (emulator.interrupt level).2.machine.condition = .running ∨
        (∃ fault failed, emulator.machine.interruptEntry level =
            .error fault failed) ∧
          (emulator.interrupt level).1 = false ∧
          (emulator.interrupt level).2.machine.condition = .halted
  steps : emulator.canStep = true →
    emulator.step.2.machine = emulator.machine.step ∧
      emulator.machine.StepsToCondition
  runs : ∃ count, emulator.run.2 =
    emulator.after (List.replicate count .step)
  resets : emulator.reset.machine.condition = .running ∨
    emulator.reset.machine.condition = .halted
  /-- A reset makes a used emulator the same as a new one. -/
  forgets :
    let fresh := (new emulator.machine.model emulator.machine.memory
      emulator.limit).reset
    emulator.reset = fresh.withMachine
      { fresh.machine with visits := emulator.machine.visits }

variable {emulator : Emulator σ}

theorem still_of_condition
    (prevented : emulator.machine.condition ≠ .running ∨
      emulator.limitReached = true) :
    emulator.step = (false, emulator) ∧ emulator.run = (0, emulator) := by
  have refused : emulator.canStep = false := by
    rw [canStep, Bool.and_eq_false_iff, beq_eq_false_iff_ne,
      Bool.not_eq_false']
    exact prevented
  refine ⟨step_of_refused refused, ?_⟩
  rw [run, runSteps_of_refused refused, UInt64.sub_self]

theorem interrupt_of_refused {level : UInt8}
    (refused : ¬((emulator.machine.condition = .running ∨
        emulator.machine.condition = .stopped) ∧
      emulator.machine.PassesMask level)) :
    emulator.interrupt level = (false, emulator) := by
  rw [← Machine.acceptsInterrupt_iff, Bool.not_eq_true] at refused
  rw [interrupt, Machine.interrupt_eq_entry, refused]
  rfl

/-- Without a reset, a machine that is not running stays as it is as long as
interrupts are refused. -/
theorem after_of_refused {later : List HostCall}
    (unable : emulator.machine.condition ≠ .running)
    (kept : .reset ∉ later)
    (refused : ∀ level, .interrupt level ∈ later →
      emulator.interrupt level = (false, emulator)) :
    emulator.after later = emulator := by
  obtain ⟨step, run⟩ := still_of_condition (.inl unable)
  apply after_of_still
  intro call listed
  cases call with
  | reset => exact absurd listed kept
  | step => rw [afterCall, step]
  | run => rw [afterCall, run]
  | interrupt level => rw [afterCall, refused level listed]

theorem condition_reset (emulator : Emulator σ) :
    emulator.reset.machine.condition = .running ∨
      emulator.reset.machine.condition = .halted := by
  show emulator.machine.reset.condition = _ ∨
    emulator.machine.reset.condition = _
  rw [Machine.reset]
  cases Machine.loadResetVectors emulator.machine.cleared with
  | ok value started => exact .inl rfl
  | error fault failed => exact .inr rfl

theorem interrupt_of_accepted
    (awake : emulator.machine.condition = .running ∨
      emulator.machine.condition = .stopped) {level : UInt8}
    (passes : emulator.machine.PassesMask level) :
    (∃ entered, emulator.machine.interruptEntry level = .ok () entered) ∧
        (emulator.interrupt level).1 = true ∧
        (emulator.interrupt level).2.machine.condition = .running ∨
      (∃ fault failed, emulator.machine.interruptEntry level =
          .error fault failed) ∧
        (emulator.interrupt level).1 = false ∧
        (emulator.interrupt level).2.machine.condition = .halted := by
  have accepted :=
    (emulator.machine.acceptsInterrupt_iff level).mpr ⟨awake, passes⟩
  rw [interrupt, Machine.interrupt_eq_entry, accepted, if_pos rfl]
  have ends := (Machine.ends_enterException .short
    (vectorTableOffset (autovectorBase + (level &&& 7)))
    { emulator.machine with condition := .running }).mono fun _ same =>
      same.condition
  cases entry : emulator.machine.interruptEntry level with
  | ok value entered =>
      rw [Machine.interruptEntry] at entry
      rw [entry] at ends
      exact .inl ⟨⟨entered, rfl⟩, rfl, ends⟩
  | error fault failed => exact .inr ⟨⟨fault, failed, rfl⟩, rfl, rfl⟩

/-- A new emulator has no handler and has visited none. -/
theorem reset_eq_new (detached : emulator.machine.handler = none) :
    let fresh := (new emulator.machine.model emulator.machine.memory
      emulator.limit).reset
    emulator.reset = fresh.withMachine
      { fresh.machine with visits := emulator.machine.visits } := by
  intro fresh
  have new : Machine.Detached emulator.machine.model
      ({ model := emulator.machine.model
         memory := emulator.machine.memory } : Machine σ) := ⟨rfl, rfl⟩
  have machines : emulator.machine.reset =
      { fresh.machine with visits := emulator.machine.visits } := by
    rw [Machine.reset_eq_fresh, detached.trans new.reset.handler.symm]
    rfl
  rw [reset, machines]
  rfl

/-- Whatever a host has called, startup, a halt and the end of a run are left
only by a reset, a stop only by a reset or by an interrupt that passes the mask,
a running machine stops or finishes only by STOP and halts only by a failed
delivery, and a reset makes a used machine as good as a new one. -/
theorem conditions_obeyed (emulator : Emulator σ)
    (detached : emulator.machine.handler = none) (calls : List HostCall) :
    (emulator.after calls).ObeysConditions := by
  have unattached : (emulator.after calls).machine.handler = none :=
    (detached_after ⟨rfl, detached⟩ calls).handler
  have refuses (level : UInt8)
      (condition : (emulator.after calls).machine.condition = .startup ∨
        (emulator.after calls).machine.condition = .halted ∨
        (emulator.after calls).machine.condition = .finished) :
      (emulator.after calls).interrupt level =
        (false, emulator.after calls) := by
    apply interrupt_of_refused
    rintro ⟨awake, -⟩
    rcases condition with idle | idle | idle <;> simp [idle] at awake
  have masked (level : UInt8)
      (blocked : ¬(emulator.after calls).machine.PassesMask level) :
      (emulator.after calls).interrupt level =
        (false, emulator.after calls) :=
    interrupt_of_refused fun accepted => blocked accepted.2
  constructor
  case still => exact still_of_condition
  case refuses => exact fun condition level => refuses level condition
  case masked => exact masked
  case waits =>
    intro condition later kept
    have unable : (emulator.after calls).machine.condition ≠ .running := by
      rcases condition with idle | idle | idle <;> simp [idle]
    exact after_of_refused unable kept fun level _ => refuses level condition
  case sleeps =>
    intro condition later kept blocked
    have unable : (emulator.after calls).machine.condition ≠ .running := by
      simp [condition]
    exact after_of_refused unable kept fun level listed =>
      masked level (blocked level listed)
  case interrupts => exact fun awake level => interrupt_of_accepted awake
  case steps =>
    intro canStep
    rw [step_of_canStep canStep]
    exact ⟨rfl,
      Machine.stepsToCondition unattached (running_of_canStep canStep)⟩
  case runs => exact ⟨_, runSteps_eq_after _ _⟩
  case resets => exact condition_reset _
  case forgets => exact reset_eq_new unattached

/-- A program that only asks for the end of the run. -/
def finishing : Emulator FlatMemory :=
  new .mc68000 ⟨#[0, 0, 0, 0, 0, 0, 0, 8, 0x4E, 0x72, 0xFF, 0xFF]⟩

/-- After the end of the run nothing changes, not even by an interrupt that no
mask holds back. -/
theorem finishing_obeys_conditions :
    let finished := finishing.after [.reset, .step]
    finishing.machine.handler = none ∧
      (finishing.after [.reset]).machine.StopsWith 0xFFFF ∧
      finished.machine.condition = .finished ∧
      finished.run = (0, finished) ∧
      finished.interrupt 7 = (false, finished) := by
  intro finished
  have detached : finishing.machine.handler = none := rfl
  have ended : finished.machine.condition = .finished := by decide +kernel
  have before := conditions_obeyed finishing detached [.reset]
  have after := conditions_obeyed finishing detached [.reset, .step]
  obtain ⟨-, steps⟩ := before.steps (by decide +kernel)
  have finishes : (finishing.after [.reset]).machine.step.condition =
      .finished := by decide +kernel
  have unable : finished.machine.condition ≠ .running := by
    rw [ended]
    decide
  exact ⟨detached, steps.finishes.mp finishes, ended,
    (after.still (.inl unable)).2, after.refuses (.inr (.inr ended)) 7⟩

end Emulator

end M68k

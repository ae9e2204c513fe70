import M68k.Proofs.InstructionCoupling

/-!
# Coupled system instructions

A coupling that also respects control registers, status words and alternate
spaces couples the instructions of supervisor mode with themselves.  MOVEC needs
in addition that both machines have the control register it names, and STOP that
the relation is not about run conditions.
-/

namespace M68k

/-- A coupling that the updates and accesses of supervisor mode preserve too. -/
structure SupervisorCoupling {σ τ : Type} [Memory σ] [Memory τ]
    (relation : Machine σ → Machine τ → Prop) : Prop
    extends Coupling relation where
  control : ∀ {left right}, relation left right → ∀ register,
    left.registers.control register = right.registers.control register
  writeControl : ∀ {left right}, relation left right → ∀ register value,
    relation
      { left with registers := left.registers.setControl register value }
      { right with registers := right.registers.setControl register value }
  saveStackPointer : ∀ {left right}, relation left right →
    relation left.saveStackPointer right.saveStackPointer
  loadStackPointer : ∀ {left right}, relation left right →
    relation left.loadStackPointer right.loadStackPointer
  writeStatus : ∀ {left right}, relation left right → ∀ word,
    relation (left.setStatusWord word) (right.setStatusWord word)
  resetDevices : ∀ {left right}, relation left right →
    relation { left with memory := Memory.resetDevices left.memory }
      { right with memory := Memory.resetDevices right.memory }
  accessAny : ∀ {left right}, relation left right →
    ∀ space (access : Access), access.Aligned left →
      Agree relation (Execution.onBus (access.ask space) left)
        (Execution.onBus (access.ask space) right)

/-- A coupling of machines with the same control registers, whatever their run
condition. -/
structure SystemCoupling {σ τ : Type} [Memory σ] [Memory τ]
    (relation : Machine σ → Machine τ → Prop) : Prop
    extends SupervisorCoupling relation where
  available : ∀ {left right}, relation left right → ∀ id,
    ControlRegister.forModel? id left.model =
      ControlRegister.forModel? id right.model
  writeCondition : ∀ {left right}, relation left right → ∀ condition,
    relation { left with condition } { right with condition }

namespace SupervisorCoupling

open Execution

variable {σ τ : Type} [Memory σ] [Memory τ]
variable {relation : Machine σ → Machine τ → Prop}
variable (coupling : SupervisorCoupling relation)

include coupling

theorem readControl (register : ControlRegister) :
    Coupled relation (Execution.control register)
      (Execution.control register) :=
  .observe fun _ _ related => coupling.control related register

theorem setControl (register : ControlRegister) (value : UInt32) :
    Coupled relation (Execution.setControl register value)
      (Execution.setControl register value) :=
  .update fun _ _ related => coupling.writeControl related register value

theorem setStatusWord (word : UInt16) :
    Coupled relation (Execution.setStatusWord word)
      (Execution.setStatusWord word) :=
  .update fun _ _ related => coupling.writeStatus related word

theorem readIn (space : FunctionCode) (address : UInt32)
    (size : OperandSize) :
    Coupled relation (Execution.readIn space address size)
      (Execution.readIn space address size) := by
  intro left right related
  refine .readIn related (coupling.alignment related) ?_ size
  intro access _ aligned
  exact coupling.accessAny related space access aligned

theorem writeIn (space : FunctionCode) (address : UInt32)
    (size : OperandSize) (value : UInt32) :
    Coupled relation (Execution.writeIn space address size value)
      (Execution.writeIn space address size value) := by
  intro left right related
  refine .writeIn related (coupling.alignment related) ?_ size
  intro access _ aligned
  exact coupling.accessAny related space access aligned

theorem rte : Coupled relation Execution.rte Execution.rte := by
  refine (coupling.register _).bind fun pointer =>
    (coupling.readData _ _).bind fun format => ?_
  cases frameSize? (format.toUInt16 >>> 12) with
  | none => exact .throw (by decide)
  | some size =>
      exact (coupling.readData _ _).bind fun _ =>
        (coupling.readData _ _).bind fun _ =>
          (coupling.setRegister _ _).bind fun _ =>
            (coupling.setPc _).bind fun _ => coupling.setStatusWord _

theorem logicToSr (operation : StatusOperation) :
    Coupled relation (Execution.logicToSr operation)
      (Execution.logicToSr operation) :=
  coupling.fetchWord.bind fun _ =>
    (Coupled.observe fun _ _ related => coupling.status related).bind
      fun _ => coupling.setStatusWord _

theorem moves (size : OperandSize) (mode : AddressingMode) :
    Coupled relation (Execution.moves size mode)
      (Execution.moves size mode) := by
  refine coupling.fetchWord.bind fun extension =>
    (coupling.resolveAddress mode size).bind fun address => ?_
  refine .ite (fun _ => ?_) fun _ => ?_
  · exact (coupling.readControl .dfc).bind fun _ =>
      (coupling.register _).bind fun _ => coupling.writeIn _ _ _ _
  · exact (coupling.readControl .sfc).bind fun _ =>
      (coupling.readIn _ _ _).bind fun _ => coupling.writeLocation _ _ _

/-- The control register that MOVEC names, if both machines have it or both lack
it. -/
theorem fetchControl {left : Machine σ} {right : Machine τ}
    (related : relation left right)
    (available : ∀ word fetched, Execution.fetchWord left = .ok word fetched →
      ControlRegister.forModel? (word &&& 0xFFF) left.model =
        ControlRegister.forModel? (word &&& 0xFFF) right.model) :
    Agree relation (Execution.fetchControl left)
      (Execution.fetchControl right) := by
  have fetching := coupling.fetchWord left right related
  simp only [Execution.fetchControl, Execution.bind_apply]
  generalize leftRun : Execution.fetchWord left = leftResult at fetching ⊢
  generalize rightRun : Execution.fetchWord right = rightResult at fetching ⊢
  cases fetching with
  | error ordinary after => exact .error ordinary after
  | @ok word leftAfter rightAfter after =>
      -- Fetching the number changes neither model.
      have same : ControlRegister.forModel? (word &&& 0xFFF) leftAfter.model =
          ControlRegister.forModel? (word &&& 0xFFF) rightAfter.model := by
        obtain ⟨leftMemory, -, rfl⟩ := Execution.fetchWord_eq_ok leftRun
        obtain ⟨rightMemory, -, rfl⟩ := Execution.fetchWord_eq_ok rightRun
        exact available word _ leftRun
      simp only [Execution.controlFor?, Execution.observe, same]
      cases ControlRegister.forModel? (word &&& 0xFFF) rightAfter.model with
      | some register => exact .ok after
      | none =>
          exact (coupling.pc.bind fun _ =>
            (coupling.setPc _).bind fun _ =>
              Coupled.throw (by decide)) _ _ after

/-- Every instruction but the breakpoint and STOP. -/
theorem executeAt {left : Machine σ} {right : Machine τ}
    (related : relation left right) {instruction : Instruction}
    (ordinary : ∀ vector, instruction ≠ .bkpt vector)
    (unstopped : instruction ≠ .stop)
    (available : instruction = .movecStore ∨ instruction = .movecLoad →
      ∀ word fetched, Execution.fetchWord left = .ok word fetched →
        ControlRegister.forModel? (word &&& 0xFFF) left.model =
          ControlRegister.forModel? (word &&& 0xFFF) right.model) :
    Agree relation (instruction.execute left) (instruction.execute right) := by
  by_cases unreserved : instruction.privilegedSince? ≠ some .mc68000
  · exact coupling.execute unreserved ordinary left right related
  · cases instruction with
    | logicToSr operation =>
        exact coupling.logicToSr operation left right related
    | moveToSr source =>
        exact ((coupling.fetchOperand source .word).bind fun _ =>
          coupling.setStatusWord _) left right related
    | moveToUsp source =>
        exact ((coupling.register _).bind fun value =>
          coupling.setControl .usp value) left right related
    | moveFromUsp destination =>
        exact ((coupling.readControl .usp).bind fun _ =>
          coupling.setRegister _ _) left right related
    | moves size mode => exact coupling.moves size mode left right related
    | movecStore =>
        refine (coupling.fetchControl related (available (.inl rfl))).bind ?_
        rintro ⟨general, register⟩
        exact (coupling.register general).bind fun _ =>
          (Coupled.update fun _ _ => coupling.saveStackPointer).bind fun _ =>
            (coupling.setControl _ _).bind fun _ =>
              .update fun _ _ => coupling.loadStackPointer
    | movecLoad =>
        refine (coupling.fetchControl related (available (.inr rfl))).bind ?_
        rintro ⟨general, register⟩
        exact (Coupled.update fun _ _ => coupling.saveStackPointer).bind
          fun _ => (coupling.readControl register).bind fun _ =>
            coupling.setRegister _ _
    | rte => exact coupling.rte left right related
    | reset =>
        exact Coupled.update (fun _ _ => coupling.resetDevices) left right
          related
    | stop => exact absurd rfl unstopped
    | data instruction => exact coupling.data instruction left right related
    | _ => exact absurd (fun held => by cases held) unreserved

theorem stop
    (writeCondition : ∀ {left right}, relation left right → ∀ condition,
      relation { left with condition } { right with condition }) :
    Coupled relation Execution.stop Execution.stop := by
  have setCondition (condition : RunCondition) :
      Coupled relation (Execution.setCondition condition)
        (Execution.setCondition condition) :=
    .update fun _ _ related => writeCondition related condition
  exact coupling.fetchWord.bind fun _ =>
    .ite (fun _ => setCondition _) fun _ =>
      (coupling.setStatusWord _).bind fun _ => setCondition _

end SupervisorCoupling

/-- Every instruction but the breakpoint. -/
theorem SystemCoupling.executeAny {σ τ : Type} [Memory σ] [Memory τ]
    {relation : Machine σ → Machine τ → Prop}
    (coupling : SystemCoupling relation) {instruction : Instruction}
    (ordinary : ∀ vector, instruction ≠ .bkpt vector) :
    Coupled relation instruction.execute instruction.execute := by
  by_cases stops : instruction = .stop
  · rw [stops]
    exact coupling.stop coupling.writeCondition
  · intro left right related
    exact coupling.executeAt related ordinary stops
      fun _ _ _ _ => coupling.available related _

end M68k

import M68k.Memory.Watched
import M68k.Proofs.ConditionCodeRange
import M68k.Proofs.ExecutionSteps

/-!
# Coupled executions

Two executions are coupled by a relation of machines when, from related
machines, both end with the same value or with the same fault, and in related
machines.  A relation that observations respect, and that the updates and
accesses of ordinary instructions preserve, couples every ordinary instruction
with itself.  Invariants of one machine are the special case in which both
machines are the same.
-/

namespace M68k

/-! ## Accesses of a machine -/

namespace Access

/-- Words and longs are where the machine can have them. -/
def Aligned {σ : Type} (machine : Machine σ) : Access → Prop
  | readWord address | readLong address | writeWord address _
  | writeLong address _ => machine.misaligned address = false
  | fetchWord address => address % 2 = 0
  | readByte _ | writeByte _ _ | readRun _ _ | writeRun _ _ => True

/-- The space is one of those that ordinary instructions use. -/
def InMode {σ : Type} (machine : Machine σ) (space : FunctionCode) :
    Access → Prop
  | readByte _ | readWord _ | readLong _ =>
      space = machine.dataSpace ∨ space = machine.programSpace
  | fetchWord _ => space = machine.programSpace
  | _ => space = machine.dataSpace

end Access

section

variable {σ τ α β : Type}

/-! ## Agreement of results -/

/-- Two results agree up to a relation of machines.  Neither is a breakpoint. -/
inductive Agree (relation : Machine σ → Machine τ → Prop) :
    EStateM.Result Fault (Machine σ) α →
      EStateM.Result Fault (Machine τ) α → Prop where
  | ok {value : α} {left : Machine σ} {right : Machine τ}
      (related : relation left right) :
      Agree relation (.ok value left) (.ok value right)
  | error {fault : Fault} {left : Machine σ} {right : Machine τ}
      (ordinary : fault ≠ .breakpoint) (related : relation left right) :
      Agree relation (.error fault left) (.error fault right)

/-- From related machines, two executions end in agreement. -/
def Coupled (relation : Machine σ → Machine τ → Prop)
    (first : Execution σ α) (second : Execution τ α) : Prop :=
  ∀ left right, relation left right →
    Agree relation (first left) (second right)

variable {relation : Machine σ → Machine τ → Prop}

theorem Agree.bind {left : Machine σ} {right : Machine τ}
    {first : Execution σ α} {second : Execution τ α}
    {firstNext : α → Execution σ β} {secondNext : α → Execution τ β}
    (agree : Agree relation (first left) (second right))
    (next : ∀ value, Coupled relation (firstNext value) (secondNext value)) :
    Agree relation ((first >>= firstNext) left)
      ((second >>= secondNext) right) := by
  rw [Execution.bind_apply, Execution.bind_apply]
  generalize first left = firstResult at agree ⊢
  generalize second right = secondResult at agree ⊢
  cases agree with
  | ok related => exact next _ _ _ related
  | error ordinary related => exact .error ordinary related

/-- Transactions agree if they answer alike and leave related machines. -/
theorem Agree.onBus {left : Machine σ} {right : Machine τ}
    {first : Bus σ α} {second : Bus τ α}
    (answer : first.answer? left.memory = second.answer? right.memory)
    (after : relation
      { left with memory := first.leaves left.memory }
      { right with memory := second.leaves right.memory }) :
    Agree relation (Execution.onBus first left)
      (Execution.onBus second right) := by
  simp only [Bus.answer?] at answer
  simp only [Bus.leaves] at after
  rw [Execution.onBus, Execution.onBus]
  cases leftRun : first left.memory with
  | ok value memory =>
      rw [leftRun] at answer after
      cases rightRun : second right.memory with
      | ok other otherMemory =>
          rw [rightRun] at answer after
          cases answer
          exact .ok after
      | error refusal otherMemory =>
          rw [rightRun] at answer
          cases answer
  | error refusal memory =>
      rw [leftRun] at answer after
      cases rightRun : second right.memory with
      | ok other otherMemory =>
          rw [rightRun] at answer
          cases answer
      | error refusal otherMemory =>
          rw [rightRun] at after
          exact .error (by decide) after

namespace Coupled

theorem pure (value : α) :
    Coupled relation (Pure.pure value) (Pure.pure value) :=
  fun _ _ related => .ok related

theorem throw {fault : Fault} (ordinary : fault ≠ .breakpoint) :
    Coupled relation (throw fault : Execution σ α)
      (throw fault : Execution τ α) :=
  fun _ _ related => .error ordinary related

theorem bind {first : Execution σ α} {second : Execution τ α}
    {firstNext : α → Execution σ β} {secondNext : α → Execution τ β}
    (coupled : Coupled relation first second)
    (next : ∀ value, Coupled relation (firstNext value) (secondNext value)) :
    Coupled relation (first >>= firstNext) (second >>= secondNext) :=
  fun left right related => (coupled left right related).bind next

theorem ite {condition : Prop} [Decidable condition]
    {first firstElse : Execution σ α} {second secondElse : Execution τ α}
    (holds : condition → Coupled relation first second)
    (fails : ¬condition → Coupled relation firstElse secondElse) :
    Coupled relation (if condition then first else firstElse)
      (if condition then second else secondElse) := by
  split
  · exact holds ‹_›
  · exact fails ‹_›

/-- A check that ends with a fault if a condition holds, and what follows. -/
theorem throwIf {condition : Prop} [Decidable condition] {fault : Fault}
    {firstNext : Unit → Execution σ α} {secondNext : Unit → Execution τ α}
    (ordinary : fault ≠ .breakpoint)
    (next : ¬condition → Coupled relation (firstNext ()) (secondNext ())) :
    Coupled relation
      (if condition then MonadExcept.throw fault >>= firstNext
        else firstNext ())
      (if condition then MonadExcept.throw fault >>= secondNext
        else secondNext ()) := by
  refine .ite (fun _ => ?_) next
  intro left right related
  exact .error ordinary related

theorem observe {firstView : Machine σ → α} {secondView : Machine τ → α}
    (same : ∀ left right, relation left right →
      firstView left = secondView right) :
    Coupled relation (Execution.observe firstView)
      (Execution.observe secondView) := by
  intro left right related
  rw [Execution.observe, Execution.observe, same left right related]
  exact .ok related

/-- What is observed can be used together with the machine it comes from. -/
theorem bind_observe {view : Machine σ → β} {otherView : Machine τ → β}
    {firstNext : β → Execution σ α} {secondNext : β → Execution τ α}
    (same : ∀ left right, relation left right →
      view left = otherView right)
    (next : ∀ left right, relation left right →
      Agree relation (firstNext (view left) left)
        (secondNext (view left) right)) :
    Coupled relation (Execution.observe view >>= firstNext)
      (Execution.observe otherView >>= secondNext) := by
  intro left right related
  have agree := next left right related
  rw [Execution.bind_apply, Execution.bind_apply, Execution.observe,
    Execution.observe]
  simp only [← same left right related]
  exact agree

theorem update {change : Machine σ → Machine σ}
    {otherChange : Machine τ → Machine τ}
    (kept : ∀ left right, relation left right →
      relation (change left) (otherChange right)) :
    Coupled relation (Execution.update change)
      (Execution.update otherChange) :=
  fun left right related => .ok (kept left right related)

end Coupled

/-! ## Operands in a space -/

variable [Memory σ] [Memory τ] {left : Machine σ} {right : Machine τ}

/-- A read agrees if the access of its size does. -/
theorem Agree.readIn (related : relation left right) {space : FunctionCode}
    {address : UInt32}
    (same : left.model.needsAlignedData = right.model.needsAlignedData)
    (reads : ∀ access : Access,
      access ∈ [.readByte address, .readWord address, .readLong address] →
      access.Aligned left →
        Agree relation (Execution.onBus (access.ask space) left)
          (Execution.onBus (access.ask space) right))
    (size : OperandSize) :
    Agree relation (Execution.readIn space address size left)
      (Execution.readIn space address size right) := by
  have parity : right.misaligned address = left.misaligned address := by
    rw [Machine.misaligned, Machine.misaligned, same]
  simp only [Execution.readIn, Execution.bind_apply,
    Execution.checkAlignment_apply, parity]
  by_cases refused : size ≠ .byte ∧ left.misaligned address = true
  · rw [if_pos refused, if_pos refused]
    exact .error (by decide) related
  · have aligned (wide : size ≠ .byte) : left.misaligned address = false := by
      simpa [wide] using refused
    rw [if_neg refused, if_neg refused]
    cases size with
    | byte =>
        exact (reads (.readByte address) (by simp) trivial).bind
          fun _ => .pure _
    | word =>
        exact (reads (.readWord address) (by simp)
          (aligned (by decide))).bind fun _ => .pure _
    | long => exact reads (.readLong address) (by simp) (aligned (by decide))
    | unsized => exact .ok related

/-- A write agrees if the access of its size does. -/
theorem Agree.writeIn (related : relation left right) {space : FunctionCode}
    {address value : UInt32}
    (same : left.model.needsAlignedData = right.model.needsAlignedData)
    (writes : ∀ access : Access,
      access ∈ [.writeByte address value.toUInt8,
        .writeWord address value.toUInt16, .writeLong address value] →
      access.Aligned left →
        Agree relation (Execution.onBus (access.ask space) left)
          (Execution.onBus (access.ask space) right))
    (size : OperandSize) :
    Agree relation (Execution.writeIn space address size value left)
      (Execution.writeIn space address size value right) := by
  have parity : right.misaligned address = left.misaligned address := by
    rw [Machine.misaligned, Machine.misaligned, same]
  simp only [Execution.writeIn, Execution.bind_apply,
    Execution.checkAlignment_apply, parity]
  by_cases refused : size ≠ .byte ∧ left.misaligned address = true
  · rw [if_pos refused, if_pos refused]
    exact .error (by decide) related
  · have aligned (wide : size ≠ .byte) : left.misaligned address = false := by
      simpa [wide] using refused
    rw [if_neg refused, if_neg refused]
    cases size with
    | byte =>
        exact writes (.writeByte address value.toUInt8) (by simp) trivial
    | word =>
        exact writes (.writeWord address value.toUInt16) (by simp)
          (aligned (by decide))
    | long =>
        exact writes (.writeLong address value) (by simp)
          (aligned (by decide))
    | unsized => exact .ok related

end

/-- A relation of machines that observations respect, and that the updates and
accesses of ordinary instructions preserve.  Condition codes are only promised
to stay in range. -/
structure Coupling {σ τ : Type} [Memory σ] [Memory τ]
    (relation : Machine σ → Machine τ → Prop) : Prop where
  general : ∀ {left right}, relation left right → ∀ register,
    left.registers.get register = right.registers.get register
  counter : ∀ {left right}, relation left right →
    left.registers.pc = right.registers.pc
  status : ∀ {left right}, relation left right → left.status = right.status
  alignment : ∀ {left right}, relation left right →
    left.model.needsAlignedData = right.model.needsAlignedData
  extensions : ∀ {left right}, relation left right →
    left.model.hasFullExtensions = right.model.hasFullExtensions
  branches : ∀ {left right}, relation left right →
    left.model.hasLongBranches = right.model.hasLongBranches
  finalPointer : ∀ {left right}, relation left right →
    left.model.storesFinalPointer = right.model.storesFinalPointer
  writeGeneral : ∀ {left right}, relation left right → ∀ register value,
    relation
      { left with registers := left.registers.set register value }
      { right with registers := right.registers.set register value }
  writeCounter : ∀ {left right}, relation left right → ∀ address,
    relation (left.withPc address) (right.withPc address)
  writeCodes : ∀ {left right}, relation left right → ∀ codes,
    (left.status.codes.InRange → codes.InRange) →
      relation (left.setConditionCodes codes) (right.setConditionCodes codes)
  access : ∀ {left right}, relation left right → ∀ space (access : Access),
    access.Aligned left → access.InMode left space →
      Agree relation (Execution.onBus (access.ask space) left)
        (Execution.onBus (access.ask space) right)

end M68k

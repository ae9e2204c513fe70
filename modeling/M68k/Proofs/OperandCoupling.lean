import M68k.Operand
import M68k.Proofs.Coupling
import Mathlib.Tactic.FinCases

/-!
# Coupled accesses and operands

Data accesses, instruction words, the stack and operands, for every relation
that is a coupling.
-/

namespace M68k.Coupling

open Execution

variable {σ τ : Type} [Memory σ] [Memory τ]
variable {relation : Machine σ → Machine τ → Prop}

/-! ## Observations and updates -/

section

variable (coupling : Coupling relation)

include coupling

theorem register (number : Register) :
    Coupled relation (Execution.register number)
      (Execution.register number) :=
  .observe fun _ _ related => coupling.general related number

theorem pc : Coupled relation Execution.pc Execution.pc :=
  .observe fun _ _ related => coupling.counter related

theorem test (condition : Condition) :
    Coupled relation (Execution.test condition) (Execution.test condition) :=
  .observe fun _ _ related => by rw [coupling.status related]

theorem setRegister (register : Register) (value : UInt32) :
    Coupled relation (Execution.setRegister register value)
      (Execution.setRegister register value) :=
  .update fun _ _ related => coupling.writeGeneral related register value

theorem setPc (address : UInt32) :
    Coupled relation (Execution.setPc address) (Execution.setPc address) :=
  .update fun _ _ related => coupling.writeCounter related address

/-- Condition codes that are in range whatever the machine. -/
theorem setConditionCodes {codes : ConditionCodes} (inRange : codes.InRange) :
    Coupled relation (Execution.setConditionCodes codes)
      (Execution.setConditionCodes codes) :=
  .update fun _ _ related =>
    coupling.writeCodes related codes fun _ => inRange

/-- Condition codes made from those of the machine. -/
theorem changeCodes {change : StatusRegister → ConditionCodes}
    (inRange : ∀ status, status.codes.InRange → (change status).InRange) :
    Coupled relation
      (Execution.status >>= fun status =>
        Execution.setConditionCodes (change status))
      (Execution.status >>= fun status =>
        Execution.setConditionCodes (change status)) :=
  .bind_observe (fun _ _ related => coupling.status related)
    fun _ _ related =>
      .ok (coupling.writeCodes related _ (inRange _))

/-! ## Data accesses -/

variable {left : Machine σ} {right : Machine τ}

theorem dataSpace (related : relation left right) :
    right.dataSpace = left.dataSpace := by
  rw [Machine.dataSpace, Machine.dataSpace, Machine.isSupervisor,
    Machine.isSupervisor, coupling.status related]

theorem programSpace (related : relation left right) :
    right.programSpace = left.programSpace := by
  rw [Machine.programSpace, Machine.programSpace, Machine.isSupervisor,
    Machine.isSupervisor, coupling.status related]

theorem readData (address : UInt32) (size : OperandSize) :
    Coupled relation (Execution.readData address size)
      (Execution.readData address size) := by
  refine .bind_observe
    (fun _ _ related => (coupling.dataSpace related).symm) ?_
  intro left right related
  refine .readIn related (coupling.alignment related) ?_ size
  intro access read aligned
  refine coupling.access related _ access aligned ?_
  fin_cases read <;> exact .inl rfl

theorem readProgram (address : UInt32) (size : OperandSize) :
    Coupled relation
      (Execution.programSpace >>= fun space => readIn space address size)
      (Execution.programSpace >>= fun space => readIn space address size) := by
  refine .bind_observe
    (fun _ _ related => (coupling.programSpace related).symm) ?_
  intro left right related
  refine .readIn related (coupling.alignment related) ?_ size
  intro access read aligned
  refine coupling.access related _ access aligned ?_
  fin_cases read <;> exact .inr rfl

theorem writeData (address : UInt32) (size : OperandSize) (value : UInt32) :
    Coupled relation (Execution.writeData address size value)
      (Execution.writeData address size value) := by
  refine .bind_observe
    (fun _ _ related => (coupling.dataSpace related).symm) ?_
  intro left right related
  refine .writeIn related (coupling.alignment related) ?_ size
  intro access written aligned
  refine coupling.access related _ access aligned ?_
  fin_cases written <;> rfl

theorem writeRun (address : UInt32) (bytes : List (Option UInt8)) :
    Coupled relation
      (Execution.dataSpace >>= fun space =>
        onBus (Memory.writeRun address bytes space))
      (Execution.dataSpace >>= fun space =>
        onBus (Memory.writeRun address bytes space)) :=
  .bind_observe (fun _ _ related => (coupling.dataSpace related).symm)
    fun _ _ related =>
      coupling.access related _ (.writeRun address bytes) trivial rfl

/-! ## Instruction words -/

theorem instructionWordAt (address : UInt32) :
    Coupled relation (Execution.instructionWordAt address)
      (Execution.instructionWordAt address) := by
  unfold Execution.instructionWordAt
  refine Coupled.throwIf (by decide) ?_
  intro even
  refine .bind_observe
    (fun _ _ related => (coupling.programSpace related).symm) ?_
  intro left right related
  have aligned : address % 2 = 0 := Decidable.not_not.mp even
  exact coupling.access related _ (.fetchWord address) aligned rfl

theorem fetchWord :
    Coupled relation Execution.fetchWord Execution.fetchWord :=
  coupling.pc.bind fun address =>
    (coupling.instructionWordAt address).bind fun _ =>
      (coupling.setPc _).bind fun _ => .pure _

theorem fetchLong :
    Coupled relation Execution.fetchLong Execution.fetchLong :=
  coupling.fetchWord.bind fun _ => coupling.fetchWord.bind fun _ => .pure _

theorem fetchDisplacement :
    Coupled relation Execution.fetchDisplacement
      Execution.fetchDisplacement :=
  coupling.fetchWord.bind fun _ => .pure _

/-! ## The stack -/

theorem push (size : OperandSize) (value : UInt32) :
    Coupled relation (Execution.push size value)
      (Execution.push size value) :=
  (coupling.register _).bind fun _ =>
    (coupling.writeData _ _ _).bind fun _ => coupling.setRegister _ _

theorem pop (size : OperandSize) :
    Coupled relation (Execution.pop size) (Execution.pop size) :=
  (coupling.register _).bind fun _ =>
    (coupling.readData _ _).bind fun _ =>
      (coupling.setRegister _ _).bind fun _ => .pure _

/-! ## Operands -/

theorem fetchSizedDisplacement (size : Fin 4) :
    Coupled relation (Execution.fetchSizedDisplacement size)
      (Execution.fetchSizedDisplacement size) := by
  unfold Execution.fetchSizedDisplacement
  split
  · exact coupling.fetchDisplacement
  · exact coupling.fetchLong
  · exact .pure 0

theorem fullIndexedAddress (extension : IndexWord) (base index : UInt32) :
    Coupled relation (Execution.fullIndexedAddress extension base index)
      (Execution.fullIndexedAddress extension base index) := by
  unfold Execution.fullIndexedAddress
  refine Coupled.throwIf (by decide) ?_
  intro sized
  refine (coupling.fetchSizedDisplacement _).bind ?_
  intro baseDisplacement
  refine Coupled.throwIf (by decide) ?_
  intro defined
  refine (coupling.fetchSizedDisplacement _).bind ?_
  intro outerDisplacement
  refine .ite (fun _ => .pure _) fun _ => .ite (fun _ => ?_) fun _ => ?_
  · exact (coupling.readData _ _).bind fun _ => .pure _
  · exact (coupling.readData _ _).bind fun _ => .pure _

theorem indexedAddress (base : UInt32) :
    Coupled relation (Execution.indexedAddress base)
      (Execution.indexedAddress base) :=
  coupling.fetchWord.bind fun _ =>
    (Coupled.observe fun _ _ related => coupling.extensions related).bind
      fun _ => (coupling.register _).bind fun _ =>
        .ite (fun _ => coupling.fullIndexedAddress _ _ _) fun _ => .pure _

theorem resolve (mode : AddressingMode) (size : OperandSize) :
    Coupled relation (mode.resolve size) (mode.resolve size) := by
  cases mode with
  | dataRegister number => exact .pure _
  | addressRegister number => exact .pure _
  | indirect number => exact (coupling.register _).bind fun _ => .pure _
  | postincrement number | predecrement number =>
      exact (coupling.register _).bind fun _ =>
        (coupling.setRegister _ _).bind fun _ => .pure _
  | displacement number =>
      exact coupling.fetchDisplacement.bind fun _ =>
        (coupling.register _).bind fun _ => .pure _
  | indexed number =>
      exact (coupling.register _).bind fun _ =>
        (coupling.indexedAddress _).bind fun _ => .pure _
  | absoluteShort =>
      exact coupling.fetchDisplacement.bind fun _ => .pure _
  | absoluteLong => exact coupling.fetchLong.bind fun _ => .pure _
  | pcDisplacement =>
      exact coupling.pc.bind fun _ =>
        coupling.fetchDisplacement.bind fun _ => .pure _
  | pcIndexed =>
      exact coupling.pc.bind fun _ =>
        (coupling.indexedAddress _).bind fun _ => .pure _
  | immediate =>
      cases size with
      | byte | word => exact coupling.fetchWord.bind fun _ => .pure _
      | long | unsized => exact coupling.fetchLong.bind fun _ => .pure _

theorem resolveAddress (mode : AddressingMode) (size : OperandSize) :
    Coupled relation (mode.resolveAddress size)
      (mode.resolveAddress size) := by
  refine (coupling.resolve mode size).bind ?_
  intro location
  cases location.address? with
  | none => exact .throw (by decide)
  | some address => exact .pure _

theorem readLocation (location : Location) (size : OperandSize) :
    Coupled relation (location.read size) (location.read size) := by
  cases location with
  | dataRegister number | addressRegister number =>
      exact coupling.register _
  | memory address => exact coupling.readData address size
  | program address => exact coupling.readProgram address size
  | immediate value => exact .pure value

theorem writeLocation (location : Location) (size : OperandSize)
    (value : UInt32) :
    Coupled relation (location.write size value)
      (location.write size value) := by
  cases location with
  | dataRegister number =>
      exact (coupling.register _).bind fun _ => coupling.setRegister _ _
  | addressRegister number => exact coupling.setRegister _ _
  | memory address => exact coupling.writeData address size value
  | program address | immediate address => exact .throw (by decide)

theorem fetchOperand (mode : AddressingMode) (size : OperandSize) :
    Coupled relation (mode.fetch size) (mode.fetch size) :=
  (coupling.resolve mode size).bind fun location =>
    (coupling.readLocation location size).bind fun _ => .pure _

end

end M68k.Coupling

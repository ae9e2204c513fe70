import M68k.Execution
import M68k.Proofs.OperandCoupling

/-!
# Coupled instructions

Every instruction that is not reserved to supervisor mode, apart from the
breakpoint, is coupled with itself by every coupling.
-/

namespace M68k.Coupling

open Execution

variable {σ τ : Type} [Memory σ] [Memory τ]
variable {relation : Machine σ → Machine τ → Prop}
variable (coupling : Coupling relation)

include coupling

/-! ## Data instructions -/

theorem fetchSource (source : Source) (size : OperandSize) :
    Coupled relation (source.fetch size) (source.fetch size) := by
  cases source with
  | none => exact .pure 0
  | constant value => exact .pure value
  | dataRegister number => exact coupling.register _
  | extensionWord => exact coupling.fetchWord.bind fun _ => .pure _
  | operand mode => exact (coupling.fetchOperand mode size).bind fun _ => .pure _

theorem fetchDestination (destination : Destination) (size : OperandSize) :
    Coupled relation (destination.fetch size) (destination.fetch size) := by
  cases destination with
  | none => exact .pure _
  | operand mode =>
      exact (coupling.fetchOperand mode size).bind fun _ => .pure _
  | store mode => exact (coupling.resolve mode size).bind fun _ => .pure _
  | dataRegister number | addressRegister number =>
      exact (coupling.register _).bind fun _ => .pure _

theorem finish (instruction : DataInstruction) (location : Option Location)
    (operands : Operands) (value : UInt32) (size : OperandSize) :
    Coupled relation (instruction.finish location operands value size)
      (instruction.finish location operands value size) := by
  have codes := coupling.changeCodes fun (status : StatusRegister) inRange =>
    instruction.flagRule.inRange_apply inRange size operands.source
      operands.destination value
  unfold DataInstruction.finish
  refine .ite (fun _ => ?_) fun _ => codes
  cases location with
  | none => exact codes
  | some location =>
      exact (coupling.writeLocation location size value).bind fun _ => codes

theorem data (instruction : DataInstruction) :
    Coupled relation instruction.execute instruction.execute := by
  refine (coupling.fetchSource _ _).bind ?_
  intro source
  refine (coupling.fetchDestination _ _).bind ?_
  rintro ⟨location, destination⟩
  refine .bind_observe (fun _ _ related => coupling.status related) ?_
  intro left right related
  have inRange (codes : left.status.codes.InRange) :=
    DataOperation.inRange_compute codes instruction.operation
      instruction.workingSize (instruction.operation.arrange
        instruction.workingSize ⟨instruction.widen source, destination⟩)
  cases computation : instruction.operation.compute left.status
      instruction.workingSize (instruction.operation.arrange
        instruction.workingSize ⟨instruction.widen source, destination⟩) with
  | discard => exact .ok related
  | trap fault codes =>
      rw [computation] at inRange
      have ordinary : fault ≠ .breakpoint := by
        rcases DataOperation.fault_of_compute_eq_trap computation with
          rfl | rfl <;> decide
      exact .error ordinary (coupling.writeCodes related codes inRange)
  | result value size codes =>
      rw [computation] at inRange
      exact coupling.finish instruction location _ value size _ _
        (coupling.writeCodes related codes inRange)

/-! ## Flow of control -/

theorem branchTarget (displacement : UInt8) :
    Coupled relation (Execution.branchTarget displacement)
      (Execution.branchTarget displacement) := by
  refine coupling.pc.bind fun base => .ite (fun _ => ?_) fun _ => ?_
  · exact coupling.fetchDisplacement.bind fun _ => .pure _
  · refine (Coupled.observe fun _ _ related =>
      coupling.branches related).bind fun _ => .ite (fun _ => ?_) fun _ => ?_
    · exact coupling.fetchLong.bind fun _ => .pure _
    · exact .pure _

theorem bcc (condition : Condition) (displacement : UInt8) :
    Coupled relation (Execution.bcc condition displacement)
      (Execution.bcc condition displacement) :=
  (coupling.branchTarget displacement).bind fun target =>
    (coupling.test condition).bind fun _ =>
      .ite (fun _ => coupling.setPc target) fun _ => .pure ()

theorem callSubroutine (target : UInt32) :
    Coupled relation (Execution.callSubroutine target)
      (Execution.callSubroutine target) :=
  coupling.pc.bind fun address =>
    (coupling.push .long address).bind fun _ => coupling.setPc target

theorem bsr (displacement : UInt8) :
    Coupled relation (Execution.bsr displacement)
      (Execution.bsr displacement) :=
  (coupling.branchTarget displacement).bind coupling.callSubroutine

theorem dbcc (condition : Condition) (counter : Fin 8) :
    Coupled relation (Execution.dbcc condition counter)
      (Execution.dbcc condition counter) := by
  refine coupling.pc.bind fun base => coupling.fetchDisplacement.bind ?_
  intro displacement
  refine (coupling.test condition).bind fun _ => .ite (fun _ => .pure ()) ?_
  intro fails
  refine (coupling.register _).bind fun value =>
    (coupling.setRegister _ _).bind fun _ => ?_
  exact .ite (fun _ => coupling.setPc _) fun _ => .pure ()

theorem jmp (target : AddressingMode) :
    Coupled relation (Execution.jmp target) (Execution.jmp target) :=
  (coupling.resolveAddress target .long).bind coupling.setPc

theorem jsr (target : AddressingMode) :
    Coupled relation (Execution.jsr target) (Execution.jsr target) :=
  (coupling.resolveAddress target .long).bind coupling.callSubroutine

theorem rts : Coupled relation Execution.rts Execution.rts :=
  (coupling.pop .long).bind coupling.setPc

theorem rtr : Coupled relation Execution.rtr Execution.rtr :=
  (coupling.pop .word).bind fun _ =>
    (coupling.setConditionCodes
      (ConditionCodes.inRange_ofByte _)).bind fun _ =>
        (coupling.pop .long).bind coupling.setPc

theorem rtd : Coupled relation Execution.rtd Execution.rtd :=
  coupling.fetchDisplacement.bind fun _ =>
    (coupling.pop .long).bind fun address =>
      (coupling.setPc address).bind fun _ =>
        (coupling.register _).bind fun _ => coupling.setRegister _ _

theorem linkBy (number : Fin 8) (displacement : UInt32) :
    Coupled relation (Execution.linkBy number displacement)
      (Execution.linkBy number displacement) :=
  (coupling.register _).bind fun saved =>
    (coupling.push .long saved).bind fun _ =>
      (coupling.register _).bind fun _ =>
        (coupling.setRegister _ _).bind fun _ =>
          (coupling.register _).bind fun _ => coupling.setRegister _ _

theorem unlk (number : Fin 8) :
    Coupled relation (Execution.unlk number) (Execution.unlk number) :=
  (coupling.register _).bind fun _ =>
    (coupling.setRegister _ _).bind fun _ =>
      (coupling.pop .long).bind fun _ => coupling.setRegister _ _

/-! ## Transfers -/

theorem lea (address : AddressingMode) (destination : Fin 8) :
    Coupled relation (Execution.lea address destination)
      (Execution.lea address destination) :=
  (coupling.resolveAddress address .long).bind fun _ =>
    coupling.setRegister _ _

theorem pea (address : AddressingMode) :
    Coupled relation (Execution.pea address) (Execution.pea address) :=
  (coupling.resolveAddress address .long).bind fun value =>
    coupling.push .long value

theorem exg (first second : Register) :
    Coupled relation (Execution.exg first second)
      (Execution.exg first second) :=
  (coupling.register first).bind fun _ =>
    (coupling.register second).bind fun _ =>
      (coupling.setRegister _ _).bind fun _ => coupling.setRegister _ _

theorem storeAscending (size : OperandSize) (address : UInt32)
    (registers : List Register) :
    Coupled relation (Execution.storeAscending size address registers)
      (Execution.storeAscending size address registers) := by
  induction registers generalizing address with
  | nil => exact .pure ()
  | cons first rest induction =>
      exact (coupling.register first).bind fun _ =>
        (coupling.writeData _ _ _).bind fun _ => induction _

theorem storeDescending (size : OperandSize) (special : Register)
    (value address : UInt32) (registers : List Register) :
    Coupled relation
      (Execution.storeDescending size special value address registers)
      (Execution.storeDescending size special value address registers) := by
  induction registers generalizing address with
  | nil => exact .pure address
  | cons first rest induction =>
      refine .ite (fun _ => ?_) fun _ => ?_
      · exact (Coupled.pure value).bind fun _ =>
          (coupling.writeData _ _ _).bind fun _ => induction _
      · exact (coupling.register first).bind fun _ =>
          (coupling.writeData _ _ _).bind fun _ => induction _

theorem loadAscending (size : OperandSize) (address : UInt32)
    (registers : List Register) :
    Coupled relation (Execution.loadAscending size address registers)
      (Execution.loadAscending size address registers) := by
  induction registers generalizing address with
  | nil => exact .pure address
  | cons first rest induction =>
      exact (coupling.readData _ _).bind fun _ =>
        (coupling.setRegister _ _).bind fun _ => induction _

theorem storedPointer (size : OperandSize) (initial : UInt32) (count : Nat) :
    Coupled relation (Execution.storedPointer size initial count)
      (Execution.storedPointer size initial count) :=
  (Coupled.observe fun _ _ related => coupling.finalPointer related).bind
    fun _ => .ite (fun _ => .pure _) fun _ => .pure _

theorem movemStore (size : OperandSize) (mode : AddressingMode) :
    Coupled relation (Execution.movemStore size mode)
      (Execution.movemStore size mode) := by
  refine coupling.fetchWord.bind ?_
  intro mask
  split
  · rename_i number
    exact (coupling.register _).bind fun _ =>
      (coupling.storedPointer _ _ _).bind fun _ =>
        (coupling.storeDescending _ _ _ _ _).bind fun _ =>
          coupling.setRegister _ _
  · exact (coupling.resolveAddress mode size).bind fun _ =>
      coupling.storeAscending _ _ _

theorem movemLoad (size : OperandSize) (mode : AddressingMode) :
    Coupled relation (Execution.movemLoad size mode)
      (Execution.movemLoad size mode) := by
  refine coupling.fetchWord.bind ?_
  intro mask
  split
  · rename_i number
    exact (coupling.register _).bind fun _ =>
      (coupling.loadAscending _ _ _).bind fun _ => coupling.setRegister _ _
  · exact (coupling.resolveAddress mode size).bind fun _ =>
      (coupling.loadAscending _ _ _).bind fun _ => .pure ()

theorem displacedAddress (number : Fin 8) :
    Coupled relation (Execution.displacedAddress number)
      (Execution.displacedAddress number) :=
  coupling.fetchDisplacement.bind fun _ =>
    (coupling.register _).bind fun _ => .pure _

theorem movepStore (size : OperandSize) (data address : Fin 8) :
    Coupled relation (Execution.movepStore size data address)
      (Execution.movepStore size data address) :=
  (coupling.displacedAddress address).bind fun start =>
    (coupling.register _).bind fun _ => coupling.writeRun start _

theorem movepLoad (size : OperandSize) (data address : Fin 8) :
    Coupled relation (Execution.movepLoad size data address)
      (Execution.movepLoad size data address) := by
  refine (coupling.displacedAddress address).bind fun start =>
    .bind_observe (fun _ _ related => (coupling.dataSpace related).symm) ?_
  intro left right related
  exact (coupling.access related _ (.readRun start _) trivial rfl).bind
    fun _ => coupling.writeLocation (.dataRegister data) size _

/-! ## Long products and quotients -/

theorem fetchLongOperands (mode : AddressingMode) :
    Coupled relation (Execution.fetchLongOperands mode)
      (Execution.fetchLongOperands mode) :=
  coupling.fetchWord.bind fun _ =>
    (coupling.fetchOperand mode .long).bind fun _ => .pure _

theorem setResultFlags (negative zero overflow : Bool) :
    Coupled relation (Execution.setResultFlags negative zero overflow)
      (Execution.setResultFlags negative zero overflow) :=
  coupling.changeCodes fun _ inRange =>
    (inRange.setLogic negative zero).setFlag (by decide) overflow

theorem mull (mode : AddressingMode) :
    Coupled relation (Execution.mull mode) (Execution.mull mode) := by
  refine (coupling.fetchLongOperands mode).bind ?_
  rintro ⟨extension, multiplier⟩
  refine (coupling.register _).bind fun _ =>
    .ite (fun _ => ?_) fun _ => ?_
  · exact (coupling.setRegister _ _).bind fun _ =>
      (coupling.setRegister _ _).bind fun _ => coupling.setResultFlags _ _ _
  · exact (coupling.setRegister _ _).bind fun _ =>
      coupling.setResultFlags _ _ _

theorem divl (mode : AddressingMode) :
    Coupled relation (Execution.divl mode) (Execution.divl mode) := by
  refine (coupling.fetchLongOperands mode).bind ?_
  rintro ⟨extension, divisor⟩
  refine Coupled.throwIf (by decide) ?_
  intro nonzero
  refine (coupling.register _).bind fun low =>
    (coupling.register _).bind fun high => ?_
  cases divideLongs? extension high low divisor with
  | none => exact .pure ()
  | some division =>
      exact (coupling.setRegister _ _).bind fun _ =>
        (coupling.setRegister _ _).bind fun _ =>
          coupling.setResultFlags _ _ _

/-! ## System instructions -/

theorem logicToCcr (operation : StatusOperation) :
    Coupled relation (Execution.logicToCcr operation)
      (Execution.logicToCcr operation) :=
  coupling.fetchWord.bind fun _ =>
    coupling.changeCodes fun _ _ => ConditionCodes.inRange_ofByte _

theorem moveToCcr (source : AddressingMode) :
    Coupled relation (Execution.moveToCcr source)
      (Execution.moveToCcr source) :=
  (coupling.fetchOperand source .word).bind fun _ =>
    coupling.setConditionCodes (ConditionCodes.inRange_ofByte _)

theorem trapIf (condition : Condition) :
    Coupled relation (Execution.trapIf condition)
      (Execution.trapIf condition) :=
  (coupling.test condition).bind fun _ =>
    .ite (fun _ => .throw (by decide)) fun _ => .pure ()

theorem skipWords (count : Nat) :
    Coupled relation (Execution.skipWords count)
      (Execution.skipWords count) := by
  induction count with
  | zero => exact .pure ()
  | succ count induction => exact coupling.fetchWord.bind fun _ => induction

/-- An ordinary instruction is any but the breakpoint and those that every
model reserves to supervisor mode. -/
theorem execute {instruction : Instruction}
    (unreserved : instruction.privilegedSince? ≠ some .mc68000)
    (ordinary : ∀ vector, instruction ≠ .bkpt vector) :
    Coupled relation instruction.execute instruction.execute := by
  cases instruction with
  | data instruction => exact coupling.data instruction
  | logicToCcr operation => exact coupling.logicToCcr operation
  | moveToCcr source => exact coupling.moveToCcr source
  | lea address destination => exact coupling.lea address destination
  | pea address => exact coupling.pea address
  | exg first second => exact coupling.exg first second
  | movemStore size mode => exact coupling.movemStore size mode
  | movemLoad size mode => exact coupling.movemLoad size mode
  | movepStore size data address => exact coupling.movepStore size data address
  | movepLoad size data address => exact coupling.movepLoad size data address
  | mull mode => exact coupling.mull mode
  | divl mode => exact coupling.divl mode
  | link number =>
      exact coupling.fetchDisplacement.bind (coupling.linkBy number)
  | linkLong number => exact coupling.fetchLong.bind (coupling.linkBy number)
  | unlk number => exact coupling.unlk number
  | bcc condition displacement => exact coupling.bcc condition displacement
  | bsr displacement => exact coupling.bsr displacement
  | dbcc condition counter => exact coupling.dbcc condition counter
  | jmp target => exact coupling.jmp target
  | jsr target => exact coupling.jsr target
  | rts => exact coupling.rts
  | rtr => exact coupling.rtr
  | rtd => exact coupling.rtd
  | trap number => exact .throw (by simp)
  | trapv => exact coupling.trapIf .overflowSet
  | trapcc condition operandWords =>
      exact (coupling.skipWords operandWords).bind fun _ =>
        coupling.trapIf condition
  | nop => exact .pure ()
  | illegal | lineA | lineF => exact .throw (by decide)
  | bkpt vector => exact absurd rfl (ordinary vector)
  | logicToSr | moveToSr | moveToUsp | moveFromUsp | moves | movecStore
  | movecLoad | rte | stop | reset => exact absurd rfl unreserved

end M68k.Coupling

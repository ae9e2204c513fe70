import M68k.Proofs.DataExecution
import M68k.Proofs.DecodedModes
import M68k.Proofs.IndexedOperands

/-!
# Faults that refuse an instruction

Two faults say that an instruction may not be executed at all: it is illegal, or
reserved to the supervisor.  Executions are ordinary if they end with neither.
Few are not: an indexed operand whose extension word no model defines is
illegal, and so is an operand without an address and a write to what cannot be
written.  The addressing modes that instructions take rule the last two out.
-/

namespace M68k

/-- Faults that say that an instruction may not be executed. -/
def Fault.refuses : Fault → Bool
  | illegalInstruction | privilegeViolation => true
  | _ => false

namespace Execution

variable {σ α β : Type}

/-- No fault of an execution refuses the instruction. -/
def Ordinary (execution : Execution σ α) : Prop :=
  ∀ ⦃machine fault left⦄, execution machine = .error fault left →
    fault.refuses = false

namespace Ordinary

theorem pure (value : α) : Ordinary (Pure.pure value : Execution σ α) := by
  intro machine fault left run
  cases run

theorem observe (view : Machine σ → α) :
    Ordinary (Execution.observe view) := by
  intro machine fault left run
  cases run

theorem update (change : Machine σ → Machine σ) :
    Ordinary (Execution.update change) := by
  intro machine fault left run
  cases run

theorem throw {fault : Fault} (ordinary : fault.refuses = false) :
    Ordinary (MonadExcept.throw fault : Execution σ α) := by
  intro machine thrown left run
  cases run
  exact ordinary

theorem bind {first : Execution σ α} {next : α → Execution σ β}
    (ordinary : Ordinary first) (goesOn : ∀ value, Ordinary (next value)) :
    Ordinary (first >>= next) := by
  intro machine fault left run
  obtain failed | ⟨value, middle, -, failed⟩ := bind_eq_error run
  · exact ordinary failed
  · exact goesOn value failed

theorem ite {condition : Prop} [Decidable condition]
    {first second : Execution σ α} (holds : Ordinary first)
    (fails : Ordinary second) :
    Ordinary (if condition then first else second) := by
  split
  · exact holds
  · exact fails

/-- A check that ends with an ordinary fault, and what follows. -/
theorem throwIf {condition : Prop} [Decidable condition] {fault : Fault}
    {next : Unit → Execution σ α} (ordinary : fault.refuses = false)
    (goesOn : Ordinary (next ())) :
    Ordinary
      (if condition then MonadExcept.throw fault >>= next else next ()) := by
  refine .ite ?_ goesOn
  intro machine thrown left run
  cases run
  exact ordinary

theorem onBus (transaction : Bus σ α) :
    Ordinary (Execution.onBus transaction) := by
  intro machine fault left run
  rw [Execution.onBus] at run
  split at run
  · cases run
  · cases run
    rfl

theorem checkAlignment (address : UInt32) (size : OperandSize) :
    Ordinary (σ := σ) (Execution.checkAlignment address size) := by
  intro machine fault left run
  rw [checkAlignment_apply] at run
  split at run
  · cases run
    rfl
  · cases run

variable [Memory σ]

theorem readIn (space : FunctionCode) (address : UInt32)
    (size : OperandSize) :
    Ordinary (σ := σ) (Execution.readIn space address size) := by
  refine (checkAlignment address size).bind fun _ => ?_
  cases size with
  | byte | word => exact (onBus _).bind fun _ => .pure _
  | long => exact onBus _
  | unsized => exact .pure 0

theorem writeIn (space : FunctionCode) (address : UInt32) (size : OperandSize)
    (value : UInt32) :
    Ordinary (σ := σ) (Execution.writeIn space address size value) := by
  refine (checkAlignment address size).bind fun _ => ?_
  cases size with
  | byte | word | long => exact onBus _
  | unsized => exact .pure ()

theorem readData (address : UInt32) (size : OperandSize) :
    Ordinary (σ := σ) (Execution.readData address size) :=
  (observe _).bind fun _ => readIn _ _ _

theorem writeData (address : UInt32) (size : OperandSize) (value : UInt32) :
    Ordinary (σ := σ) (Execution.writeData address size value) :=
  (observe _).bind fun _ => writeIn _ _ _ _

theorem push (size : OperandSize) (value : UInt32) :
    Ordinary (σ := σ) (Execution.push size value) :=
  (observe _).bind fun _ => (writeData _ _ _).bind fun _ => update _

theorem pop (size : OperandSize) : Ordinary (σ := σ) (Execution.pop size) :=
  (observe _).bind fun _ => (readData _ _).bind fun _ =>
    (update _).bind fun _ => .pure _

theorem instructionWordAt (address : UInt32) :
    Ordinary (σ := σ) (Execution.instructionWordAt address) := by
  unfold Execution.instructionWordAt
  refine throwIf ?_ ((observe _).bind fun _ => onBus _)
  rfl

theorem fetchWord : Ordinary (σ := σ) Execution.fetchWord :=
  (observe _).bind fun _ => (instructionWordAt _).bind fun _ =>
    (update _).bind fun _ => .pure _

theorem fetchLong : Ordinary (σ := σ) Execution.fetchLong :=
  fetchWord.bind fun _ => fetchWord.bind fun _ => .pure _

theorem fetchDisplacement : Ordinary (σ := σ) Execution.fetchDisplacement :=
  fetchWord.bind fun _ => .pure _

theorem fetchSizedDisplacement (size : Fin 4) :
    Ordinary (σ := σ) (Execution.fetchSizedDisplacement size) := by
  unfold Execution.fetchSizedDisplacement
  split
  · exact fetchDisplacement
  · exact fetchLong
  · exact .pure 0

end Ordinary

/-- If an execution refuses the instruction, it is illegal, and there is a cause
for that in the machine. -/
def IllegalBy (cause : Machine σ → Prop) (execution : Execution σ α) : Prop :=
  ∀ ⦃machine fault left⦄, execution machine = .error fault left →
    fault.refuses = true → fault = .illegalInstruction ∧ cause machine

theorem Ordinary.illegalBy {execution : Execution σ α}
    (ordinary : Ordinary execution) (cause : Machine σ → Prop) :
    IllegalBy cause execution := by
  intro machine fault left run refuses
  rw [ordinary run] at refuses
  cases refuses

theorem Ordinary.bind_illegalBy {first : Execution σ α}
    {next : α → Execution σ β} {cause : α → Machine σ → Prop}
    (ordinary : Ordinary first)
    (goesOn : ∀ value, IllegalBy (cause value) (next value)) :
    IllegalBy
      (fun machine => ∃ value middle, first machine = .ok value middle ∧
        cause value middle)
      (first >>= next) := by
  intro machine fault left run refuses
  obtain failed | ⟨value, middle, done, failed⟩ := bind_eq_error run
  · rw [ordinary failed] at refuses
    cases refuses
  · obtain ⟨illegal, cause⟩ := goesOn value failed refuses
    exact ⟨illegal, value, middle, done, cause⟩

namespace IllegalBy

variable {cause : Machine σ → Prop}

theorem mono {execution : Execution σ α} {weaker : Machine σ → Prop}
    (illegal : IllegalBy cause execution)
    (weaken : ∀ machine, cause machine → weaker machine) :
    IllegalBy weaker execution := by
  intro machine fault left run refuses
  obtain ⟨same, found⟩ := illegal run refuses
  exact ⟨same, weaken machine found⟩

theorem bind {first : Execution σ α} {next : α → Execution σ β}
    (illegal : IllegalBy cause first)
    (goesOn : ∀ value, Ordinary (next value)) :
    IllegalBy cause (first >>= next) := by
  intro machine fault left run refuses
  obtain failed | ⟨value, middle, -, failed⟩ := bind_eq_error run
  · exact illegal failed refuses
  · rw [goesOn value failed] at refuses
    cases refuses

theorem observed {view : Machine σ → α} {next : α → Execution σ β}
    (goesOn : ∀ value, IllegalBy cause (next value)) :
    IllegalBy cause (observe view >>= next) := by
  intro machine fault left run refuses
  rw [bind_apply] at run
  exact goesOn (view machine) run refuses

/-- A cause that does not depend on the machine. -/
theorem after {first : Execution σ α} {next : α → Execution σ β}
    {cause : Prop} (ordinary : Ordinary first)
    (goesOn : ∀ value, IllegalBy (fun _ => cause) (next value)) :
    IllegalBy (fun _ => cause) (first >>= next) := by
  refine mono (ordinary.bind_illegalBy goesOn) ?_
  rintro machine ⟨value, middle, -, found⟩
  exact found

/-- A check that finds the instruction illegal, and what follows. -/
theorem throwIf {condition : Prop} [Decidable condition]
    {next : Unit → Execution σ α}
    (holds : condition → ∀ machine, cause machine)
    (goesOn : IllegalBy cause (next ())) :
    IllegalBy cause
      (if condition then
        MonadExcept.throw Fault.illegalInstruction >>= next else next ()) := by
  split
  · rename_i met
    intro machine fault left run _
    cases run
    exact ⟨rfl, holds met machine⟩
  · exact goesOn

end IllegalBy

end Execution

/-! ## Operands -/

namespace Location

/-- Whether an operand at a place can be written. -/
def isAlterable : Location → Bool
  | program _ | immediate _ => false
  | _ => true

theorem ordinary_read {σ : Type} [Memory σ] (location : Location)
    (size : OperandSize) :
    Execution.Ordinary (σ := σ) (location.read size) := by
  cases location with
  | dataRegister number | addressRegister number => exact .observe _
  | memory address => exact .readData address size
  | program address =>
      exact (Execution.Ordinary.observe _).bind fun _ =>
        .readIn _ address size
  | immediate value => exact .pure value

theorem ordinary_write {σ : Type} [Memory σ] {location : Location}
    (alterable : location.isAlterable = true) (size : OperandSize)
    (value : UInt32) :
    Execution.Ordinary (σ := σ) (location.write size value) := by
  cases location with
  | dataRegister number =>
      exact (Execution.Ordinary.observe _).bind fun _ => .update _
  | addressRegister number => exact .update _
  | memory address => exact .writeData address size value
  | program address | immediate value => cases alterable

end Location

namespace AddressingMode

/-- Modes with an extension word that may mean nothing. -/
def isIndexed : AddressingMode → Bool
  | indexed _ | pcIndexed => true
  | _ => false

/-- Modes of operands that have an address. -/
def hasAddress : AddressingMode → Bool
  | dataRegister _ | addressRegister _ | immediate => false
  | _ => true

theorem hasAddress_of_isControl {mode : AddressingMode}
    (control : mode.isControl = true) : mode.hasAddress = true := by
  cases mode <;> first | rfl | cases control

theorem hasAddress_of_isMemoryAlterable {mode : AddressingMode}
    (alterable : mode.isMemoryAlterable = true) : mode.hasAddress = true := by
  cases mode <;> first | rfl | cases alterable

theorem isAlterable_of_isDataAlterable {mode : AddressingMode}
    (alterable : mode.isDataAlterable = true) : mode.isAlterable = true :=
  (Bool.and_eq_true_iff.mp alterable).2

theorem isAlterable_of_isMemoryAlterable {mode : AddressingMode}
    (alterable : mode.isMemoryAlterable = true) : mode.isAlterable = true :=
  (Bool.and_eq_true_iff.mp alterable).2

/-- The kind of place that an operand of a mode is at. -/
def leadsTo : AddressingMode → Location → Bool
  | dataRegister number, .dataRegister found => number == found
  | addressRegister number, .addressRegister found => number == found
  | pcDisplacement, .program _ | pcIndexed, .program _ => true
  | immediate, .immediate _ => true
  | mode, .memory _ => mode.isMemory && mode.isAlterable
  | _, _ => false

variable {σ : Type} [Memory σ]

theorem leadsTo_of_resolve {mode : AddressingMode} {size : OperandSize}
    {machine left : Machine σ} {location : Location}
    (run : mode.resolve size machine = .ok location left) :
    mode.leadsTo location = true := by
  cases mode with
  | dataRegister number | addressRegister number =>
      cases run
      exact beq_self_eq_true number
  | indirect number | postincrement number | predecrement number =>
      cases run
      rfl
  | absoluteShort | absoluteLong =>
      obtain ⟨found, middle, -, returned⟩ := Execution.bind_eq_ok run
      cases returned
      rfl
  | displacement number | indexed number | pcDisplacement | pcIndexed =>
      obtain ⟨found, middle, -, rest⟩ := Execution.bind_eq_ok run
      obtain ⟨address, after, -, returned⟩ := Execution.bind_eq_ok rest
      cases returned
      rfl
  | immediate =>
      cases size with
      | byte | word | long | unsized =>
          obtain ⟨found, middle, -, returned⟩ := Execution.bind_eq_ok run
          cases returned
          rfl

theorem exists_address_of_resolve {mode : AddressingMode}
    (addressed : mode.hasAddress = true) {size : OperandSize}
    {machine left : Machine σ} {location : Location}
    (run : mode.resolve size machine = .ok location left) :
    ∃ address, location.address? = some address := by
  have leads := leadsTo_of_resolve run
  cases location with
  | memory address | program address => exact ⟨address, rfl⟩
  | dataRegister found | addressRegister found | immediate value =>
      cases mode with
      | dataRegister number | addressRegister number | immediate =>
          cases addressed
      | _ => cases leads

theorem isAlterable_of_resolve {mode : AddressingMode}
    (alterable : mode.isAlterable = true) {size : OperandSize}
    {machine left : Machine σ} {location : Location}
    (run : mode.resolve size machine = .ok location left) :
    location.isAlterable = true := by
  have leads := leadsTo_of_resolve run
  cases location with
  | program address | immediate value =>
      cases mode with
      | pcDisplacement | pcIndexed | immediate => cases alterable
      | _ => cases leads
  | _ => rfl

/-- The extension word of an indexed operand is one that no model defines. -/
def FindsUndefined (mode : AddressingMode) (machine : Machine σ) : Prop :=
  mode.isIndexed = true ∧ .mc68020 ≤ machine.model ∧
    ∃ word passed, Execution.fetchWord machine = .ok word passed ∧
      bitsOf word 8 1 = 1 ∧
        (bitsOf word 4 2 = 0 ∨ IndexedOperand.IsReserved word)

end AddressingMode

namespace Execution

variable {σ : Type} [Memory σ]

theorem illegalBy_fullIndexedAddress (word : UInt16) (base index : UInt32) :
    IllegalBy (σ := σ)
      (fun _ => bitsOf word 4 2 = 0 ∨ IndexedOperand.IsReserved word)
      (fullIndexedAddress ⟨word⟩ base index) := by
  unfold fullIndexedAddress
  refine IllegalBy.throwIf (fun missing _ => ?_)
    (IllegalBy.after (.fetchSizedDisplacement _) fun displacement =>
      IllegalBy.throwIf (fun reserved _ => ?_) (Ordinary.illegalBy ?_ _))
  · exact .inl ((IndexWord.baseDisplacementSize_eq_zero_iff word).mp missing)
  · exact .inr ((IndexWord.isReserved_iff word).mp reserved)
  · refine (Ordinary.fetchSizedDisplacement _).bind fun outer =>
      .ite (.pure _) (.ite ?_ ?_)
    · exact (Ordinary.readData _ _).bind fun _ => .pure _
    · exact (Ordinary.readData _ _).bind fun _ => .pure _

theorem illegalBy_indexedAddress (base : UInt32) :
    IllegalBy (σ := σ)
      (fun machine => .mc68020 ≤ machine.model ∧
        ∃ word passed, fetchWord machine = .ok word passed ∧
          bitsOf word 8 1 = 1 ∧
            (bitsOf word 4 2 = 0 ∨ IndexedOperand.IsReserved word))
      (indexedAddress base) := by
  intro machine fault left run refuses
  obtain failed | ⟨word, passed, fetched, rest⟩ := bind_eq_error run
  · rw [Ordinary.fetchWord failed] at refuses
    cases refuses
  · have model := Fetches.fetchWord.model_eq fetched
    simp only [supports, register, observe, bind_apply] at rest
    split at rest
    · rename_i extended
      obtain ⟨recent, full⟩ := Bool.and_eq_true_iff.mp extended
      rw [model] at recent
      rw [IndexWord.isFull, bitAt_eq] at full
      obtain ⟨illegal, undefined⟩ :=
        illegalBy_fullIndexedAddress word _ _ rest refuses
      exact ⟨illegal, of_decide_eq_true recent, word, passed, fetched,
        of_decide_eq_true full, undefined⟩
    · cases rest

end Execution

/-! ## Operands -/

namespace AddressingMode

variable {σ : Type} [Memory σ]

theorem illegalBy_resolve (mode : AddressingMode) (size : OperandSize) :
    Execution.IllegalBy (σ := σ) mode.FindsUndefined (mode.resolve size) := by
  have plain (ordinary : Execution.Ordinary (σ := σ) (mode.resolve size)) :=
    ordinary.illegalBy mode.FindsUndefined
  cases mode with
  | dataRegister number | addressRegister number => exact plain (.pure _)
  | indirect number =>
      exact plain ((Execution.Ordinary.observe _).bind fun _ => .pure _)
  | postincrement number | predecrement number =>
      exact plain ((Execution.Ordinary.observe _).bind fun _ =>
        (Execution.Ordinary.update _).bind fun _ => .pure _)
  | displacement number =>
      exact plain (Execution.Ordinary.fetchDisplacement.bind fun _ =>
        (Execution.Ordinary.observe _).bind fun _ => .pure _)
  | absoluteShort =>
      exact plain (Execution.Ordinary.fetchDisplacement.bind fun _ => .pure _)
  | absoluteLong =>
      exact plain (Execution.Ordinary.fetchLong.bind fun _ => .pure _)
  | pcDisplacement =>
      exact plain ((Execution.Ordinary.observe _).bind fun _ =>
        Execution.Ordinary.fetchDisplacement.bind fun _ => .pure _)
  | immediate =>
      refine plain ?_
      cases size with
      | byte | word =>
          exact Execution.Ordinary.fetchWord.bind fun _ => .pure _
      | long | unsized =>
          exact Execution.Ordinary.fetchLong.bind fun _ => .pure _
  | indexed number | pcIndexed =>
      refine Execution.IllegalBy.mono (.observed fun base =>
        (Execution.illegalBy_indexedAddress base).bind fun _ => .pure _) ?_
      exact fun machine undefined => ⟨rfl, undefined⟩

theorem illegalBy_fetch (mode : AddressingMode) (size : OperandSize) :
    Execution.IllegalBy (σ := σ) mode.FindsUndefined (mode.fetch size) :=
  (mode.illegalBy_resolve size).bind fun location =>
    (location.ordinary_read size).bind fun _ => .pure _

/-- An operand that has an address is found unless its extension word is
undefined. -/
theorem illegalBy_resolveAddress {mode : AddressingMode}
    (addressed : mode.hasAddress = true) (size : OperandSize) :
    Execution.IllegalBy (σ := σ) mode.FindsUndefined
      (mode.resolveAddress size) := by
  intro machine fault left run refuses
  obtain failed | ⟨location, middle, resolved, rest⟩ :=
    Execution.bind_eq_error run
  · exact mode.illegalBy_resolve size failed refuses
  · obtain ⟨address, found⟩ := exists_address_of_resolve addressed resolved
    rw [found] at rest
    cases rest

end AddressingMode

def Source.FindsUndefined {σ : Type} [Memory σ] (source : Source)
    (machine : Machine σ) : Prop :=
  match source with
  | operand mode => mode.FindsUndefined machine
  | _ => False

def Destination.FindsUndefined {σ : Type} [Memory σ]
    (destination : Destination) (machine : Machine σ) : Prop :=
  match destination with
  | operand mode | store mode => mode.FindsUndefined machine
  | _ => False

/-- One of the operands has an undefined extension word.  The destination is
found after the source has been fetched. -/
def DataInstruction.FindsUndefined {σ : Type} [Memory σ]
    (instruction : DataInstruction) (machine : Machine σ) : Prop :=
  instruction.source.FindsUndefined machine ∨
    ∃ value middle,
      instruction.source.fetch instruction.size machine = .ok value middle ∧
        instruction.destination.FindsUndefined middle

section

variable {σ : Type} [Memory σ]

theorem Source.illegalBy_fetch (source : Source) (size : OperandSize) :
    Execution.IllegalBy (σ := σ) source.FindsUndefined (source.fetch size) := by
  cases source with
  | none => exact (Execution.Ordinary.pure _).illegalBy _
  | constant value => exact (Execution.Ordinary.pure _).illegalBy _
  | dataRegister number => exact (Execution.Ordinary.observe _).illegalBy _
  | extensionWord =>
      exact (Execution.Ordinary.fetchWord.bind fun _ => .pure _).illegalBy _
  | operand mode => exact (mode.illegalBy_fetch size).bind fun _ => .pure _

theorem Destination.illegalBy_fetch (destination : Destination)
    (size : OperandSize) :
    Execution.IllegalBy (σ := σ) destination.FindsUndefined
      (destination.fetch size) := by
  cases destination with
  | none => exact (Execution.Ordinary.pure _).illegalBy _
  | dataRegister number | addressRegister number =>
      exact ((Execution.Ordinary.observe _).bind fun _ => .pure _).illegalBy _
  | operand mode => exact (mode.illegalBy_fetch size).bind fun _ => .pure _
  | store mode => exact (mode.illegalBy_resolve size).bind fun _ => .pure _

namespace DataInstruction

variable {instruction : DataInstruction}

theorem illegalBy_fetchOperands (instruction : DataInstruction) :
    Execution.IllegalBy (σ := σ) instruction.FindsUndefined
      instruction.fetchOperands := by
  intro machine fault left run refuses
  obtain failed | ⟨value, middle, fetched, rest⟩ := Execution.bind_eq_error run
  · obtain ⟨illegal, undefined⟩ :=
      instruction.source.illegalBy_fetch _ failed refuses
    exact ⟨illegal, .inl undefined⟩
  · obtain ⟨illegal, undefined⟩ :=
      ((instruction.destination.illegalBy_fetch _).bind fun _ => .pure _) rest
        refuses
    exact ⟨illegal, .inr ⟨value, middle, fetched, undefined⟩⟩

end DataInstruction

end

end M68k

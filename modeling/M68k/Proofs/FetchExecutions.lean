import M68k.Memory.Flat
import M68k.Proofs.Invariant

/-!
# Executions that only fetch

Fetching the words of an instruction and reading its operands changes the
program counter, and the memory as it sees fit when it is read.  Only the modes
that move an address register change more, and none changes the status register
or a data register.
-/

namespace M68k

/-- Only the memory and the program counter of a machine may have changed. -/
def OnlyFetched {σ : Type} (start left : Machine σ) : Prop :=
  ∃ pc memory, left = { start with memory }.withPc pc

namespace OnlyFetched

variable {σ : Type} {start middle left : Machine σ}

theorem refl (machine : Machine σ) : OnlyFetched machine machine :=
  ⟨machine.registers.pc, machine.memory, rfl⟩

theorem trans (first : OnlyFetched start middle)
    (second : OnlyFetched middle left) : OnlyFetched start left := by
  obtain ⟨pc, memory, rfl⟩ := first
  obtain ⟨laterPc, laterMemory, rfl⟩ := second
  exact ⟨laterPc, laterMemory, rfl⟩

theorem ofMemory (only : OnlyMemory start left) : OnlyFetched start left := by
  obtain ⟨memory, rfl⟩ := only
  exact ⟨start.registers.pc, memory, rfl⟩

end OnlyFetched

/-! ## Reads -/

namespace Access

def isRead : Access → Bool
  | readByte _ | readWord _ | readLong _ | readRun _ _ | fetchWord _ => true
  | writeByte _ _ | writeWord _ _ | writeLong _ _ | writeRun _ _ => false

end Access

/-- The memories that come of reading a memory. -/
inductive ReadsTo {σ : Type} [Memory σ] (start : σ) : σ → Prop where
  | refl : ReadsTo start start
  | ask {middle : σ} (reads : ReadsTo start middle) (space : FunctionCode)
      {access : Access} (isRead : access.isRead = true) :
      ReadsTo start ((access.ask space).leaves middle)

/-- Reads leave the memories of a type alone. -/
def Memory.IsQuiet (σ : Type) [Memory σ] : Prop :=
  ∀ (memory : σ) (space : FunctionCode) (access : Access),
    access.isRead = true → (access.ask space).leaves memory = memory

namespace ReadsTo

variable {σ : Type} [Memory σ] {start middle left : σ}

theorem eq_of_quiet (quiet : Memory.IsQuiet σ) (reads : ReadsTo start left) :
    left = start := by
  induction reads with
  | refl => rfl
  | ask reads space isRead induction =>
      rw [quiet _ space _ isRead, induction]

theorem trans (first : ReadsTo start middle) (second : ReadsTo middle left) :
    ReadsTo start left := by
  induction second with
  | refl => exact first
  | ask reads space isRead induction => exact .ask induction space isRead

end ReadsTo

namespace FlatMemory

theorem leaves_readRun_bind {α : Type} (memory : FlatMemory)
    (address : UInt32) (length : Nat) {next : List UInt8 → Bus FlatMemory α}
    (alone : ∀ bytes, (next bytes).leaves memory = memory) :
    (readRun address length >>= next).leaves memory = memory := by
  simp only [Bus.leaves, readRun, bind, EStateM.bind]
  cases memory.run? address length with
  | none => rfl
  | some bytes => exact alone bytes

theorem isQuiet : Memory.IsQuiet FlatMemory := by
  intro memory space access isRead
  have word (address : UInt32) :
      (readWord address).leaves memory = memory := by
    refine leaves_readRun_bind memory address 2 fun bytes => ?_
    split <;> rfl
  cases access with
  | readByte address =>
      simp only [Access.ask, Memory.readByte, Bus.leaves, readByte]
      cases memory.bytes[address.toNat]? <;> rfl
  | readWord address => exact word address
  | readLong address =>
      refine leaves_readRun_bind memory address 4 fun bytes => ?_
      split <;> rfl
  | readRun address length =>
      simp only [Access.ask, Memory.readRun, Bus.leaves, readRun]
      cases memory.run? address length <;> rfl
  | fetchWord address => exact word address
  | writeByte | writeWord | writeLong | writeRun => cases isRead

end FlatMemory

/-- The memory of a machine may have been read. -/
def OnlyMemoryRead {σ : Type} [Memory σ] (start left : Machine σ) : Prop :=
  ∃ memory, ReadsTo start.memory memory ∧ left = { start with memory }

namespace OnlyMemoryRead

variable {σ : Type} [Memory σ] {start middle left : Machine σ}

theorem refl (machine : Machine σ) : OnlyMemoryRead machine machine :=
  ⟨machine.memory, .refl, rfl⟩

theorem trans (first : OnlyMemoryRead start middle)
    (second : OnlyMemoryRead middle left) : OnlyMemoryRead start left := by
  obtain ⟨memory, reads, rfl⟩ := first
  obtain ⟨later, laterReads, rfl⟩ := second
  exact ⟨later, reads.trans laterReads, rfl⟩

theorem withPc (only : OnlyMemoryRead start left) (pc : UInt32) :
    OnlyMemoryRead (start.withPc pc) (left.withPc pc) := by
  obtain ⟨memory, reads, rfl⟩ := only
  exact ⟨memory, reads, rfl⟩

theorem eq_of_quiet (quiet : Memory.IsQuiet σ)
    (only : OnlyMemoryRead start left) : left = start := by
  obtain ⟨memory, reads, rfl⟩ := only
  rw [reads.eq_of_quiet quiet]

/-- An access that is a read. -/
theorem ofLeaves (machine : Machine σ) (space : FunctionCode)
    {access : Access} (isRead : access.isRead = true)
    (same : left =
      { machine with memory := (access.ask space).leaves machine.memory }) :
    OnlyMemoryRead machine left :=
  ⟨_, .ask .refl space isRead, same⟩

end OnlyMemoryRead

theorem ends_readIn_onlyMemoryRead {σ : Type} [Memory σ]
    (space : FunctionCode) (address : UInt32) (size : OperandSize)
    (machine : Machine σ) :
    Ends (OnlyMemoryRead machine)
      (Execution.readIn space address size machine) := by
  have asks (access : Access) (isRead : access.isRead = true) :
      Ends (OnlyMemoryRead machine)
        (Execution.onBus (access.ask space) machine) :=
    (ends_onBus _ machine).mono fun _ => .ofLeaves machine space isRead
  simp only [Execution.readIn, Execution.bind_apply,
    Execution.checkAlignment_apply]
  by_cases refused : size ≠ .byte ∧ machine.misaligned address = true
  · rw [if_pos refused]
    exact .refl machine
  · rw [if_neg refused]
    cases size with
    | byte =>
        exact (asks (.readByte address) rfl).bind (fun _ only => only)
          fun _ _ _ only => only
    | word =>
        exact (asks (.readWord address) rfl).bind (fun _ only => only)
          fun _ _ _ only => only
    | long => exact asks (.readLong address) rfl
    | unsized => exact .refl machine

theorem ends_instructionWordAt_onlyMemoryRead {σ : Type} [Memory σ]
    (address : UInt32) (machine : Machine σ) :
    Ends (OnlyMemoryRead machine)
      (Execution.instructionWordAt address machine) := by
  simp only [Execution.instructionWordAt, Execution.programSpace,
    Execution.observe, Execution.bind_apply, Execution.ite_apply,
    Execution.throw_apply]
  split
  · exact .refl machine
  · exact (ends_onBus _ machine).mono fun _ =>
      .ofLeaves machine machine.programSpace
        (show (Access.fetchWord address).isRead = true from rfl)

/-- Only the program counter of a machine may have changed, and the memory by
being read. -/
def OnlyRead {σ : Type} [Memory σ] (start left : Machine σ) : Prop :=
  ∃ pc memory, ReadsTo start.memory memory ∧
    left = { start with memory }.withPc pc

namespace OnlyRead

variable {σ : Type} [Memory σ] {start middle left : Machine σ}

theorem refl (machine : Machine σ) : OnlyRead machine machine :=
  ⟨machine.registers.pc, machine.memory, .refl, rfl⟩

theorem trans (first : OnlyRead start middle) (second : OnlyRead middle left) :
    OnlyRead start left := by
  obtain ⟨pc, memory, reads, rfl⟩ := first
  obtain ⟨laterPc, laterMemory, laterReads, rfl⟩ := second
  exact ⟨laterPc, laterMemory, reads.trans laterReads, rfl⟩

theorem withPc (machine : Machine σ) (pc : UInt32) :
    OnlyRead machine (machine.withPc pc) :=
  ⟨pc, machine.memory, .refl, rfl⟩

theorem ofMemory (only : OnlyMemoryRead start left) : OnlyRead start left := by
  obtain ⟨memory, reads, rfl⟩ := only
  exact ⟨start.registers.pc, memory, reads, rfl⟩

theorem onlyFetched (only : OnlyRead start left) : OnlyFetched start left := by
  obtain ⟨pc, memory, reads, rfl⟩ := only
  exact ⟨pc, memory, rfl⟩

end OnlyRead

namespace Execution

variable {σ α β : Type} [Memory σ]

/-- Wherever an execution ends, it has only fetched. -/
def Fetches (execution : Execution σ α) : Prop :=
  ∀ machine, Ends (OnlyRead machine) (execution machine)

namespace Fetches

theorem pure (value : α) : Fetches (Pure.pure value : Execution σ α) :=
  OnlyRead.refl

theorem throw (fault : Fault) :
    Fetches (MonadExcept.throw fault : Execution σ α) :=
  OnlyRead.refl

theorem observe (view : Machine σ → α) : Fetches (Execution.observe view) :=
  OnlyRead.refl

theorem setPc (address : UInt32) : Fetches (σ := σ) (Execution.setPc address) :=
  fun machine => .withPc machine address

theorem bind {first : Execution σ α} {next : α → Execution σ β}
    (fetches : Fetches first) (goesOn : ∀ value, Fetches (next value)) :
    Fetches (first >>= next) := by
  intro machine
  refine (fetches machine).bind (fun _ only => only) ?_
  intro value left _ only
  exact (goesOn value left).mono fun _ => only.trans

theorem ite {condition : Prop} [Decidable condition]
    {first second : Execution σ α} (holds : Fetches first)
    (fails : Fetches second) :
    Fetches (if condition then first else second) := by
  split
  · exact holds
  · exact fails

/-- A check that ends with a fault if a condition holds, and what follows. -/
theorem throwIf {condition : Prop} [Decidable condition] {fault : Fault}
    {next : Unit → Execution σ α} (goesOn : Fetches (next ())) :
    Fetches
      (if condition then MonadExcept.throw fault >>= next else next ()) :=
  .ite (fun machine => .refl machine) goesOn

theorem readData (address : UInt32) (size : OperandSize) :
    Fetches (σ := σ) (Execution.readData address size) :=
  fun machine =>
    (ends_readIn_onlyMemoryRead machine.dataSpace address size machine).mono
      fun _ => .ofMemory

theorem fetchWord : Fetches (σ := σ) Execution.fetchWord := by
  refine .bind (.observe _) fun address => ?_
  refine .bind ?_ fun word => .bind (.setPc _) fun _ => .pure _
  intro machine
  exact (ends_instructionWordAt_onlyMemoryRead address machine).mono
    fun _ => .ofMemory

theorem fetchLong : Fetches (σ := σ) Execution.fetchLong :=
  fetchWord.bind fun _ => fetchWord.bind fun _ => .pure _

theorem fetchDisplacement : Fetches (σ := σ) Execution.fetchDisplacement :=
  fetchWord.bind fun _ => .pure _

theorem branchTarget (displacement : UInt8) :
    Fetches (σ := σ) (Execution.branchTarget displacement) := by
  refine .bind (.observe _) fun base => .ite ?_ ?_
  · exact fetchDisplacement.bind fun _ => .pure _
  · refine .bind (.observe _) fun long => .ite ?_ (.pure _)
    exact fetchLong.bind fun _ => .pure _

theorem fetchSizedDisplacement (size : Fin 4) :
    Fetches (σ := σ) (Execution.fetchSizedDisplacement size) := by
  unfold Execution.fetchSizedDisplacement
  split
  · exact fetchDisplacement
  · exact fetchLong
  · exact .pure 0

theorem fullIndexedAddress (extension : IndexWord) (base index : UInt32) :
    Fetches (σ := σ)
      (Execution.fullIndexedAddress extension base index) := by
  unfold Execution.fullIndexedAddress
  refine throwIf ((fetchSizedDisplacement _).bind fun base => throwIf ?_)
  refine (fetchSizedDisplacement _).bind fun outer => .ite (.pure _) ?_
  refine .ite ?_ ?_
  · exact (readData _ _).bind fun _ => .pure _
  · exact (readData _ _).bind fun _ => .pure _

theorem indexedAddress (base : UInt32) :
    Fetches (σ := σ) (Execution.indexedAddress base) := by
  refine fetchWord.bind fun word => .bind (.observe _) fun extended => ?_
  refine .bind (.observe _) fun whole => .ite ?_ (.pure _)
  exact fullIndexedAddress _ _ _

/-- A mode that gives an address moves no register on the way. -/
theorem resolve {mode : AddressingMode} (control : mode.isControl = true)
    (size : OperandSize) : Fetches (σ := σ) (mode.resolve size) := by
  cases mode with
  | indirect number => exact .bind (.observe _) fun _ => .pure _
  | displacement number =>
      exact fetchDisplacement.bind fun _ =>
        .bind (.observe _) fun _ => .pure _
  | indexed number =>
      exact .bind (.observe _) fun _ =>
        (indexedAddress _).bind fun _ => .pure _
  | absoluteShort => exact fetchDisplacement.bind fun _ => .pure _
  | absoluteLong => exact fetchLong.bind fun _ => .pure _
  | pcDisplacement =>
      exact .bind (.observe _) fun _ =>
        fetchDisplacement.bind fun _ => .pure _
  | pcIndexed =>
      exact .bind (.observe _) fun _ =>
        (indexedAddress _).bind fun _ => .pure _
  | _ => cases control

theorem resolveAddress {mode : AddressingMode}
    (control : mode.isControl = true) (size : OperandSize) :
    Fetches (σ := σ) (mode.resolveAddress size) := by
  refine (resolve control size).bind fun location => ?_
  cases location.address? with
  | none => exact .throw _
  | some address => exact .pure _

theorem readLocation (location : Location) (size : OperandSize) :
    Fetches (σ := σ) (location.read size) := by
  cases location with
  | dataRegister number => exact .observe _
  | addressRegister number => exact .observe _
  | memory address => exact .readData address size
  | program address =>
      intro machine
      exact (ends_readIn_onlyMemoryRead machine.programSpace address size
        machine).mono fun _ => .ofMemory
  | immediate value => exact .pure value

/-- The model stays. -/
theorem model_eq {execution : Execution σ α} (fetches : Fetches execution)
    {machine left : Machine σ} {value : α}
    (run : execution machine = .ok value left) :
    left.model = machine.model := by
  have only := fetches machine
  rw [run] at only
  obtain ⟨pc, memory, -, rfl⟩ := only
  rfl

omit [Memory σ] in
/-- A flat memory does not change when it is read. -/
theorem eq_withPc {execution : Execution FlatMemory α}
    (fetches : Fetches execution) {machine left : Machine FlatMemory}
    {value : α} (run : execution machine = .ok value left) :
    ∃ pc, left = machine.withPc pc := by
  have only := fetches machine
  rw [run] at only
  obtain ⟨pc, memory, reads, rfl⟩ := only
  rw [reads.eq_of_quiet FlatMemory.isQuiet]
  exact ⟨pc, rfl⟩

end Fetches

end Execution

/-! ## Operands -/

/-- Only the program counter and the address registers of a machine may have
changed, and the memory by being read. -/
def OnlyLocated {σ : Type} [Memory σ] (start left : Machine σ) : Prop :=
  ∃ memory pc address, ReadsTo start.memory memory ∧ left =
    { start with memory, registers := { start.registers with pc, address } }

namespace OnlyLocated

variable {σ : Type} [Memory σ] {start middle left : Machine σ}

theorem ofRead (only : OnlyRead start left) : OnlyLocated start left := by
  obtain ⟨pc, memory, reads, rfl⟩ := only
  exact ⟨memory, pc, start.registers.address, reads, rfl⟩

theorem trans (first : OnlyLocated start middle)
    (second : OnlyLocated middle left) : OnlyLocated start left := by
  obtain ⟨memory, pc, address, reads, rfl⟩ := first
  obtain ⟨laterMemory, laterPc, laterAddress, laterReads, rfl⟩ := second
  exact ⟨laterMemory, laterPc, laterAddress, reads.trans laterReads, rfl⟩

theorem status (only : OnlyLocated start left) :
    left.status = start.status := by
  obtain ⟨memory, pc, address, reads, rfl⟩ := only
  rfl

theorem data (only : OnlyLocated start left) :
    left.registers.data = start.registers.data := by
  obtain ⟨memory, pc, address, reads, rfl⟩ := only
  rfl

end OnlyLocated

namespace Execution

variable {σ α β : Type} [Memory σ]

/-- Wherever an execution ends, it has only fetched and moved address
registers. -/
def Locates (execution : Execution σ α) : Prop :=
  ∀ machine, Ends (OnlyLocated machine) (execution machine)

theorem Fetches.locates {execution : Execution σ α}
    (fetches : Fetches execution) : Locates execution :=
  fun machine => (fetches machine).mono fun _ => .ofRead

namespace Locates

theorem pure (value : α) : Locates (Pure.pure value : Execution σ α) :=
  (Fetches.pure value).locates

theorem observe (view : Machine σ → α) : Locates (Execution.observe view) :=
  (Fetches.observe view).locates

theorem bind {first : Execution σ α} {next : α → Execution σ β}
    (locates : Locates first) (goesOn : ∀ value, Locates (next value)) :
    Locates (first >>= next) := by
  intro machine
  refine (locates machine).bind (fun _ only => only) ?_
  intro value left _ only
  exact (goesOn value left).mono fun _ => only.trans

theorem setAddress (number : Fin 8) (value : UInt32) :
    Locates (σ := σ) (Execution.setRegister (.address number) value) :=
  fun machine => ⟨machine.memory, machine.registers.pc, _, .refl, rfl⟩

theorem resolve (mode : AddressingMode) (size : OperandSize) :
    Locates (σ := σ) (mode.resolve size) := by
  cases control : mode.isControl with
  | true => exact (Fetches.resolve control size).locates
  | false =>
      cases mode with
      | dataRegister number => exact .pure _
      | addressRegister number => exact .pure _
      | postincrement number =>
          exact (observe _).bind fun _ =>
            (setAddress _ _).bind fun _ => .pure _
      | predecrement number =>
          exact (observe _).bind fun _ =>
            (setAddress _ _).bind fun _ => .pure _
      | immediate =>
          refine Fetches.locates ?_
          cases size with
          | byte | word => exact .bind .fetchWord fun _ => .pure _
          | long | unsized => exact .bind .fetchLong fun _ => .pure _
      | _ => cases control

theorem resolveAddress (mode : AddressingMode) (size : OperandSize) :
    Locates (σ := σ) (mode.resolveAddress size) := by
  refine (resolve mode size).bind fun location => ?_
  cases location.address? with
  | none => exact (Fetches.throw _).locates
  | some address => exact .pure _

theorem readLocation (location : Location) (size : OperandSize) :
    Locates (σ := σ) (location.read size) :=
  (Fetches.readLocation location size).locates

theorem fetchOperand (mode : AddressingMode) (size : OperandSize) :
    Locates (σ := σ) (mode.fetch size) :=
  (resolve mode size).bind fun location =>
    (readLocation location size).bind fun _ => .pure _

theorem fetchSource (source : Source) (size : OperandSize) :
    Locates (σ := σ) (source.fetch size) := by
  cases source with
  | none => exact .pure _
  | constant value => exact .pure _
  | dataRegister number => exact observe _
  | extensionWord => exact Fetches.fetchWord.locates.bind fun _ => .pure _
  | operand mode => exact (fetchOperand mode size).bind fun _ => .pure _

theorem fetchDestination (destination : Destination) (size : OperandSize) :
    Locates (σ := σ) (destination.fetch size) := by
  cases destination with
  | none => exact .pure _
  | operand mode => exact (fetchOperand mode size).bind fun _ => .pure _
  | store mode => exact (resolve mode size).bind fun _ => .pure _
  | dataRegister number => exact (observe _).bind fun _ => .pure _
  | addressRegister number => exact (observe _).bind fun _ => .pure _

end Locates

end Execution

end M68k

import M68k.Memory.Flat
import M68k.Proofs.MachineCoupling

/-!
# Models that cannot be told apart

A program cannot tell a 68020 from a 68030.  A 68040 differs from both in a few
control registers, and a 68010 from a 68000 in a few instructions and in the
reservation of MOVE from SR.  Emulators that differ in their models alone stay
so until a program executes one of these.
-/

namespace M68k

/-! ## What depends on the model -/

namespace Model

variable {first second : Model}

/-- The model decides on alignment as it does on the master stack. -/
theorem needsAlignedData_eq_not (model : Model) :
    model.needsAlignedData = !model.hasMasterStack := by
  cases model <;> rfl

theorem statusMask_congr
    (kin : first.hasMasterStack = second.hasMasterStack) :
    first.statusMask = second.statusMask := by
  rw [statusMask, statusMask, kin]

theorem needsAlignedData_congr
    (kin : first.hasMasterStack = second.hasMasterStack) :
    first.needsAlignedData = second.needsAlignedData := by
  rw [needsAlignedData_eq_not, needsAlignedData_eq_not, kin]

end Model

/-- The last instructions came with the 68020. -/
theorem DataInstruction.since_le (instruction : DataInstruction) :
    instruction.since ≤ .mc68020 := by
  rw [since]
  split
  · decide
  · decide
  · split <;> decide
  · split
    · split <;> decide
    · decide
  · split
    · split <;> decide
    · decide
  · decide

namespace Instruction

theorem since_le (instruction : Instruction) :
    instruction.since ≤ .mc68020 := by
  unfold since
  split
  · exact DataInstruction.since_le _
  all_goals decide

/-- The last instruction that was reserved to supervisor mode was so by the
68010. -/
theorem privilegedSince?_le {instruction : Instruction} {model : Model}
    (reserved : instruction.privilegedSince? = some model) :
    model ≤ .mc68010 := by
  unfold privilegedSince? at reserved
  split at reserved
  · split at reserved
    · cases reserved
      decide
    · cases reserved
  all_goals cases reserved
  all_goals decide

/-- An opcode is admitted alike by two models if both have or lack its
instruction, and both or neither reserve it. -/
theorem admit_congr {opcode : UInt16} {first second : Model}
    {supervisor : Bool}
    (present : ∀ instruction, decode? opcode = some instruction →
      (first < instruction.since ↔ second < instruction.since))
    (reserved : ∀ instruction, decode? opcode = some instruction →
      supervisor = false →
        instruction.isPrivilegedOn first = instruction.isPrivilegedOn second) :
    Instruction.admit opcode first supervisor =
      Instruction.admit opcode second supervisor := by
  unfold Instruction.admit
  cases decoded : decode? opcode with
  | none => rfl
  | some instruction =>
      simp only [present instruction decoded]
      cases supervisor with
      | true => rfl
      | false => rw [reserved instruction decoded rfl]

/-- The last three models have all instructions. -/
theorem not_lt_since {model : Model} (recent : model.hasMasterStack = true)
    (instruction : Instruction) : ¬model < instruction.since :=
  Nat.not_lt.mpr (Nat.le_trans instruction.since_le (of_decide_eq_true recent))

/-- The last three models reserve whatever some model reserves. -/
theorem isPrivilegedOn_eq_isSome {model : Model}
    (recent : model.hasMasterStack = true) (instruction : Instruction) :
    instruction.isPrivilegedOn model =
      instruction.privilegedSince?.isSome := by
  rw [isPrivilegedOn]
  cases reserved : instruction.privilegedSince? with
  | none => rfl
  | some first =>
      have early : first ≤ .mc68020 :=
        Nat.le_trans (privilegedSince?_le reserved) (by decide)
      exact decide_eq_true (Nat.le_trans early (of_decide_eq_true recent))

theorem admit_recent {first second : Model}
    (firstRecent : first.hasMasterStack = true)
    (secondRecent : second.hasMasterStack = true) (opcode : UInt16)
    (supervisor : Bool) :
    Instruction.admit opcode first supervisor =
      Instruction.admit opcode second supervisor := by
  apply admit_congr
  · intro instruction _
    have firstPresent := not_lt_since firstRecent instruction
    have secondPresent := not_lt_since secondRecent instruction
    exact iff_of_false firstPresent secondPresent
  · intro instruction _ _
    rw [isPrivilegedOn_eq_isSome firstRecent,
      isPrivilegedOn_eq_isSome secondRecent]

/-- What neither came with the second model nor was reserved by it is admitted
by the first two alike. -/
theorem admit_mc68010 {opcode : UInt16} {supervisor : Bool}
    (present : ∀ instruction, decode? opcode = some instruction →
      instruction.since ≠ .mc68010)
    (unreserved : ∀ instruction, decode? opcode = some instruction →
      supervisor = false → instruction.privilegedSince? ≠ some .mc68010) :
    Instruction.admit opcode .mc68000 supervisor =
      Instruction.admit opcode .mc68010 supervisor := by
  apply admit_congr
  · intro instruction decoded
    have earlier := present instruction decoded
    cases since : instruction.since with
    | mc68010 => exact absurd since earlier
    | _ => decide
  · intro instruction decoded user
    have free := unreserved instruction decoded user
    rw [isPrivilegedOn, isPrivilegedOn]
    cases reserved : instruction.privilegedSince? with
    | none => rfl
    | some first =>
        cases first with
        | mc68010 => exact absurd reserved free
        | _ => rfl

end Instruction

namespace ControlRegister

/-- The numbers of the registers that the last model added or removed. -/
def numbersOfLastModel : List UInt16 :=
  [0x003, 0x004, 0x005, 0x006, 0x007, 0x802, 0x805, 0x806, 0x807]

theorem forModel?_congr {id : UInt16} {first second : Model}
    (same : ∀ register, ofId? id = some register →
      register.existsOn first = register.existsOn second) :
    forModel? id first = forModel? id second := by
  rw [forModel?, forModel?]
  cases found : ofId? id with
  | none => rfl
  | some register =>
      rw [Option.filter_some, Option.filter_some, same register found]

theorem forModel?_mc68030 (id : UInt16) :
    forModel? id .mc68020 = forModel? id .mc68030 := by
  apply forModel?_congr
  intro register _
  cases register <;> rfl

/-- The other registers are the same on the last three models. -/
theorem forModel?_mc68040 {older : Model}
    (recent : older = .mc68020 ∨ older = .mc68030) {id : UInt16}
    (other : id ∉ numbersOfLastModel) :
    forModel? id older = forModel? id .mc68040 := by
  apply forModel?_congr
  intro register found
  unfold ofId? at found
  split at found <;> cases found
  all_goals first
    | exact absurd (by decide) other
    | rcases recent with rfl | rfl <;> rfl

end ControlRegister

/-! ## Instructions that tell models apart -/

def Instruction.isMoveFromSr : Instruction → Bool
  | .data instruction => instruction.operation = .moveFromSr
  | _ => false

namespace Machine

variable {σ : Type}

def withModel (machine : Machine σ) (model : Model) : Machine σ :=
  { machine with model }

/-- The number of the control register that the next instruction names, if it
is an admitted MOVEC and its extension word can be fetched. -/
def movecId? [Memory σ] (machine : Machine σ) : Option UInt16 :=
  match Instruction.admit machine.opcode machine.model
      machine.isSupervisor with
  | .ok .movecStore | .ok .movecLoad =>
      match Execution.fetchWord
          (machine.withPc (machine.registers.pc + 2)) with
      | .ok word _ => some (word &&& 0xFFF)
      | .error _ _ => none
  | _ => none

/-- Whether the next instruction tells a 68040 from older models: it is a MOVEC
that names a register which the 68040 added or removed. -/
def namesLastModel [Memory σ] (machine : Machine σ) : Bool :=
  machine.movecId?.any (· ∈ ControlRegister.numbersOfLastModel)

/-- Whether the next instruction tells a 68010 from a 68000: it came with the
68010, or is a MOVE from SR in user mode. -/
def usesExtensions (machine : Machine σ) : Bool :=
  (Instruction.decode? machine.opcode).any fun instruction =>
    instruction.since = .mc68010 ||
      !machine.isSupervisor && instruction.isMoveFromSr

end Machine

theorem DataInstruction.since_eq_mc68010_iff (instruction : DataInstruction) :
    instruction.since = .mc68010 ↔ instruction.operation = .moveFromCcr := by
  rw [since]
  split
  · rename_i operation
    simp [operation]
  · rename_i operation
    simp [operation]
  · rename_i operation
    split <;> simp [operation]
  · rename_i operation
    split
    · split <;> simp [operation]
    · simp [operation]
  · rename_i operation
    split
    · split <;> simp [operation]
    · simp [operation]
  · rename_i different _ _ _
    exact ⟨fun found => (by cases found), fun found => (different found).elim⟩

/-- The instructions that came with the 68010. -/
theorem Instruction.since_eq_mc68010_iff (instruction : Instruction) :
    instruction.since = .mc68010 ↔
      instruction = .rtd ∨ instruction = .movecStore ∨
      instruction = .movecLoad ∨ (∃ size mode, instruction = .moves size mode) ∨
      (∃ vector, instruction = .bkpt vector) ∨
      ∃ moved, instruction = .data moved ∧ moved.operation = .moveFromCcr := by
  cases instruction with
  | data moved => simp [since, moved.since_eq_mc68010_iff]
  | _ => simp [since]

/-- Only MOVE from SR was reserved by the 68010. -/
theorem Instruction.privilegedSince?_eq_mc68010 {instruction : Instruction}
    (reserved : instruction.privilegedSince? = some .mc68010) :
    instruction.isMoveFromSr = true := by
  cases instruction with
  | data moved =>
      rw [privilegedSince?] at reserved
      split at reserved
      · rename_i operation
        exact decide_eq_true operation
      · cases reserved
  | _ => cases reserved

/-! ## Machines of two models -/

namespace Machine

variable {σ : Type} {first second : Model}

/-- A machine without a breakpoint handler, and the same machine of another
model. -/
structure DifferInModel (first second : Model)
    (left right : Machine σ) : Prop where
  model : left.model = first
  handler : left.handler = none
  other : right = left.withModel second

theorem activeBank_withModel {machine : Machine σ}
    (kin : machine.model.hasMasterStack = second.hasMasterStack) :
    (machine.withModel second).activeBank = machine.activeBank := by
  rw [activeBank, activeBank, kin]
  rfl

theorem saveStackPointer_withModel {machine : Machine σ}
    (kin : machine.model.hasMasterStack = second.hasMasterStack) :
    (machine.withModel second).saveStackPointer =
      machine.saveStackPointer.withModel second := by
  rw [saveStackPointer, activeBank_withModel kin]
  rfl

theorem loadStackPointer_withModel {machine : Machine σ}
    (kin : machine.model.hasMasterStack = second.hasMasterStack) :
    (machine.withModel second).loadStackPointer =
      machine.loadStackPointer.withModel second := by
  rw [loadStackPointer, activeBank_withModel kin]
  rfl

theorem setStatusWord_withModel {machine : Machine σ}
    (kin : machine.model.hasMasterStack = second.hasMasterStack)
    (word : UInt16) :
    (machine.withModel second).setStatusWord word =
      (machine.setStatusWord word).withModel second := by
  rw [setStatusWord, saveStackPointer_withModel kin]
  show loadStackPointer (withModel
    { machine.saveStackPointer with
      status := .ofWord (word &&& second.statusMask) } second) = _
  rw [← Model.statusMask_congr kin]
  exact loadStackPointer_withModel kin

/-- A memory does not know the model. -/
theorem DifferInModel.onBus {α : Type} {left right : Machine σ}
    (differ : left.DifferInModel first second right)
    (transaction : Bus σ α) :
    Agree (DifferInModel first second) (Execution.onBus transaction left)
      (Execution.onBus transaction right) := by
  obtain ⟨model, detached, rfl⟩ := differ
  exact .onBus rfl ⟨model, detached, rfl⟩

variable [Memory σ]

/-- Models with the same stacks have the same data path. -/
theorem differInModel_coupling
    (kin : first.hasMasterStack = second.hasMasterStack) :
    MachineCoupling
      (DifferInModel first second : Machine σ → Machine σ → Prop) where
  general := by rintro left _ ⟨-, -, rfl⟩ register; rfl
  counter := by rintro left _ ⟨-, -, rfl⟩; rfl
  status := by rintro left _ ⟨-, -, rfl⟩; rfl
  alignment := by
    rintro left _ ⟨model, -, rfl⟩
    rw [model]
    exact Model.needsAlignedData_congr kin
  extensions := by
    rintro left _ ⟨model, -, rfl⟩
    rw [model]
    exact kin
  branches := by
    rintro left _ ⟨model, -, rfl⟩
    rw [model]
    exact kin
  finalPointer := by
    rintro left _ ⟨model, -, rfl⟩
    rw [model]
    exact kin
  writeGeneral := by
    rintro left _ ⟨model, detached, rfl⟩ register value
    exact ⟨model, detached, rfl⟩
  writeCounter := by
    rintro left _ ⟨model, detached, rfl⟩ address
    exact ⟨model, detached, rfl⟩
  writeCodes := by
    rintro left _ ⟨model, detached, rfl⟩ codes _
    exact ⟨model, detached, rfl⟩
  access := fun differ space access _ _ => differ.onBus (access.ask space)
  control := by rintro left _ ⟨-, -, rfl⟩ register; rfl
  writeControl := by
    rintro left _ ⟨model, detached, rfl⟩ register value
    exact ⟨model, detached, rfl⟩
  saveStackPointer := by
    rintro left _ ⟨rfl, detached, rfl⟩
    exact ⟨rfl, detached, saveStackPointer_withModel kin⟩
  loadStackPointer := by
    rintro left _ ⟨rfl, detached, rfl⟩
    exact ⟨rfl, detached, loadStackPointer_withModel kin⟩
  writeStatus := by
    rintro left _ ⟨rfl, detached, rfl⟩ word
    exact ⟨rfl, detached, setStatusWord_withModel kin word⟩
  resetDevices := by
    rintro left _ ⟨model, detached, rfl⟩
    exact ⟨model, detached, rfl⟩
  accessAny := fun differ space access _ => differ.onBus (access.ask space)
  condition := by rintro left _ ⟨-, -, rfl⟩; rfl
  writeOpcode := by
    rintro left _ ⟨model, detached, rfl⟩ opcode
    exact ⟨model, detached, rfl⟩
  writeCondition := by
    rintro left _ ⟨model, detached, rfl⟩ condition
    exact ⟨model, detached, rfl⟩
  raiseMask := by
    rintro left _ ⟨model, detached, rfl⟩ level
    exact ⟨model, detached, rfl⟩
  clear := by
    rintro left _ ⟨model, detached, rfl⟩
    exact ⟨model, detached, rfl⟩

/-- Two models execute the next instruction of a machine alike: it is the same
on both, and both have or lack the control register it names. -/
structure SameInstruction (first second : Model) (machine : Machine σ) :
    Prop where
  admission : Instruction.admit machine.opcode first machine.isSupervisor =
    Instruction.admit machine.opcode second machine.isSupervisor
  control : ∀ id, machine.movecId? = some id →
    ControlRegister.forModel? id first = ControlRegister.forModel? id second

theorem movecId?_of_fetchWord {machine fetched : Machine σ}
    {instruction : Instruction} {word : UInt16}
    (admitted : Instruction.admit machine.opcode machine.model
      machine.isSupervisor = .ok instruction)
    (named : instruction = .movecStore ∨ instruction = .movecLoad)
    (fetching : Execution.fetchWord
      (machine.withPc (machine.registers.pc + 2)) = .ok word fetched) :
    machine.movecId? = some (word &&& 0xFFF) := by
  rw [movecId?, admitted, fetching]
  rcases named with rfl | rfl <;> rfl

/-- MOVEC came with the 68010. -/
theorem le_model_of_movecId? {machine : Machine σ} {id : UInt16}
    (named : machine.movecId? = some id) : .mc68010 ≤ machine.model := by
  rw [movecId?] at named
  split at named
  · rename_i admitted
    exact Nat.not_lt.mp (Instruction.admit_eq_ok admitted).2.1
  · rename_i admitted
    exact Nat.not_lt.mp (Instruction.admit_eq_ok admitted).2.1
  · cases named

theorem SameInstruction.executesAlike
    (kin : first.hasMasterStack = second.hasMasterStack)
    {left right : Machine σ} (differ : left.DifferInModel first second right)
    (same : left.SameInstruction first second) :
    ExecutesAlike (DifferInModel first second) left right := by
  obtain ⟨rfl, detached, rfl⟩ := differ
  have coupling := differInModel_coupling (σ := σ) kin
  refine coupling.executesAlike ⟨rfl, detached, rfl⟩ detached detached
    same.admission ?_
  intro instruction admitted named word fetched fetching
  exact same.control _ (movecId?_of_fetchWord admitted named fetching)

end Machine

/-! ## Emulators of two models -/

namespace Emulator

variable {σ : Type}

def withModel (emulator : Emulator σ) (model : Model) : Emulator σ :=
  emulator.withMachine (emulator.machine.withModel model)

/-- Related emulators differ in their models alone. -/
theorem Related.eq_withModel {first second : Model} {left right : Emulator σ}
    (related : left.Related (Machine.DifferInModel first second) right) :
    right = left.withModel second :=
  related.eq_of_machine related.machine.other rfl rfl

variable [Memory σ]

/-- From one state, emulators of two models are in the same states after every
call, answer alike, and execute the same instructions in the same states. -/
structure SameRun (first second : Model) (emulator : Emulator σ)
    (calls : List HostCall) : Prop where
  states : ∀ earlier, earlier <+: calls →
    (emulator.withModel second).after earlier =
      ((emulator.withModel first).after earlier).withModel second
  answers : (emulator.withModel second).answers calls =
    (emulator.withModel first).answers calls
  executed : (emulator.withModel second).executed calls =
    ((emulator.withModel first).executed calls).map (·.withModel second)

variable {first second : Model} {emulator : Emulator σ}

/-- Runs are the same if every executed instruction is. -/
theorem sameRun_of_sameInstruction
    (kin : first.hasMasterStack = second.hasMasterStack)
    (detached : emulator.machine.handler = none) {calls : List HostCall}
    (same : ∀ machine ∈ (emulator.withModel first).executed calls,
      machine.model = first → machine.SameInstruction first second) :
    emulator.SameRun first second calls := by
  have coupling := Machine.differInModel_coupling (σ := σ) kin
  have start : (emulator.withModel first).Related
      (Machine.DifferInModel first second) (emulator.withModel second) :=
    ⟨⟨rfl, detached, rfl⟩, rfl, rfl⟩
  have alike : ∀ machine ∈ (emulator.withModel first).executed calls,
      ∀ other, machine.DifferInModel first second other →
        Machine.ExecutesAlike (Machine.DifferInModel first second)
          machine other :=
    fun machine executed other differ =>
      (same machine executed differ.model).executesAlike kin differ
  obtain ⟨answers, -, executed⟩ := coupling.calls start calls alike
  refine ⟨?_, answers.symm, ?_⟩
  · rintro earlier ⟨later, rfl⟩
    obtain ⟨-, after, -⟩ := coupling.calls start earlier
      fun machine executed => alike machine (by
        rw [executed_append]
        exact List.mem_append_left _ executed)
    exact after.eq_withModel
  · have mapped : List.Forall₂ (fun machine other =>
        machine.withModel second = other)
        ((emulator.withModel first).executed calls)
        ((emulator.withModel second).executed calls) :=
      executed.imp fun _ _ differ => differ.other.symm
    rw [← List.forall₂_map_left_iff, List.forall₂_eq_eq_eq] at mapped
    exact mapped.symm

/-- Emulators that differ in their models alone cannot be told apart: a 68020
and a 68030 never; either and a 68040 until a MOVEC names a register that the
68040 added or removed; a 68000 and a 68010 until an instruction is reached that
came with the 68010, or a MOVE from SR in user mode. -/
theorem models_equivalent (emulator : Emulator σ)
    (detached : emulator.machine.handler = none) (calls : List HostCall) :
    emulator.SameRun .mc68020 .mc68030 calls ∧
      (∀ older, older = .mc68020 ∨ older = .mc68030 →
        (∀ machine ∈ (emulator.withModel older).executed calls,
            machine.namesLastModel = false) →
          emulator.SameRun older .mc68040 calls) ∧
      ((∀ machine ∈ (emulator.withModel .mc68000).executed calls,
          machine.usesExtensions = false) →
        emulator.SameRun .mc68000 .mc68010 calls) := by
  refine ⟨?_, ?_, ?_⟩
  · have kin : Model.mc68020.hasMasterStack =
        Model.mc68030.hasMasterStack := rfl
    refine sameRun_of_sameInstruction kin detached ?_
    intro machine _ _
    constructor
    · exact Instruction.admit_recent rfl rfl _ _
    · exact fun id _ => ControlRegister.forModel?_mc68030 id
  · intro older recent unnamed
    have kin : older.hasMasterStack = true := by
      rcases recent with rfl | rfl <;> rfl
    refine sameRun_of_sameInstruction kin detached ?_
    intro machine executed _
    constructor
    · exact Instruction.admit_recent kin rfl _ _
    · intro id named
      apply ControlRegister.forModel?_mc68040 recent
      intro last
      have unlisted := unnamed machine executed
      rw [Machine.namesLastModel, named] at unlisted
      simp [last] at unlisted
  · intro plain
    have kin : Model.mc68000.hasMasterStack =
        Model.mc68010.hasMasterStack := rfl
    refine sameRun_of_sameInstruction kin detached ?_
    intro machine executed model
    have unextended := plain machine executed
    constructor
    · apply Instruction.admit_mc68010
      · intro instruction decoded since
        rw [Machine.usesExtensions, decoded] at unextended
        simp [since] at unextended
      · intro instruction decoded user reserved
        have moved := Instruction.privilegedSince?_eq_mc68010 reserved
        rw [Machine.usesExtensions, decoded] at unextended
        simp [user, moved] at unextended
    · intro id named
      have present := Machine.le_model_of_movecId? named
      rw [model] at present
      exact absurd present (by decide)

/-- A program that reads the status word and then the cache control register,
in supervisor mode. -/
def readingControl : Emulator FlatMemory :=
  new .mc68000
    ⟨#[0, 0, 0, 0, 0, 0, 0, 8, 0x40, 0xC0, 0x4E, 0x7A, 0, 2, 0x4E, 0x71]⟩

/-- The first instruction does not tell a 68010 from a 68000, and the second not
a 68040 from a 68020. -/
theorem readingControl_models_equivalent :
    readingControl.machine.handler = none ∧
      readingControl.SameRun .mc68000 .mc68010 [.reset, .step] ∧
      readingControl.SameRun .mc68020 .mc68040 [.reset, .step, .step] ∧
      ((readingControl.withModel .mc68040).executed
        [.reset, .step, .step]).map Machine.movecId? = [none, some 2] := by
  have detached : readingControl.machine.handler = none := rfl
  obtain ⟨-, -, sameFirst⟩ :=
    models_equivalent readingControl detached [.reset, .step]
  obtain ⟨-, sameLast, -⟩ :=
    models_equivalent readingControl detached [.reset, .step, .step]
  refine ⟨detached, sameFirst ?_, sameLast .mc68020 (.inl rfl) ?_, ?_⟩
  · decide +kernel
  · decide +kernel
  · decide +kernel

end Emulator

end M68k

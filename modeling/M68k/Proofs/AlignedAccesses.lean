import M68k.Memory.Flat
import M68k.Proofs.MachineInvariant
import M68k.Proofs.OperandSpaces

/-!
# Alignment of accesses

A memory never checks alignment; it relies on the processor.  On the models that
need alignment, no word and no long is asked for at an odd address, and on no
model an instruction word.  So what a memory would do there makes no difference
to any run.
-/

namespace M68k

namespace Access

/-- Words and longs of data are at even addresses. -/
def EvenData : Access → Prop
  | readWord address | readLong address | writeWord address _
  | writeLong address _ => address % 2 = 0
  | _ => True

/-- Instruction words are at even addresses. -/
def EvenFetch : Access → Prop
  | fetchWord address => address % 2 = 0
  | _ => True

instance : DecidablePred EvenData
  | readWord address | readLong address | writeWord address _
  | writeLong address _ => inferInstanceAs (Decidable (address % 2 = 0))
  | readByte _ | writeByte _ _ | readRun _ _ | writeRun _ _ | fetchWord _ =>
      inferInstanceAs (Decidable True)

instance : DecidablePred EvenFetch
  | fetchWord address => inferInstanceAs (Decidable (address % 2 = 0))
  | readByte _ | readWord _ | readLong _ | writeByte _ _ | writeWord _ _
  | writeLong _ _ | readRun _ _ | writeRun _ _ =>
      inferInstanceAs (Decidable True)

variable {σ : Type} {machine : Machine σ} {access : Access}

theorem Aligned.evenData (aligned : access.Aligned machine)
    (needed : machine.model.needsAlignedData = true) : access.EvenData := by
  cases access with
  | readWord | readLong | writeWord | writeLong =>
      simpa [Aligned, EvenData, Machine.misaligned, needed] using aligned
  | _ => trivial

theorem Aligned.evenFetch (aligned : access.Aligned machine) :
    access.EvenFetch := by
  cases access with
  | fetchWord => exact aligned
  | _ => trivial

end Access

/-! ## What is asked for -/

namespace Machine

variable {σ : Type}

/-- The requests so far, to the memory of a machine of a model, were as aligned
as the model needs. -/
structure AskedEvenly (model : Model) (machine : Machine (WatchedMemory σ)) :
    Prop where
  data : model.needsAlignedData = true → ∀ space access,
    .access space access ∈ machine.memory.requests → access.EvenData
  fetches : ∀ space access,
    .access space access ∈ machine.memory.requests → access.EvenFetch
  model : machine.model = model

variable [Memory σ] {model : Model}

theorem AskedEvenly.access {machine : Machine (WatchedMemory σ)}
    (asked : machine.AskedEvenly model) (space : FunctionCode)
    (access : Access) (aligned : access.Aligned machine) :
    AskedEvenly model
      { machine with memory := (access.ask space).leaves machine.memory } := by
  rw [WatchedMemory.ask_eq_watch, WatchedMemory.leaves_watch]
  constructor
  case model => exact asked.model
  case data =>
    intro needed other request listed
    rcases List.mem_cons.mp listed with latest | earlier
    · cases latest
      exact aligned.evenData (asked.model ▸ needed)
    · exact asked.data needed other request earlier
  case fetches =>
    intro other request listed
    rcases List.mem_cons.mp listed with latest | earlier
    · cases latest
      exact aligned.evenFetch
    · exact asked.fetches other request earlier

/-- A reset of the devices is no access. -/
theorem AskedEvenly.resetDevices {machine : Machine (WatchedMemory σ)}
    (asked : machine.AskedEvenly model) :
    AskedEvenly model
      { machine with memory := Memory.resetDevices machine.memory } := by
  have earlier {space : FunctionCode} {access : Access}
      (listed : .access space access ∈
        MemoryRequest.reset :: machine.memory.requests) :
      .access space access ∈ machine.memory.requests :=
    (List.mem_cons.mp listed).resolve_left (by simp)
  exact
    { asked with
      data := fun needed space access listed =>
        asked.data needed space access (earlier listed)
      fetches := fun space access listed =>
        asked.fetches space access (earlier listed)
      model := asked.model }

theorem askedEvenly_invariant (model : Model) :
    MachineInvariant fun machine : Machine (WatchedMemory σ) =>
      machine.AskedEvenly model where
  writeGeneral asked _ _ := ⟨asked.data, asked.fetches, asked.model⟩
  writeCounter asked _ := ⟨asked.data, asked.fetches, asked.model⟩
  writeCodes asked _ _ := ⟨asked.data, asked.fetches, asked.model⟩
  access asked space access aligned _ := asked.access space access aligned
  writeControl asked _ _ := ⟨asked.data, asked.fetches, asked.model⟩
  saveStackPointer asked := ⟨asked.data, asked.fetches, asked.model⟩
  loadStackPointer asked := ⟨asked.data, asked.fetches, asked.model⟩
  writeStatus asked _ := ⟨asked.data, asked.fetches, asked.model⟩
  resetDevices asked := asked.resetDevices
  accessAny asked := asked.access
  writeCondition asked _ := ⟨asked.data, asked.fetches, asked.model⟩
  writeOpcode asked _ := ⟨asked.data, asked.fetches, asked.model⟩
  raiseMask asked _ := ⟨asked.data, asked.fetches, asked.model⟩
  clear asked := ⟨asked.data, asked.fetches, asked.model⟩
  attach asked _ := ⟨asked.data, asked.fetches, asked.model⟩
  recordVisit asked _ := ⟨asked.data, asked.fetches, asked.model⟩

end Machine

/-! ## Runs over two memories -/

/-- A relation of memories that is respected by whatever is asked of them,
unless it is for a word or long at an odd address. -/
structure EvenlyAlike {σ τ : Type} [Memory σ] [Memory τ]
    (related : σ → τ → Prop) : Prop where
  answer : ∀ {memory other}, related memory other → ∀ space (access : Access),
    access.EvenData → access.EvenFetch →
      (access.ask space).answer? memory = (access.ask space).answer? other
  leaves : ∀ {memory other}, related memory other → ∀ space (access : Access),
    access.EvenData → access.EvenFetch →
      related ((access.ask space).leaves memory)
        ((access.ask space).leaves other)
  resetDevices : ∀ {memory other}, related memory other →
    related (Memory.resetDevices memory) (Memory.resetDevices other)

namespace Machine

variable {σ τ : Type}

/-- Machines without a breakpoint handler that differ in their memories alone,
of a model that needs alignment. -/
inductive DifferInMemory (related : σ → τ → Prop) :
    Machine σ → Machine τ → Prop where
  | intro {machine : Machine σ} {memory : τ}
      (memories : related machine.memory memory)
      (needed : machine.model.needsAlignedData = true)
      (detached : machine.handler = none) :
      DifferInMemory related machine (machine.withMemory memory)

theorem DifferInMemory.memories {related : σ → τ → Prop} {left : Machine σ}
    {right : Machine τ} (differ : DifferInMemory related left right) :
    related left.memory right.memory := by
  obtain ⟨memories, -, -⟩ := differ
  exact memories

theorem DifferInMemory.other {related : σ → τ → Prop} {left : Machine σ}
    {right : Machine τ} (differ : DifferInMemory related left right) :
    right = left.withMemory right.memory := by
  obtain ⟨-, -, -⟩ := differ
  rfl

variable [Memory σ] [Memory τ] {related : σ → τ → Prop}

theorem DifferInMemory.onBus (alike : EvenlyAlike related)
    {left : Machine σ} {right : Machine τ}
    (differ : DifferInMemory related left right) (space : FunctionCode)
    (access : Access) (aligned : access.Aligned left) :
    Agree (DifferInMemory related) (Execution.onBus (access.ask space) left)
      (Execution.onBus (access.ask space) right) := by
  obtain ⟨memories, needed, detached⟩ := differ
  have evenData := aligned.evenData needed
  have evenFetch := aligned.evenFetch
  exact .onBus (alike.answer memories space access evenData evenFetch)
    (.intro (alike.leaves memories space access evenData evenFetch) needed
      detached)

theorem differInMemory_coupling (alike : EvenlyAlike related) :
    MachineCoupling (DifferInMemory related) where
  general := by rintro left _ ⟨-, -, -⟩ register; rfl
  counter := by rintro left _ ⟨-, -, -⟩; rfl
  status := by rintro left _ ⟨-, -, -⟩; rfl
  alignment := by rintro left _ ⟨-, -, -⟩; rfl
  extensions := by rintro left _ ⟨-, -, -⟩; rfl
  branches := by rintro left _ ⟨-, -, -⟩; rfl
  finalPointer := by rintro left _ ⟨-, -, -⟩; rfl
  control := by rintro left _ ⟨-, -, -⟩ register; rfl
  condition := by rintro left _ ⟨-, -, -⟩; rfl
  writeGeneral := by
    rintro left _ ⟨memories, needed, detached⟩ register value
    exact .intro memories needed detached
  writeCounter := by
    rintro left _ ⟨memories, needed, detached⟩ address
    exact .intro memories needed detached
  writeCodes := by
    rintro left _ ⟨memories, needed, detached⟩ codes _
    exact .intro memories needed detached
  access := fun differ space access aligned _ =>
    differ.onBus alike space access aligned
  writeControl := by
    rintro left _ ⟨memories, needed, detached⟩ register value
    exact .intro memories needed detached
  saveStackPointer := by
    rintro left _ ⟨memories, needed, detached⟩
    exact .intro memories needed detached
  loadStackPointer := by
    rintro left _ ⟨memories, needed, detached⟩
    exact .intro memories needed detached
  writeStatus := by
    rintro left _ ⟨memories, needed, detached⟩ word
    exact .intro memories needed detached
  resetDevices := by
    rintro left _ ⟨memories, needed, detached⟩
    exact .intro (alike.resetDevices memories) needed detached
  accessAny := fun differ => differ.onBus alike
  writeOpcode := by
    rintro left _ ⟨memories, needed, detached⟩ opcode
    exact .intro memories needed detached
  writeCondition := by
    rintro left _ ⟨memories, needed, detached⟩ condition
    exact .intro memories needed detached
  raiseMask := by
    rintro left _ ⟨memories, needed, detached⟩ level
    exact .intro memories needed detached
  clear := by
    rintro left _ ⟨memories, needed, detached⟩
    exact .intro memories needed detached

theorem DifferInMemory.executesAlike (alike : EvenlyAlike related)
    {left : Machine σ} {right : Machine τ}
    (differ : DifferInMemory related left right) :
    ExecutesAlike (DifferInMemory related) left right := by
  have coupling := differInMemory_coupling alike
  obtain ⟨memories, needed, detached⟩ := differ
  exact coupling.executesAlike (.intro memories needed detached) detached
    detached rfl fun _ _ _ _ _ _ => rfl

/-- A watched machine is interrupted and reset as without the watch, too. -/
theorem runsAlong_machineCoupling :
    MachineCoupling (RunsAlong : Machine (WatchedMemory σ) → _) where
  toSupervisorCoupling := runsAlong_coupling.toSupervisorCoupling
  writeCondition := runsAlong_coupling.writeCondition
  condition := by rintro left _ rfl; rfl
  writeOpcode := by rintro left _ rfl opcode; rfl
  raiseMask := by rintro left _ rfl level; rfl
  clear := by rintro left _ rfl; rfl

theorem RunsAlong.executesAlike {left : Machine (WatchedMemory σ)}
    {right : Machine σ} (along : left.RunsAlong right) :
    ExecutesAlike RunsAlong left right := by
  subst along
  exact matched_executeOpcode (left.withPc (left.registers.pc + 2))

end Machine

namespace Emulator

variable {σ τ : Type}

/-- The emulator wired to another memory. -/
def withMemory (emulator : Emulator σ) (memory : τ) : Emulator τ where
  machine := emulator.machine.withMemory memory
  limit := emulator.limit
  retired := emulator.retired

/-- The emulator with its memory watched no longer. -/
def unwatched (emulator : Emulator (WatchedMemory σ)) : Emulator σ :=
  emulator.withMemory emulator.machine.memory.memory

theorem Related.eq_withMemory {related : σ → τ → Prop} {left : Emulator σ}
    {right : Emulator τ}
    (differ : left.Related (Machine.DifferInMemory related) right) :
    right = left.withMemory right.machine.memory :=
  differ.eq_of_machine differ.machine.other rfl rfl

variable [Memory σ] [Memory τ]

/-- Watching a memory changes nothing. -/
theorem unwatched_after (emulator : Emulator (WatchedMemory σ))
    (calls : List HostCall) :
    emulator.answers calls = emulator.unwatched.answers calls ∧
      emulator.unwatched.after calls = (emulator.after calls).unwatched := by
  have coupling := Machine.runsAlong_machineCoupling (σ := σ)
  have start : emulator.Related Machine.RunsAlong emulator.unwatched :=
    ⟨rfl, rfl, rfl⟩
  obtain ⟨answers, after, -⟩ := coupling.calls start calls
    fun machine _ other along => along.executesAlike
  exact ⟨answers, after.eq_of_machine after.machine rfl rfl⟩

/-- Runs over two memories that differ at odd addresses only. -/
structure SameRunOver (related : σ → τ → Prop) (left : Emulator σ)
    (right : Emulator τ) (calls : List HostCall) : Prop where
  answers : left.answers calls = right.answers calls
  state : right.after calls =
    (left.after calls).withMemory (right.after calls).machine.memory
  memories : related (left.after calls).machine.memory
    (right.after calls).machine.memory
  executed : List.Forall₂
    (fun machine other => other = machine.withMemory other.memory)
    (left.executed calls) (right.executed calls)

theorem sameRunOver {related : σ → τ → Prop} (alike : EvenlyAlike related)
    {model : Model} (needed : model.needsAlignedData = true)
    (limit : Option UInt64) {memory : σ} {other : τ}
    (memories : related memory other) (calls : List HostCall) :
    SameRunOver related (new model memory limit) (new model other limit)
      calls := by
  have coupling := Machine.differInMemory_coupling alike
  have start : (new model memory limit).Related
      (Machine.DifferInMemory related) (new model other limit) :=
    ⟨.intro memories needed rfl, rfl, rfl⟩
  obtain ⟨answers, after, executed⟩ := coupling.calls start calls
    fun machine _ other differ => differ.executesAlike alike
  constructor
  · exact answers
  · exact after.eq_withMemory
  · exact after.machine.memories
  · exact executed.imp fun _ _ differ => differ.other

/-- A new emulator never asks for words or longs at odd addresses on the models
that need alignment, and never for instruction words there on any model.  So
there two memories may differ without a trace in any run. -/
theorem accesses_aligned (model : Model) (limit : Option UInt64)
    (memory : σ) (calls : List HostCall) :
    let watched := new model (⟨memory, []⟩ : WatchedMemory σ) limit
    let requests := (watched.after calls).machine.memory.requests
    (watched.answers calls = (new model memory limit).answers calls ∧
        (watched.after calls).unwatched =
          (new model memory limit).after calls) ∧
      (model = .mc68000 ∨ model = .mc68010 → ∀ space access,
        .access space access ∈ requests → access.EvenData) ∧
      (∀ space access,
        .access space access ∈ requests → access.EvenFetch) ∧
      ∀ related : σ → τ → Prop, EvenlyAlike related →
        model = .mc68000 ∨ model = .mc68010 →
          ∀ other, related memory other →
            SameRunOver related (new model memory limit)
              (new model other limit) calls := by
  intro watched requests
  have needed (early : model = .mc68000 ∨ model = .mc68010) :
      model.needsAlignedData = true := by
    rcases early with rfl | rfl <;> rfl
  have asked : (watched.after calls).machine.AskedEvenly model := by
    refine (Machine.askedEvenly_invariant model).after ?_ calls
    exact ⟨fun _ _ _ => nofun, fun _ _ => nofun, rfl⟩
  obtain ⟨answers, unwatched⟩ := watched.unwatched_after calls
  refine ⟨⟨answers, unwatched.symm⟩, ?_, asked.fetches, ?_⟩
  · exact fun early => asked.data (needed early)
  · intro related alike early other memories
    exact sameRunOver alike (needed early) limit memories calls

end Emulator

/-! ## A memory that refuses odd addresses -/

/-- A memory that refuses words and longs at odd addresses. -/
structure GuardedMemory (σ : Type) where
  memory : σ

namespace GuardedMemory

variable {σ : Type} [Memory σ]

/-- Makes an access if it is not for a word or long at an odd address. -/
def guard (space : FunctionCode) (access : Access) :
    Bus (GuardedMemory σ) access.Answer := fun guarded =>
  if access.EvenData ∧ access.EvenFetch then
    match access.ask space guarded.memory with
    | .ok answer memory => .ok answer ⟨memory⟩
    | .error refusal memory => .error refusal ⟨memory⟩
  else .error () guarded

instance : Memory (GuardedMemory σ) where
  readByte address space := guard space (.readByte address)
  writeByte address value space := guard space (.writeByte address value)
  readRun address length space := guard space (.readRun address length)
  writeRun address bytes space := guard space (.writeRun address bytes)
  readWord address space := guard space (.readWord address)
  readLong address space := guard space (.readLong address)
  writeWord address value space := guard space (.writeWord address value)
  writeLong address value space := guard space (.writeLong address value)
  fetchWord address space := guard space (.fetchWord address)
  resetDevices guarded := ⟨Memory.resetDevices guarded.memory⟩

theorem ask_eq_guard (space : FunctionCode) (access : Access) :
    (access.ask space : Bus (GuardedMemory σ) access.Answer) =
      guard space access := by
  cases access <;> rfl

/-- At even addresses the guard does nothing. -/
theorem evenlyAlike :
    EvenlyAlike fun (memory : σ) (guarded : GuardedMemory σ) =>
      guarded = ⟨memory⟩ where
  answer := by
    intro memory _ same space access evenData evenFetch
    subst same
    rw [ask_eq_guard]
    simp only [Bus.answer?, guard, if_pos (And.intro evenData evenFetch)]
    cases access.ask space memory <;> rfl
  leaves := by
    intro memory _ same space access evenData evenFetch
    subst same
    rw [ask_eq_guard]
    simp only [Bus.leaves, guard, if_pos (And.intro evenData evenFetch)]
    cases access.ask space memory <;> rfl
  resetDevices := by
    intro memory _ same
    subst same
    rfl

/-- A program that loads a word from an odd address. -/
def oddLoad : FlatMemory :=
  ⟨#[0, 0, 0, 32, 0, 0, 0, 8, 0x30, 0x38, 0, 1, 0, 0, 0, 16,
    0x4E, 0x71, 0, 0, 0, 0, 0, 0, 0, 0, 0, 0, 0, 0, 0, 0]⟩

/-- The load ends in the handler of address errors, whether or not the memory
would have refused it. -/
theorem oddLoad_alike :
    Bus.answer? (Memory.readWord 1 .supervisorData) oddLoad = some 0 ∧
      Bus.answer? (Memory.readWord 1 .supervisorData)
        (⟨oddLoad⟩ : GuardedMemory FlatMemory) = none ∧
      ((Emulator.new .mc68000 oddLoad).after
        [.reset, .step]).machine.registers.pc = 16 ∧
      Emulator.SameRunOver
        (fun memory (guarded : GuardedMemory FlatMemory) => guarded = ⟨memory⟩)
        (.new .mc68000 oddLoad) (.new .mc68000 ⟨oddLoad⟩) [.reset, .step] := by
  refine ⟨by decide +kernel, by decide +kernel, by decide +kernel, ?_⟩
  have aligned := @Emulator.accesses_aligned FlatMemory
    (GuardedMemory FlatMemory) _ _ .mc68000 none oddLoad [.reset, .step]
  obtain ⟨-, -, -, alike⟩ := aligned
  exact alike _ evenlyAlike (.inl rfl) ⟨oddLoad⟩ rfl

end GuardedMemory

end M68k

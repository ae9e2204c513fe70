import M68k.Execution
import M68k.Proofs.OperandPhases

/-!
# The phases of the instructions

Every instruction has a list of bus phases, and executing it serves them.
-/

namespace M68k

namespace BusSetting

variable (setting : BusSetting)

/-- The words of the displacement of a branch. -/
def branching (displacement : UInt8) : List BusPhase :=
  if displacement = 0 then [.word]
  else if displacement = 0xFF && setting.model.hasLongBranches then
    [.word, .word]
  else []

def sourcePhases (source : Source) (size : OperandSize) : List BusPhase :=
  match source with
  | .extensionWord => [.word]
  | .operand mode => setting.fetching mode size
  | .none | .constant _ | .dataRegister _ => []

def destinationPhases (destination : Destination) (size : OperandSize) :
    List BusPhase :=
  match destination with
  | .operand mode => setting.fetching mode size
  | .store mode => setting.locating mode size
  | .none | .dataRegister _ | .addressRegister _ => []

/-- The space in which a destination takes its result, if it is in memory. -/
def resultSpace? (destination : Destination) : Option FunctionCode :=
  match destination with
  | .operand mode | .store mode => mode.space? setting.supervisor
  | .none | .dataRegister _ | .addressRegister _ => none

end BusSetting

open BusSetting in
/-- What an instruction asks the memory for.  Its stack is in data space.  A
list of registers is loaded from data space, also relative to the program
counter. -/
def Instruction.phases (setting : BusSetting) :
    Instruction → List BusPhase
  | data instruction =>
      setting.sourcePhases instruction.source instruction.size ++
        (setting.destinationPhases instruction.destination instruction.size ++
          setting.storing (setting.resultSpace? instruction.destination))
  | moveToCcr source | moveToSr source => setting.fetching source .word
  | lea address _ => setting.locating address .long
  | pea address => setting.locating address .long ++ [stacking .long]
  | movemStore _ (.predecrement _) =>
      [.word, .writes (.data setting.supervisor)]
  | movemStore size mode =>
      .word :: (setting.locating mode size ++
        [.writes (.data setting.supervisor)])
  | movemLoad _ (.postincrement _) =>
      [.word, .reads (.data setting.supervisor)]
  | movemLoad size mode =>
      .word :: (setting.locating mode size ++
        [.reads (.data setting.supervisor)])
  | movepStore _ _ _ | movepLoad _ _ _ =>
      [.word, .run (.data setting.supervisor)]
  | moves size mode => .word :: (setting.locating mode size ++ [.alternate])
  | mull mode | divl mode => .word :: setting.fetching mode .long
  | link _ => [.word, stacking .long]
  | linkLong _ => [.word, .word, stacking .long]
  | unlk _ => [unstacking .long]
  | bcc _ displacement => setting.branching displacement ++ [.jump]
  | bsr displacement =>
      setting.branching displacement ++ [stacking .long, .jump]
  | dbcc _ _ => [.word, .jump]
  | jmp target => setting.locating target .long ++ [.jump]
  | jsr target => setting.locating target .long ++ [stacking .long, .jump]
  | rts => [unstacking .long, .jump]
  | rtr => [unstacking .word, unstacking .long, .jump]
  | rtd => [.word, unstacking .long, .jump]
  | rte => [unstacking .word, unstacking .word, unstacking .long, .jump]
  | trapcc _ operandWords => List.replicate operandWords .word
  | logicToCcr _ | logicToSr _ | movecStore | movecLoad | stop => [.word]
  | bkpt _ => [.jump]
  | reset => [.devices]
  | moveToUsp _ | moveFromUsp _ | exg _ _ | trap _ | trapv | nop | illegal
  | lineA | lineF => []
where
  /-- A write to the stack. -/
  stacking (size : OperandSize) : BusPhase :=
    .write (.data setting.supervisor) size
  /-- A read from the stack. -/
  unstacking (size : OperandSize) : BusPhase :=
    .read (.data setting.supervisor) size

namespace BusSetting

variable {σ : Type} (setting : BusSetting)

/-! ## Data instructions -/

theorem storing_nil (space? : Option FunctionCode) (pc : UInt32) :
    BusPhase.Follows setting.supervisor (setting.storing space?) pc [] pc := by
  rw [storing]
  split
  · exact (BusPhase.Serves.writes _ pc [] (by simp)).follows
  · exact .nil pc

/-- A result need not be written. -/
theorem unstored {α : Type} {execution : Execution (WatchedMemory σ) α}
    (space? : Option FunctionCode)
    (performs : Performs setting [] (fun _ => True) execution) :
    Performs setting (setting.storing space?) (fun _ => True) execution := by
  apply performs.weaken
  intro pc requests after follows
  cases follows with
  | nil pc => exact setting.storing_nil space? pc

/-- An instruction may end with any fault before its result is written. -/
theorem closes_throw {α : Type} (space? : Option FunctionCode)
    (fault : Fault) :
    Closes setting (setting.storing space?)
      (throw fault : Execution (WatchedMemory σ) α) := by
  intro start within
  refine ⟨.refl rfl, ?_⟩
  intro trap
  exact ⟨[], rfl, setting.storing_nil space? _⟩

theorem setFlags (change : StatusRegister → ConditionCodes) :
    Performs setting [] (fun _ => True)
      (Execution.status >>= fun status =>
        Execution.setConditionCodes (change status) :
          Execution (WatchedMemory σ) Unit) := by
  have observed : Performs setting [] (fun _ => True)
      (Execution.status : Execution (WatchedMemory σ) StatusRegister) :=
    .observe fun _ _ => trivial
  apply observed.bind
  intro status _
  exact setting.setConditionCodes _

/-- A result of two longs and its flags. -/
theorem storePair (first second : Register) (value other : UInt32)
    (change : StatusRegister → ConditionCodes) :
    Performs setting [] (fun _ => True)
      (Execution.setRegister first value >>= fun _ =>
        Execution.setRegister second other >>= fun _ =>
          Execution.status >>= fun status =>
            Execution.setConditionCodes (change status) :
        Execution (WatchedMemory σ) Unit) := by
  apply (setting.setRegister first value).bind
  intro _ _
  apply (setting.setRegister second other).bind
  intro _ _
  exact setting.setFlags change

theorem test (condition : Condition) :
    Performs setting [] (fun _ => True)
      (Execution.test condition : Execution (WatchedMemory σ) Bool) :=
  .observe fun _ _ => trivial

theorem control (register : ControlRegister) :
    Performs setting [] (fun _ => True)
      (Execution.control register : Execution (WatchedMemory σ) UInt32) :=
  .observe fun _ _ => trivial

theorem setControl (register : ControlRegister) (value : UInt32) :
    Performs setting [] (fun _ => True)
      (Execution.setControl register value :
        Execution (WatchedMemory σ) Unit) := by
  apply Performs.update
  · intro start within
    exact ⟨within.supervisor, within.model⟩
  · intro start
    rfl
  · intro start
    cases register <;> rfl

theorem saveStackPointer :
    Performs setting [] (fun _ => True)
      (Execution.update (·.saveStackPointer) :
        Execution (WatchedMemory σ) Unit) := by
  apply Performs.update
  · intro start within
    exact ⟨within.supervisor, within.model⟩
  · intro start
    rfl
  · intro start
    exact Registers.pc_setBanked _ _ _

theorem loadStackPointer :
    Performs setting [] (fun _ => True)
      (Execution.update (·.loadStackPointer) :
        Execution (WatchedMemory σ) Unit) := by
  apply Performs.update
  · intro start within
    exact ⟨within.supervisor, within.model⟩
  · intro start
    rfl
  · intro start
    exact Registers.pc_setStackPointer _ _

theorem setStatusWord (word : UInt16) :
    Closes setting []
      (Execution.setStatusWord word : Execution (WatchedMemory σ) Unit) := by
  apply Closes.update
  · intro start
    rfl
  · intro start
    exact start.pc_setStatusWord word

theorem exg (first second : Register) :
    Performs setting [] (fun _ => True)
      (Execution.exg first second : Execution (WatchedMemory σ) Unit) := by
  apply (setting.register first).bind
  intro firstValue _
  apply (setting.register second).bind
  intro secondValue _
  apply (setting.setRegister _ _).bind
  intro _ _
  exact setting.setRegister _ _

theorem storedPointer (size : OperandSize) (initial : UInt32) (count : Nat) :
    Performs setting [] (fun _ => True)
      (Execution.storedPointer size initial count :
        Execution (WatchedMemory σ) UInt32) := by
  apply (setting.supports Model.storesFinalPointer).bind
  intro final _
  apply Performs.ite
  · intro _
    exact .pure trivial
  · intro _
    exact .pure trivial

theorem trapIf (condition : Condition) :
    Closes setting []
      (Execution.trapIf condition : Execution (WatchedMemory σ) Unit) := by
  apply (setting.test condition).bind_closes
  intro holds _
  apply Closes.ite
  · intro trapped
    exact .throw
  · intro passed
    exact .pure

theorem bkpt (vector : Fin 8) :
    Closes setting [.jump]
      (Execution.bkpt vector : Execution (WatchedMemory σ) Unit) := by
  intro start within
  have quiet := Machine.memory_askHandler
    { start.withPc (start.registers.pc - 2) with
      opcode := Execution.illegalOpcode } vector
  simp only [Execution.bkpt, Execution.pc, Execution.setPc,
    Execution.setOpcode, Execution.observe, Execution.update,
    Execution.askHandler, Execution.bind_apply]
  generalize Machine.askHandler
    { start.withPc (start.registers.pc - 2) with
      opcode := Execution.illegalOpcode } vector = result at quiet ⊢
  obtain ⟨reply, left⟩ := result
  have asked : left.memory.requests = start.memory.requests :=
    congrArg (·.requests) quiet
  have follows (target : UInt32) : BusPhase.Follows setting.supervisor [.jump]
      start.registers.pc [] target := (BusPhase.Serves.jump _ target).follows
  cases reply with
  | none => exact ⟨.refl asked, fun _ => ⟨[], asked, follows _⟩⟩
  | some opcode => exact ⟨.refl asked, fun _ => ⟨[], asked, follows _⟩⟩

/-- A jump that is not taken. -/
theorem stay : Performs setting [.jump] (fun _ => True)
    (pure () : Execution (WatchedMemory σ) Unit) :=
  setting.idle () fun pc => .jump pc pc

variable [Memory σ]

theorem fetchSource (source : Source) (size : OperandSize) :
    Performs setting (setting.sourcePhases source size) (fun _ => True)
      (source.fetch size : Execution (WatchedMemory σ) UInt32) := by
  cases source with
  | none => exact .pure trivial
  | constant value => exact .pure trivial
  | dataRegister number => exact setting.register _
  | extensionWord =>
      apply setting.fetchWord.bind_quiet
      intro word _
      exact .pure trivial
  | operand mode =>
      apply (setting.fetchOperand mode size).bind_quiet
      intro operand _
      exact .pure trivial

/-- The location of a result is in the space of its mode. -/
theorem fetchDestination (destination : Destination) (size : OperandSize) :
    Performs setting (setting.destinationPhases destination size)
      (fun found =>
        (found.1.bind fun location => location.space? setting.supervisor) =
          setting.resultSpace? destination)
      (destination.fetch size :
        Execution (WatchedMemory σ) (Option Location × UInt32)) := by
  cases destination with
  | none => exact .pure rfl
  | operand mode =>
      apply (setting.fetchOperand mode size).bind_quiet
      intro operand found
      exact .pure found
  | store mode =>
      apply (setting.resolve mode size).bind_quiet
      intro location found
      exact .pure found
  | dataRegister number | addressRegister number =>
      apply (setting.register _).bind
      intro value _
      exact .pure rfl

theorem finish (instruction : DataInstruction) (location : Option Location)
    (operands : Operands) (value : UInt32) (size : OperandSize) :
    Performs setting
      (setting.storing
        (location.bind fun location => location.space? setting.supervisor))
      (fun _ => True)
      (instruction.finish location operands value size :
        Execution (WatchedMemory σ) Unit) := by
  have codes : Performs setting [] (fun _ => True)
      (Execution.status >>= fun status => Execution.setConditionCodes
        (instruction.flagRule.apply size operands.source operands.destination
          value status.codes) : Execution (WatchedMemory σ) Unit) :=
    setting.setFlags _
  unfold DataInstruction.finish
  apply Performs.ite
  · intro writes
    cases location with
    | none => exact setting.unstored none codes
    | some location =>
        apply (setting.writeLocation location size value).bind_quiet
        intro _ _
        exact codes
  · intro reads
    exact setting.unstored _ codes

theorem data (instruction : DataInstruction) :
    Closes setting ((Instruction.data instruction).phases setting)
      (instruction.execute : Execution (WatchedMemory σ) Unit) := by
  apply (setting.fetchSource _ _).bind_closes
  intro source _
  apply (setting.fetchDestination _ _).bind_closes
  rintro ⟨location, destination⟩ found
  apply Closes.bind_observe
  intro status
  rw [← found]
  split
  · apply (setting.setConditionCodes _).bind_closes
    intro _ _
    exact setting.closes_throw _ _
  · exact (setting.unstored _ (.pure trivial)).closes
  · apply (setting.setConditionCodes _).bind_closes
    intro _ _
    exact (setting.finish instruction location _ _ _).closes

/-! ## Flow of control -/

theorem branchTarget (displacement : UInt8) :
    Performs setting (setting.branching displacement) (fun _ => True)
      (Execution.branchTarget displacement :
        Execution (WatchedMemory σ) UInt32) := by
  by_cases worded : displacement = 0
  · rw [branching, if_pos worded]
    apply setting.pc.bind
    intro base _
    rw [if_pos worded]
    apply setting.fetchDisplacement.bind_quiet
    intro offset _
    exact .pure trivial
  · rw [branching, if_neg worded]
    have far (base : UInt32) :
        Performs setting
          (if displacement = 0xFF && setting.model.hasLongBranches then
            [.word, .word] else [])
          (fun _ => True)
          (if displacement = 0xFF && setting.model.hasLongBranches then
            Execution.fetchLong >>= fun offset => pure (base + offset)
          else pure (base + signExtendByte displacement) :
            Execution (WatchedMemory σ) UInt32) := by
      split
      · apply setting.fetchLong.bind_quiet
        intro offset _
        exact .pure trivial
      · exact .pure trivial
    apply Performs.bind setting.pc
    intro base _
    rw [if_neg worded]
    apply (setting.supports Model.hasLongBranches).bind
    rintro _ rfl
    exact far base

theorem bcc (condition : Condition) (displacement : UInt8) :
    Performs setting ((Instruction.bcc condition displacement).phases setting)
      (fun _ => True)
      (Execution.bcc condition displacement :
        Execution (WatchedMemory σ) Unit) := by
  apply (setting.branchTarget displacement).bind
  intro target _
  apply (setting.test condition).bind
  intro holds _
  apply Performs.ite
  · intro taken
    exact setting.setPc target
  · intro passed
    exact setting.stay

theorem callSubroutine (target : UInt32) :
    Performs setting [.write (.data setting.supervisor) .long, .jump]
      (fun _ => True)
      (Execution.callSubroutine target :
        Execution (WatchedMemory σ) Unit) := by
  apply setting.pc.bind
  intro address _
  apply (setting.push .long address).bind
  intro _ _
  exact setting.setPc target

theorem dbcc (condition : Condition) (counter : Fin 8) :
    Performs setting [.word, .jump] (fun _ => True)
      (Execution.dbcc condition counter :
        Execution (WatchedMemory σ) Unit) := by
  apply setting.pc.bind
  intro base _
  apply setting.fetchDisplacement.bind
  intro displacement _
  apply (setting.test condition).bind
  intro holds _
  apply Performs.ite
  · intro passed
    exact setting.stay
  · intro counted
    apply (setting.register _).bind
    intro value _
    apply (setting.setRegister _ _).bind
    intro _ _
    apply Performs.ite
    · intro taken
      exact setting.setPc _
    · intro exhausted
      exact setting.stay

theorem returnTo :
    Performs setting [.read (.data setting.supervisor) .long, .jump]
      (fun _ => True)
      (Execution.pop .long >>= Execution.setPc :
        Execution (WatchedMemory σ) Unit) := by
  apply (setting.pop .long).bind
  intro target _
  exact setting.setPc target

theorem rtr :
    Performs setting
      [.read (.data setting.supervisor) .word,
        .read (.data setting.supervisor) .long, .jump]
      (fun _ => True)
      (Execution.rtr : Execution (WatchedMemory σ) Unit) := by
  apply (setting.pop .word).bind
  intro codes _
  apply (setting.setConditionCodes _).bind
  intro _ _
  exact setting.returnTo

theorem rtd :
    Performs setting
      [.word, .read (.data setting.supervisor) .long, .jump] (fun _ => True)
      (Execution.rtd : Execution (WatchedMemory σ) Unit) := by
  apply setting.fetchDisplacement.bind
  intro displacement _
  apply (setting.pop .long).bind
  intro address _
  apply (setting.setPc address).bind_quiet
  intro _ _
  apply (setting.register _).bind
  intro pointer _
  exact setting.setRegister _ _

/-- A return from an exception leaves the mode only after its last access. -/
theorem rte :
    Closes setting
      [.read (.data setting.supervisor) .word,
        .read (.data setting.supervisor) .word,
        .read (.data setting.supervisor) .long, .jump]
      (Execution.rte : Execution (WatchedMemory σ) Unit) := by
  apply (setting.register _).bind_closes
  intro pointer _
  apply (setting.readData _ .word).bind_closes
  intro format _
  cases Execution.frameSize? (format.toUInt16 >>> 12) with
  | none =>
      have refused : Performs setting
          [.read (.data setting.supervisor) .word,
            .read (.data setting.supervisor) .long, .jump]
          (fun _ => True)
          (throw .formatError : Execution (WatchedMemory σ) Unit) :=
        .throw rfl
      exact refused.closes
  | some size =>
      apply (setting.readData _ .word).bind_closes
      intro status _
      apply (setting.readData _ .long).bind_closes
      intro returnAddress _
      apply (setting.setRegister _ _).bind_closes
      intro _ _
      apply (setting.setPc returnAddress).bind_quiet_closes
      intro _ _
      exact setting.setStatusWord _

theorem linkBy (number : Fin 8) (displacement : UInt32) :
    Performs setting [.write (.data setting.supervisor) .long] (fun _ => True)
      (Execution.linkBy number displacement :
        Execution (WatchedMemory σ) Unit) := by
  apply (setting.register _).bind
  intro saved _
  apply (setting.push .long saved).bind_quiet
  intro _ _
  apply (setting.register _).bind
  intro pointer _
  apply (setting.setRegister _ _).bind
  intro _ _
  apply (setting.register _).bind
  intro top _
  exact setting.setRegister _ _

theorem unlk (number : Fin 8) :
    Performs setting [.read (.data setting.supervisor) .long] (fun _ => True)
      (Execution.unlk number : Execution (WatchedMemory σ) Unit) := by
  apply (setting.register _).bind
  intro frame _
  apply (setting.setRegister _ _).bind
  intro _ _
  apply (setting.pop .long).bind_quiet
  intro saved _
  exact setting.setRegister _ _

/-! ## Transfers -/

theorem lea (address : AddressingMode) (destination : Fin 8) :
    Performs setting (setting.locating address .long) (fun _ => True)
      (Execution.lea address destination :
        Execution (WatchedMemory σ) Unit) := by
  apply (setting.resolveAddress address .long).bind_quiet
  intro found _
  exact setting.setRegister _ _

theorem storeAscending (size : OperandSize) (address : UInt32)
    (registers : List Register) :
    Performs setting [.writes (.data setting.supervisor)] (fun _ => True)
      (Execution.storeAscending size address registers :
        Execution (WatchedMemory σ) Unit) := by
  induction registers generalizing address with
  | nil => exact setting.idle () fun pc => .writes _ pc [] (by simp)
  | cons first rest induction =>
      have performs : Performs setting
          [.write (.data setting.supervisor) size,
            .writes (.data setting.supervisor)] (fun _ => True)
          (Execution.storeAscending size address (first :: rest) :
            Execution (WatchedMemory σ) Unit) := by
        apply (setting.register first).bind
        intro value _
        apply (setting.writeData address value size).bind
        intro _ _
        exact induction _
      exact performs.weaken fun _ _ _ => .merge_writes

theorem storeDescending (size : OperandSize) (special : Register)
    (value address : UInt32) (registers : List Register) :
    Performs setting [.writes (.data setting.supervisor)] (fun _ => True)
      (Execution.storeDescending size special value address registers :
        Execution (WatchedMemory σ) UInt32) := by
  induction registers generalizing address with
  | nil => exact setting.idle address fun pc => .writes _ pc [] (by simp)
  | cons first rest induction =>
      have stored (kept : UInt32) : Performs setting
          [.write (.data setting.supervisor) size,
            .writes (.data setting.supervisor)] (fun _ => True)
          (Execution.writeData (address - UInt32.ofNat size.bytes) size kept
            >>= fun _ => Execution.storeDescending size special value
              (address - UInt32.ofNat size.bytes) rest :
            Execution (WatchedMemory σ) UInt32) := by
        apply (setting.writeData _ kept size).bind
        intro _ _
        exact induction _
      have performs : Performs setting
          [.write (.data setting.supervisor) size,
            .writes (.data setting.supervisor)] (fun _ => True)
          (Execution.storeDescending size special value address
            (first :: rest) : Execution (WatchedMemory σ) UInt32) := by
        apply Performs.ite
        · intro named
          exact stored value
        · intro other
          apply (setting.register first).bind
          intro kept _
          exact stored kept
      exact performs.weaken fun _ _ _ => .merge_writes

theorem loadAscending (size : OperandSize) (address : UInt32)
    (registers : List Register) :
    Performs setting [.reads (.data setting.supervisor)] (fun _ => True)
      (Execution.loadAscending size address registers :
        Execution (WatchedMemory σ) UInt32) := by
  induction registers generalizing address with
  | nil => exact setting.idle address fun pc => .reads _ pc [] (by simp)
  | cons first rest induction =>
      have performs : Performs setting
          [.read (.data setting.supervisor) size,
            .reads (.data setting.supervisor)] (fun _ => True)
          (Execution.loadAscending size address (first :: rest) :
            Execution (WatchedMemory σ) UInt32) := by
        apply (setting.readData address size).bind
        intro value _
        apply (setting.setRegister first _).bind
        intro _ _
        exact induction _
      exact performs.weaken fun _ _ _ => .merge_reads

theorem movemStore (size : OperandSize) (mode : AddressingMode) :
    Performs setting ((Instruction.movemStore size mode).phases setting)
      (fun _ => True)
      (Execution.movemStore size mode :
        Execution (WatchedMemory σ) Unit) := by
  have listed : Performs setting
      (.word :: (setting.locating mode size ++
        [.writes (.data setting.supervisor)]))
      (fun _ => True)
      (Execution.fetchWord >>= fun mask =>
        mode.resolveAddress size >>= fun address =>
          Execution.storeAscending size address
            (Execution.listAscending mask) :
        Execution (WatchedMemory σ) Unit) := by
    apply setting.fetchWord.bind
    intro mask _
    apply (setting.resolveAddress mode size).bind
    intro address _
    exact setting.storeAscending size address _
  cases mode with
  | predecrement number =>
      apply setting.fetchWord.bind
      intro mask _
      apply (setting.register _).bind
      intro initial _
      apply (setting.storedPointer _ _ _).bind
      intro stored _
      apply (setting.storeDescending _ _ _ _ _).bind_quiet
      intro final _
      exact setting.setRegister _ _
  | _ => exact listed

theorem movemLoad (size : OperandSize) (mode : AddressingMode) :
    Performs setting ((Instruction.movemLoad size mode).phases setting)
      (fun _ => True)
      (Execution.movemLoad size mode :
        Execution (WatchedMemory σ) Unit) := by
  have listed : Performs setting
      (.word :: (setting.locating mode size ++
        [.reads (.data setting.supervisor)]))
      (fun _ => True)
      (Execution.fetchWord >>= fun mask =>
        mode.resolveAddress size >>= fun address =>
          Execution.loadAscending size address
            (Execution.listAscending mask) >>= fun _ => pure () :
        Execution (WatchedMemory σ) Unit) := by
    apply setting.fetchWord.bind
    intro mask _
    apply (setting.resolveAddress mode size).bind
    intro address _
    apply (setting.loadAscending size address _).bind_quiet
    intro final _
    exact .pure trivial
  cases mode with
  | postincrement number =>
      apply setting.fetchWord.bind
      intro mask _
      apply (setting.register _).bind
      intro initial _
      apply (setting.loadAscending _ _ _).bind_quiet
      intro final _
      exact setting.setRegister _ _
  | _ => exact listed

theorem displacedAddress (number : Fin 8) :
    Performs setting [.word] (fun _ => True)
      (Execution.displacedAddress number :
        Execution (WatchedMemory σ) UInt32) := by
  apply setting.fetchDisplacement.bind_quiet
  intro displacement _
  apply (setting.register _).bind
  intro base _
  exact .pure trivial

theorem movepStore (size : OperandSize) (data address : Fin 8) :
    Performs setting [.word, .run (.data setting.supervisor)]
      (fun _ => True)
      (Execution.movepStore size data address :
        Execution (WatchedMemory σ) Unit) := by
  apply (setting.displacedAddress address).bind
  intro start _
  apply (setting.register _).bind
  intro value _
  apply setting.dataSpace.bind
  rintro _ rfl
  exact setting.ask _ (.writeRun start _) fun pc => .run _ pc _ trivial

theorem movepLoad (size : OperandSize) (data address : Fin 8) :
    Performs setting [.word, .run (.data setting.supervisor)]
      (fun _ => True)
      (Execution.movepLoad size data address :
        Execution (WatchedMemory σ) Unit) := by
  apply (setting.displacedAddress address).bind
  intro start _
  apply setting.dataSpace.bind
  rintro _ rfl
  have asked : Performs setting [.run (.data setting.supervisor)]
      (fun _ => True)
      (Execution.onBus (Memory.readRun start (2 * size.bytes - 1)
        (.data setting.supervisor)) :
          Execution (WatchedMemory σ) (List UInt8)) :=
    setting.ask _ (.readRun start _) fun pc => .run _ pc _ trivial
  apply asked.bind_quiet
  intro run _
  exact setting.writeLocation (.dataRegister data) size _

/-- MOVES works in whatever space a function code register names. -/
theorem moveAlternate (extension : UInt16) (address : UInt32)
    (size : OperandSize) :
    Performs setting [.alternate] (fun _ => True)
      (if bitAt extension 11 then do
        Execution.writeIn (.ofBits (← Execution.control .dfc)) address size
          (← Execution.register (.ofIndex (extension >>> 12).toNat))
      else do
        let value ← Execution.readIn (.ofBits (← Execution.control .sfc))
          address size
        (Execution.registerLocation
          (.ofIndex (extension >>> 12).toNat)).write size value :
        Execution (WatchedMemory σ) Unit) := by
  apply Performs.ite
  · intro stores
    apply (setting.control .dfc).bind
    intro code _
    apply (setting.register _).bind
    intro value _
    apply setting.writeInPhase
    intro pc
    apply BusPhase.Serves.alternate
    cases size <;> simp [Access.writesOf]
  · intro loads
    apply (setting.control .sfc).bind
    intro code _
    have read : Performs setting [.alternate] (fun _ => True)
        (Execution.readIn (.ofBits code) address size :
          Execution (WatchedMemory σ) UInt32) := by
      apply setting.readInPhase
      intro pc
      apply BusPhase.Serves.alternate
      cases size <;> simp [Access.readsOf]
    apply read.bind_quiet
    intro value _
    cases Register.ofIndex (extension >>> 12).toNat with
    | data number =>
        exact setting.writeLocation (.dataRegister number) size value
    | address number =>
        exact setting.writeLocation (.addressRegister number) size value

theorem moves (size : OperandSize) (mode : AddressingMode) :
    Performs setting ((Instruction.moves size mode).phases setting)
      (fun _ => True)
      (Execution.moves size mode : Execution (WatchedMemory σ) Unit) := by
  apply setting.fetchWord.bind
  intro extension _
  apply (setting.resolveAddress mode size).bind
  intro address _
  exact setting.moveAlternate extension address size

theorem fetchControl :
    Performs setting [.word] (fun _ => True)
      (Execution.fetchControl :
        Execution (WatchedMemory σ) (Register × ControlRegister)) := by
  apply setting.fetchWord.bind_quiet
  intro extension _
  have named : Performs setting [] (fun _ => True)
      (Execution.controlFor? (extension &&& 0xFFF) :
        Execution (WatchedMemory σ) (Option ControlRegister)) :=
    .observe fun _ _ => trivial
  apply named.bind
  intro available _
  cases available with
  | some register => exact .pure trivial
  | none =>
      intro start within
      exact ⟨rfl, .refl rfl⟩

theorem movecStore :
    Performs setting [.word] (fun _ => True)
      (Execution.movecStore : Execution (WatchedMemory σ) Unit) := by
  apply setting.fetchControl.bind_quiet
  rintro ⟨general, register⟩ _
  apply (setting.register general).bind
  intro value _
  apply setting.saveStackPointer.bind
  intro _ _
  apply (setting.setControl register _).bind
  intro _ _
  exact setting.loadStackPointer

theorem movecLoad :
    Performs setting [.word] (fun _ => True)
      (Execution.movecLoad : Execution (WatchedMemory σ) Unit) := by
  apply setting.fetchControl.bind_quiet
  rintro ⟨general, register⟩ _
  apply setting.saveStackPointer.bind
  intro _ _
  apply (setting.control register).bind
  intro value _
  exact setting.setRegister general value

/-! ## Long products and quotients -/

theorem fetchLongOperands (mode : AddressingMode) :
    Performs setting (.word :: setting.fetching mode .long) (fun _ => True)
      (Execution.fetchLongOperands mode :
        Execution (WatchedMemory σ) (LongOperands × UInt32)) := by
  apply setting.fetchWord.bind
  intro extension _
  apply (setting.fetchOperand mode .long).bind_quiet
  intro operand _
  exact .pure trivial

theorem mull (mode : AddressingMode) :
    Performs setting (.word :: setting.fetching mode .long) (fun _ => True)
      (Execution.mull mode : Execution (WatchedMemory σ) Unit) := by
  apply (setting.fetchLongOperands mode).bind_quiet
  rintro ⟨extension, multiplier⟩ _
  apply (setting.register _).bind
  intro multiplicand _
  apply Performs.ite
  · intro quad
    exact setting.storePair _ _ _ _ _
  · intro long
    apply (setting.setRegister _ _).bind
    intro _ _
    exact setting.setFlags _

/-- A division by zero is found when the operands have been fetched. -/
theorem divl (mode : AddressingMode) :
    Closes setting (.word :: setting.fetching mode .long)
      (Execution.divl mode : Execution (WatchedMemory σ) Unit) := by
  apply (setting.fetchLongOperands mode).bind_quiet_closes
  rintro ⟨extension, divisor⟩ _
  apply Closes.ite
  · intro zero start within
    exact Closes.throw start within
  · intro nonzero
    apply (setting.register _).bind_closes
    intro low _
    apply (setting.register _).bind_closes
    intro high _
    cases Execution.divideLongs? extension high low divisor with
    | none => exact .pure
    | some division => exact (setting.storePair _ _ _ _ _).closes

/-! ## System instructions -/

theorem skipWords (count : Nat) :
    Performs setting (List.replicate count .word) (fun _ => True)
      (Execution.skipWords count : Execution (WatchedMemory σ) Unit) := by
  induction count with
  | zero => exact .pure trivial
  | succ count induction =>
      apply setting.fetchWord.bind
      intro word _
      exact induction

theorem stop :
    Closes setting [.word]
      (Execution.stop : Execution (WatchedMemory σ) Unit) := by
  apply setting.fetchWord.bind_quiet_closes
  intro immediate _
  apply Closes.ite
  · intro finished start within
    exact .refl rfl rfl
  · intro stopped start within
    exact .refl rfl (start.pc_setStatusWord immediate)

theorem resetDevices :
    Closes setting [.devices]
      (Execution.resetDevices : Execution (WatchedMemory σ) Unit) := by
  intro start within
  exact ⟨[.reset], rfl, (BusPhase.Serves.devices _).follows⟩

/-- Every instruction serves its phases. -/
theorem execute (instruction : Instruction) :
    Closes setting (instruction.phases setting)
      (instruction.execute : Execution (WatchedMemory σ) Unit) := by
  cases instruction with
  | data instruction => exact setting.data instruction
  | logicToCcr operation =>
      apply setting.fetchWord.bind_quiet_closes
      intro immediate _
      exact (setting.setFlags _).closes
  | logicToSr operation =>
      apply setting.fetchWord.bind_quiet_closes
      intro immediate _
      apply Closes.bind_observe
      intro status
      exact setting.setStatusWord _
  | moveToCcr source =>
      apply (setting.fetchOperand source .word).bind_quiet_closes
      intro operand _
      exact (setting.setConditionCodes _).closes
  | moveToSr source =>
      apply (setting.fetchOperand source .word).bind_quiet_closes
      intro operand _
      exact setting.setStatusWord _
  | moveToUsp source =>
      apply (setting.register _).bind_closes
      intro value _
      exact (setting.setControl .usp value).closes
  | moveFromUsp destination =>
      apply (setting.control .usp).bind_closes
      intro value _
      exact (setting.setRegister _ value).closes
  | lea address destination => exact (setting.lea address destination).closes
  | pea address =>
      apply (setting.resolveAddress address .long).bind_closes
      intro found _
      exact (setting.push .long found).closes
  | exg first second => exact (setting.exg first second).closes
  | movemStore size mode => exact (setting.movemStore size mode).closes
  | movemLoad size mode => exact (setting.movemLoad size mode).closes
  | movepStore size data address =>
      exact (setting.movepStore size data address).closes
  | movepLoad size data address =>
      exact (setting.movepLoad size data address).closes
  | moves size mode => exact (setting.moves size mode).closes
  | movecStore => exact setting.movecStore.closes
  | movecLoad => exact setting.movecLoad.closes
  | mull mode => exact (setting.mull mode).closes
  | divl mode => exact setting.divl mode
  | link number =>
      apply setting.fetchDisplacement.bind_closes
      intro displacement _
      exact (setting.linkBy number displacement).closes
  | linkLong number =>
      apply setting.fetchLong.bind_closes
      intro displacement _
      exact (setting.linkBy number displacement).closes
  | unlk number => exact (setting.unlk number).closes
  | bcc condition displacement =>
      exact (setting.bcc condition displacement).closes
  | bsr displacement =>
      apply (setting.branchTarget displacement).bind_closes
      intro target _
      exact (setting.callSubroutine target).closes
  | dbcc condition counter => exact (setting.dbcc condition counter).closes
  | jmp target =>
      apply (setting.resolveAddress target .long).bind_closes
      intro address _
      exact (setting.setPc address).closes
  | jsr target =>
      apply (setting.resolveAddress target .long).bind_closes
      intro address _
      exact (setting.callSubroutine address).closes
  | rts => exact setting.returnTo.closes
  | rtr => exact setting.rtr.closes
  | rtd => exact setting.rtd.closes
  | rte => exact setting.rte
  | trap number => exact .throw
  | trapv => exact setting.trapIf .overflowSet
  | trapcc condition operandWords =>
      apply (setting.skipWords operandWords).bind_quiet_closes
      intro _ _
      exact setting.trapIf condition
  | bkpt vector => exact setting.bkpt vector
  | stop => exact setting.stop
  | reset => exact setting.resetDevices
  | nop => exact .pure
  | illegal | lineA | lineF => exact .throw

end BusSetting

end M68k

import M68k.Proofs.BusAccounts
import M68k.Proofs.StackBanks

/-!
# The bus phases of accesses and operands

Which phases find an operand, and in which space it is then read or written,
follows from its addressing mode: operands relative to the program counter are
in program space, all other memory operands in data space.
-/

namespace M68k

/-! ## Tables -/

/-- The space of the operand of a mode, if it is in memory. -/
def AddressingMode.space? (mode : AddressingMode) (supervisor : Bool) :
    Option FunctionCode :=
  match mode with
  | .dataRegister _ | .addressRegister _ | .immediate => none
  | .pcDisplacement | .pcIndexed => some (.program supervisor)
  | _ => some (.data supervisor)

def Location.space? (location : Location) (supervisor : Bool) :
    Option FunctionCode :=
  match location with
  | .dataRegister _ | .addressRegister _ | .immediate _ => none
  | .program _ => some (.program supervisor)
  | .memory _ => some (.data supervisor)

namespace BusSetting

variable (setting : BusSetting)

/-- The read of an operand that may be in memory. -/
def reading (space? : Option FunctionCode) (size : OperandSize) :
    List BusPhase :=
  match space? with
  | none => []
  | some space => [.read space size]

/-- The write of a result.  Only data space is written. -/
def storing (space? : Option FunctionCode) : List BusPhase :=
  if space? = some (.data setting.supervisor) then
    [.writes (.data setting.supervisor)]
  else []

/-- The words, and the pointer, by which the operand of a mode is found. -/
def locating (mode : AddressingMode) (size : OperandSize) : List BusPhase :=
  match mode with
  | .displacement _ | .absoluteShort | .pcDisplacement => [.word]
  | .absoluteLong => [.word, .word]
  | .indexed _ | .pcIndexed =>
      if setting.model.hasFullExtensions then [.word, .fullExtension]
      else [.word]
  | .immediate =>
      match size with
      | .byte | .word => [.word]
      | .long | .unsized => [.word, .word]
  | _ => []

/-- The phases in which the operand of a mode is found and read. -/
def fetching (mode : AddressingMode) (size : OperandSize) : List BusPhase :=
  setting.locating mode size ++
    reading (mode.space? setting.supervisor) size

end BusSetting

namespace BusSetting

variable {σ : Type} (setting : BusSetting)

/-! ## Observations and updates -/

theorem register (number : Register) :
    Performs setting [] (fun _ => True)
      (Execution.register number : Execution (WatchedMemory σ) UInt32) :=
  .observe fun _ _ => trivial

theorem pc :
    Performs setting [] (fun _ => True)
      (Execution.pc : Execution (WatchedMemory σ) UInt32) :=
  .observe fun _ _ => trivial

theorem dataSpace :
    Performs setting [] (· = .data setting.supervisor)
      (Execution.dataSpace : Execution (WatchedMemory σ) FunctionCode) := by
  apply Performs.observe
  intro start within
  rw [Machine.dataSpace, within.supervisor]

theorem programSpace :
    Performs setting [] (· = .program setting.supervisor)
      (Execution.programSpace : Execution (WatchedMemory σ) FunctionCode) := by
  apply Performs.observe
  intro start within
  rw [Machine.programSpace, within.supervisor]

theorem supports (property : Model → Bool) :
    Performs setting [] (· = property setting.model)
      (Execution.supports property : Execution (WatchedMemory σ) Bool) := by
  apply Performs.observe
  intro start within
  rw [within.model]

theorem setRegister (register : Register) (value : UInt32) :
    Performs setting [] (fun _ => True)
      (Execution.setRegister register value :
        Execution (WatchedMemory σ) Unit) := by
  apply Performs.update
  · intro start within
    exact ⟨within.supervisor, within.model⟩
  · intro start
    rfl
  · intro start
    exact Registers.pc_set _ _ _

theorem setConditionCodes (codes : ConditionCodes) :
    Performs setting [] (fun _ => True)
      (Execution.setConditionCodes codes :
        Execution (WatchedMemory σ) Unit) := by
  apply Performs.update
  · intro start within
    constructor
    · rw [Machine.isSupervisor, Machine.setConditionCodes,
        StatusRegister.supervisor_withCodes]
      exact within.supervisor
    · exact within.model
  · intro start
    rfl
  · intro start
    rfl

theorem setPc (target : UInt32) :
    Performs setting [.jump] (fun _ => True)
      (Execution.setPc target : Execution (WatchedMemory σ) Unit) := by
  intro start within
  refine ⟨trivial, ⟨within.supervisor, within.model⟩, [], rfl, ?_⟩
  exact (BusPhase.Serves.jump _ _).follows

/-! ## Accesses -/

theorem checkAlignment (address : UInt32) (size : OperandSize) :
    Performs setting [] (fun _ => True)
      (Execution.checkAlignment address size :
        Execution (WatchedMemory σ) Unit) := by
  intro start within
  rw [Execution.checkAlignment_apply]
  split
  · exact ⟨rfl, .refl rfl⟩
  · exact ⟨trivial, within, .refl rfl rfl⟩

/-- A phase that may ask for nothing. -/
theorem idle {α : Type} {phase : BusPhase} (value : α)
    (serves : ∀ pc, phase.Serves setting.supervisor pc [] pc) :
    Performs setting [phase] (fun _ => True)
      (pure value : Execution (WatchedMemory σ) α) :=
  fun _ within => ⟨trivial, within, [], rfl, (serves _).follows⟩

/-- The words of a full extension and the pointer after them. -/
private theorem fullExtension_of_words {count : Nat}
    {pointer : List BusPhase} (few : count ≤ 4)
    (single : pointer = [] ∨
      pointer = [.read (.data setting.supervisor) .long])
    {execution : Execution (WatchedMemory σ) UInt32}
    (performs : Performs setting (List.replicate count .word ++ pointer)
      (fun _ => True) execution) :
    Performs setting [.fullExtension] (fun _ => True) execution := by
  apply performs.weaken
  intro pc requests after follows
  obtain ⟨rest, rfl, served⟩ := follows.of_words
  have serves (pointers : List UInt32) (one : pointers.length ≤ 1) :
      BusPhase.Follows setting.supervisor [.fullExtension] pc
        (wordRequests setting.supervisor pc count ++
          pointers.map
            (.access (.data setting.supervisor) <| .readLong ·))
        (afterWords pc count) :=
    (BusPhase.Serves.fullExtension pc count pointers few one).follows
  rcases single with rfl | rfl
  · cases served
    exact serves [] (Nat.zero_le 1)
  · obtain ⟨address, rfl, rfl⟩ := served.of_longRead
    exact serves [address] (Nat.le_refl 1)

variable [Memory σ]

/-- A single access serves a phase, also if it is refused. -/
theorem ask (space : FunctionCode) (access : Access) {phase : BusPhase}
    (serves : ∀ pc, phase.Serves setting.supervisor pc
      [.access space access] pc) :
    Performs setting [phase] (fun _ => True)
      (Execution.onBus (access.ask space) :
        Execution (WatchedMemory σ) access.Answer) := by
  intro start within
  have follows := (serves start.registers.pc).follows
  rw [WatchedMemory.ask_eq_watch]
  simp only [Execution.onBus, WatchedMemory.watch]
  cases access.ask space start.memory.memory with
  | ok answer memory =>
      exact ⟨trivial, ⟨within.supervisor, within.model⟩, _, rfl, follows⟩
  | error refusal memory => exact ⟨rfl, _, rfl, follows.begins⟩

/-- A read serves every phase that admits the read of an operand of its size. -/
theorem readInPhase {phase : BusPhase} {space : FunctionCode}
    {address : UInt32} {size : OperandSize}
    (serves : ∀ pc, phase.Serves setting.supervisor pc
      ((Access.readsOf address size).map (.access space)) pc) :
    Performs setting [phase] (fun _ => True)
      (Execution.readIn space address size :
        Execution (WatchedMemory σ) UInt32) := by
  apply (setting.checkAlignment address size).bind
  intro _ _
  cases size with
  | byte =>
      apply (setting.ask space (.readByte address) serves).bind_quiet
      intro value _
      exact .pure trivial
  | word =>
      apply (setting.ask space (.readWord address) serves).bind_quiet
      intro value _
      exact .pure trivial
  | long => exact setting.ask space (.readLong address) serves
  | unsized => exact setting.idle 0 serves

theorem writeInPhase {phase : BusPhase} {space : FunctionCode}
    {address value : UInt32} {size : OperandSize}
    (serves : ∀ pc, phase.Serves setting.supervisor pc
      ((Access.writesOf address value size).map (.access space)) pc) :
    Performs setting [phase] (fun _ => True)
      (Execution.writeIn space address size value :
        Execution (WatchedMemory σ) Unit) := by
  apply (setting.checkAlignment address size).bind
  intro _ _
  cases size with
  | byte => exact setting.ask space (.writeByte address _) serves
  | word => exact setting.ask space (.writeWord address _) serves
  | long => exact setting.ask space (.writeLong address value) serves
  | unsized => exact setting.idle () serves

theorem readData (address : UInt32) (size : OperandSize) :
    Performs setting [.read (.data setting.supervisor) size] (fun _ => True)
      (Execution.readData address size :
        Execution (WatchedMemory σ) UInt32) := by
  apply setting.dataSpace.bind
  rintro _ rfl
  exact setting.readInPhase fun pc => .read _ size pc address

theorem writeData (address value : UInt32) (size : OperandSize) :
    Performs setting [.write (.data setting.supervisor) size] (fun _ => True)
      (Execution.writeData address size value :
        Execution (WatchedMemory σ) Unit) := by
  apply setting.dataSpace.bind
  rintro _ rfl
  exact setting.writeInPhase fun pc => .write _ size pc address value

/-! ## Instruction words -/

theorem fetchWord :
    Performs setting [.word] (fun _ => True)
      (Execution.fetchWord : Execution (WatchedMemory σ) UInt16) := by
  intro start within
  have space : start.programSpace = .program setting.supervisor := by
    rw [Machine.programSpace, within.supervisor]
  have follows : BusPhase.Follows setting.supervisor [.word]
      start.registers.pc
      [.access (.program setting.supervisor) (.fetchWord start.registers.pc)]
      (start.registers.pc + 2) :=
    (BusPhase.Serves.word _).follows
  simp only [Execution.fetchWord, Execution.instructionWordAt,
    Execution.pc, Execution.programSpace, Execution.observe,
    Execution.setPc, Execution.update, Execution.bind_apply,
    Execution.ite_apply, Execution.throw_apply, Execution.pure_apply]
  by_cases even : start.registers.pc % 2 = 0
  · have asked : Execution.onBus
          (Memory.fetchWord start.registers.pc start.programSpace) start =
        Execution.onBus (WatchedMemory.watch (.program setting.supervisor)
          (.fetchWord start.registers.pc)) start := by
      rw [space]
      rfl
    rw [if_neg (not_not_intro even), asked]
    simp only [Execution.onBus, WatchedMemory.watch]
    cases Access.ask (.program setting.supervisor)
        (.fetchWord start.registers.pc) start.memory.memory with
    | ok word memory =>
        exact ⟨trivial, ⟨within.supervisor, within.model⟩, _, rfl, follows⟩
    | error refusal memory => exact ⟨rfl, _, rfl, follows.begins⟩
  · rw [if_pos even]
    exact ⟨rfl, .refl rfl⟩

theorem fetchDisplacement :
    Performs setting [.word] (fun _ => True)
      (Execution.fetchDisplacement : Execution (WatchedMemory σ) UInt32) := by
  apply setting.fetchWord.bind_quiet
  intro word _
  exact .pure trivial

theorem fetchLong :
    Performs setting [.word, .word] (fun _ => True)
      (Execution.fetchLong : Execution (WatchedMemory σ) UInt32) := by
  apply setting.fetchWord.bind
  intro high _
  apply setting.fetchWord.bind_quiet
  intro low _
  exact .pure trivial

/-! ## The stack -/

theorem push (size : OperandSize) (value : UInt32) :
    Performs setting [.write (.data setting.supervisor) size] (fun _ => True)
      (Execution.push size value : Execution (WatchedMemory σ) Unit) := by
  apply (setting.register .stackPointer).bind
  intro top _
  apply (setting.writeData _ value size).bind_quiet
  intro _ _
  exact setting.setRegister .stackPointer _

theorem pop (size : OperandSize) :
    Performs setting [.read (.data setting.supervisor) size] (fun _ => True)
      (Execution.pop size : Execution (WatchedMemory σ) UInt32) := by
  apply (setting.register .stackPointer).bind
  intro pointer _
  apply (setting.readData pointer size).bind_quiet
  intro value _
  apply (setting.setRegister .stackPointer _).bind
  intro _ _
  exact .pure trivial

/-! ## Indexed operands -/

/-- The words of a displacement of the size that two bits name. -/
def displacementWords (size : Fin 4) : Nat :=
  match size with
  | 2 => 1
  | 3 => 2
  | _ => 0

theorem fetchSizedDisplacement (size : Fin 4) :
    Performs setting (List.replicate (displacementWords size) .word)
      (fun _ => True)
      (Execution.fetchSizedDisplacement size :
        Execution (WatchedMemory σ) UInt32) := by
  rcases size with ⟨_ | _ | _ | _ | size, range⟩
  · exact .pure trivial
  · exact .pure trivial
  · exact setting.fetchDisplacement
  · exact setting.fetchLong
  · omega

theorem displacementWords_le (size : Fin 4) : displacementWords size ≤ 2 := by
  revert size
  decide

theorem fullIndexedAddress (extension : IndexWord) (base index : UInt32) :
    Performs setting [.fullExtension] (fun _ => True)
      (Execution.fullIndexedAddress extension base index :
        Execution (WatchedMemory σ) UInt32) := by
  unfold Execution.fullIndexedAddress
  apply Performs.throwIf rfl
  intro sized
  have few := Nat.add_le_add
    (displacementWords_le extension.baseDisplacementSize)
    (displacementWords_le (pairAt extension.word 0))
  by_cases direct : extension.selection = 0
  · apply setting.fullExtension_of_words few (.inl rfl)
    rw [← List.replicate_append_replicate, List.append_assoc]
    apply (setting.fetchSizedDisplacement _).bind
    intro baseDisplacement _
    apply Performs.throwIf rfl
    intro defined
    apply (setting.fetchSizedDisplacement _).bind
    intro outerDisplacement _
    rw [if_pos direct]
    exact .pure trivial
  · apply setting.fullExtension_of_words few (.inr rfl)
    rw [← List.replicate_append_replicate, List.append_assoc]
    apply (setting.fetchSizedDisplacement _).bind
    intro baseDisplacement _
    apply Performs.throwIf rfl
    intro defined
    apply (setting.fetchSizedDisplacement _).bind
    intro outerDisplacement _
    rw [if_neg direct]
    apply Performs.ite
    · intro indexedFirst
      apply (setting.readData _ .long).bind_quiet
      intro pointer _
      exact .pure trivial
    · intro indexedLast
      apply (setting.readData _ .long).bind_quiet
      intro pointer _
      exact .pure trivial

/-- The phases of an index: its extension word, and what follows it on the
models that extend it. -/
theorem indexedAddress (base : UInt32) :
    Performs setting
      (if setting.model.hasFullExtensions then [.word, .fullExtension]
        else [.word])
      (fun _ => True)
      (Execution.indexedAddress base :
        Execution (WatchedMemory σ) UInt32) := by
  have brief (address : UInt32) :
      Performs setting [.fullExtension] (fun _ => True)
        (pure address : Execution (WatchedMemory σ) UInt32) :=
    setting.idle address fun pc =>
      .fullExtension pc 0 [] (Nat.zero_le 4) (Nat.zero_le 1)
  cases extended : setting.model.hasFullExtensions with
  | true =>
      apply setting.fetchWord.bind
      intro word _
      apply (setting.supports Model.hasFullExtensions).bind
      rintro _ rfl
      apply (setting.register _).bind
      intro whole _
      rw [extended]
      apply Performs.ite
      · intro full
        exact setting.fullIndexedAddress _ _ _
      · intro short
        exact brief _
  | false =>
      apply setting.fetchWord.bind_quiet
      intro word _
      apply (setting.supports Model.hasFullExtensions).bind
      rintro _ rfl
      apply (setting.register _).bind
      intro whole _
      rw [extended]
      exact .pure trivial

/-! ## Operands -/

/-- An operand is found by the phases of its mode, and in the space of its
mode. -/
theorem resolve (mode : AddressingMode) (size : OperandSize) :
    Performs setting (setting.locating mode size)
      (fun location => location.space? setting.supervisor =
        mode.space? setting.supervisor)
      (mode.resolve size : Execution (WatchedMemory σ) Location) := by
  cases mode with
  | dataRegister number => exact .pure rfl
  | addressRegister number => exact .pure rfl
  | indirect number =>
      apply (setting.register _).bind
      intro address _
      exact .pure rfl
  | postincrement number | predecrement number =>
      apply (setting.register _).bind
      intro address _
      apply (setting.setRegister _ _).bind
      intro _ _
      exact .pure rfl
  | displacement number =>
      apply setting.fetchDisplacement.bind_quiet
      intro displacement _
      apply (setting.register _).bind
      intro base _
      exact .pure rfl
  | indexed number =>
      apply (setting.register _).bind
      intro base _
      apply (setting.indexedAddress base).bind_quiet
      intro address _
      exact .pure rfl
  | absoluteShort =>
      apply setting.fetchDisplacement.bind_quiet
      intro address _
      exact .pure rfl
  | absoluteLong =>
      apply setting.fetchLong.bind_quiet
      intro address _
      exact .pure rfl
  | pcDisplacement =>
      apply (setting.pc).bind
      intro base _
      apply setting.fetchDisplacement.bind_quiet
      intro displacement _
      exact .pure rfl
  | pcIndexed =>
      apply (setting.pc).bind
      intro base _
      apply (setting.indexedAddress base).bind_quiet
      intro address _
      exact .pure rfl
  | immediate =>
      cases size with
      | byte | word =>
          apply setting.fetchWord.bind_quiet
          intro value _
          exact .pure rfl
      | long | unsized =>
          apply setting.fetchLong.bind_quiet
          intro value _
          exact .pure rfl

theorem resolveAddress (mode : AddressingMode) (size : OperandSize) :
    Performs setting (setting.locating mode size) (fun _ => True)
      (mode.resolveAddress size : Execution (WatchedMemory σ) UInt32) := by
  apply (setting.resolve mode size).bind_quiet
  intro location _
  cases location.address? with
  | none => exact .throw rfl
  | some address => exact .pure trivial

/-- An operand relative to the program counter is read from program space. -/
theorem readLocation (location : Location) (size : OperandSize) :
    Performs setting (reading (location.space? setting.supervisor) size)
      (fun _ => True)
      (location.read size : Execution (WatchedMemory σ) UInt32) := by
  cases location with
  | dataRegister number => exact setting.register _
  | addressRegister number => exact setting.register _
  | memory address => exact setting.readData address size
  | program address =>
      apply setting.programSpace.bind
      rintro _ rfl
      exact setting.readInPhase fun pc => .read _ size pc address
  | immediate value => exact .pure trivial

theorem writeLocation (location : Location) (size : OperandSize)
    (value : UInt32) :
    Performs setting (setting.storing (location.space? setting.supervisor))
      (fun _ => True)
      (location.write size value : Execution (WatchedMemory σ) Unit) := by
  cases location with
  | dataRegister number =>
      apply (setting.register _).bind
      intro kept _
      exact setting.setRegister _ _
  | addressRegister number => exact setting.setRegister _ _
  | memory address =>
      rw [storing, Location.space?, if_pos rfl]
      apply setting.dataSpace.bind
      rintro _ rfl
      apply setting.writeInPhase
      intro pc
      apply BusPhase.Serves.writes
      intro access member
      exact ⟨address, value, size, member⟩
  | program address => exact .throw rfl
  | immediate value => exact .throw rfl

theorem fetchOperand (mode : AddressingMode) (size : OperandSize) :
    Performs setting (setting.fetching mode size)
      (fun operand => operand.1.space? setting.supervisor =
        mode.space? setting.supervisor)
      (mode.fetch size :
        Execution (WatchedMemory σ) (Location × UInt32)) := by
  apply (setting.resolve mode size).bind
  intro location found
  rw [← found]
  apply (setting.readLocation location size).bind_quiet
  intro value _
  exact .pure rfl

end BusSetting

end M68k

import M68k.Execution.Data
import M68k.Proofs.FetchExecutions
import M68k.Proofs.OperandPhases

/-!
# The length of operands

How many extension words an operand has is said by its addressing mode, its
size and the first of these words.  The registers and the rest of the memory
have no say in it, so the program counter after an operand that was found is
known before it is looked for.
-/

namespace M68k

theorem afterWords_add (pc : UInt32) (first second : Nat) :
    afterWords pc (first + second) =
      afterWords (afterWords pc first) second := by
  induction first generalizing pc with
  | zero =>
      rw [Nat.zero_add]
      rfl
  | succ first induction =>
      rw [Nat.succ_add]
      exact induction (pc + 2)

/-! ## Lengths -/

/-- The words after the first extension word of an indexed operand. -/
def IndexWord.laterWords (extension : IndexWord) (model : Model) : Nat :=
  if model.hasFullExtensions && extension.isFull then
    BusSetting.displacementWords extension.baseDisplacementSize +
      BusSetting.displacementWords (pairAt extension.word 0)
  else 0

theorem IndexWord.laterWords_le (extension : IndexWord) (model : Model) :
    extension.laterWords model ≤ 4 := by
  have base :=
    BusSetting.displacementWords_le extension.baseDisplacementSize
  have outer := BusSetting.displacementWords_le (pairAt extension.word 0)
  rw [laterWords]
  split <;> omega

/-- The number of extension words of an operand, given the words from its first
one on. -/
def AddressingMode.wordCount (mode : AddressingMode) (size : OperandSize)
    (model : Model) (words : List UInt16) : Nat :=
  match mode with
  | .displacement _ | .absoluteShort | .pcDisplacement => 1
  | .absoluteLong => 2
  | .indexed _ | .pcIndexed =>
      1 + (IndexWord.mk (words.headD 0)).laterWords model
  | .immediate =>
      match size with
      | .byte | .word => 1
      | .long | .unsized => 2
  | _ => 0

theorem AddressingMode.wordCount_le (mode : AddressingMode)
    (size : OperandSize) (model : Model) (words : List UInt16) :
    mode.wordCount size model words ≤ 5 := by
  have later := (IndexWord.mk (words.headD 0)).laterWords_le model
  cases mode with
  | indexed number | pcIndexed =>
      simp only [wordCount]
      omega
  | immediate => cases size <;> simp [wordCount]
  | _ => simp [wordCount]

def Source.wordCount (source : Source) (size : OperandSize) (model : Model)
    (words : List UInt16) : Nat :=
  match source with
  | .extensionWord => 1
  | .operand mode => mode.wordCount size model words
  | .none | .constant _ | .dataRegister _ => 0

theorem Source.wordCount_le (source : Source) (size : OperandSize)
    (model : Model) (words : List UInt16) :
    source.wordCount size model words ≤ 5 := by
  cases source with
  | operand mode => exact mode.wordCount_le size model words
  | extensionWord => exact Nat.succ_le_succ (Nat.zero_le 4)
  | _ => exact Nat.zero_le 5

def Destination.wordCount (destination : Destination) (size : OperandSize)
    (model : Model) (words : List UInt16) : Nat :=
  match destination with
  | .operand mode | .store mode => mode.wordCount size model words
  | .none | .dataRegister _ | .addressRegister _ => 0

theorem Destination.wordCount_le (destination : Destination)
    (size : OperandSize) (model : Model) (words : List UInt16) :
    destination.wordCount size model words ≤ 5 := by
  cases destination with
  | operand mode | store mode => exact mode.wordCount_le size model words
  | _ => exact Nat.zero_le 5

/-! ## The words of an instruction -/

/-- What is read of a memory does not change the words that it holds. -/
def Memory.KeepsWords (σ : Type) [Memory σ] : Prop :=
  ∀ {start left : σ}, ReadsTo start left → ∀ address space,
    (Memory.fetchWord address space).answer? left =
      (Memory.fetchWord address space).answer? start

/-- Reads change the record of a watched memory, but not its words. -/
theorem Memory.IsQuiet.keepsWords_watched {σ : Type} [Memory σ]
    (quiet : Memory.IsQuiet σ) : Memory.KeepsWords (WatchedMemory σ) := by
  intro start left reads address space
  have same : left.memory = start.memory := by
    induction reads with
    | refl => rfl
    | ask reads space isRead induction =>
        rw [WatchedMemory.ask_eq_watch, WatchedMemory.leaves_watch,
          quiet _ space _ isRead, induction]
  have answer (watched : WatchedMemory σ) :
      (Memory.fetchWord address space).answer? watched =
        (Memory.fetchWord address space).answer? watched.memory :=
    WatchedMemory.answer?_watch space (.fetchWord address) watched
  rw [answer, answer, same]

namespace Machine

variable {σ : Type} [Memory σ]

/-- The word of an instruction that a machine finds at an address. -/
def wordAt? (machine : Machine σ) (address : UInt32) : Option UInt16 :=
  (Memory.fetchWord address machine.programSpace).answer? machine.memory

/-- The words from the program counter on are those of a list, where there are
words. -/
def Offers (machine : Machine σ) (words : List UInt16) : Prop :=
  ∀ index word, words[index]? = some word →
    ∀ found, machine.wordAt? (afterWords machine.registers.pc index) =
      some found → found = word

end Machine

namespace OnlyLocated

variable {σ : Type} [Memory σ] {start left : Machine σ}

theorem model (only : OnlyLocated start left) : left.model = start.model := by
  obtain ⟨memory, pc, address, -, rfl⟩ := only
  rfl

theorem wordAt? (only : OnlyLocated start left)
    (keeps : Memory.KeepsWords σ) (address : UInt32) :
    left.wordAt? address = start.wordAt? address := by
  obtain ⟨memory, pc, moved, reads, rfl⟩ := only
  exact keeps reads address _

/-- After some of its words a machine offers the others. -/
theorem offers (only : OnlyLocated start left) (keeps : Memory.KeepsWords σ)
    {words : List UInt16} {count : Nat}
    (passed : left.registers.pc = afterWords start.registers.pc count)
    (offered : start.Offers words) : left.Offers (words.drop count) := by
  intro index word listed found present
  rw [List.getElem?_drop] at listed
  rw [only.wordAt? keeps, passed, ← afterWords_add] at present
  exact offered (count + index) word listed found present

end OnlyLocated

/-! ## Executions that pass words -/

namespace Execution

variable {σ α β : Type} [Memory σ]

/-- If an execution succeeds on a machine that offers some words, it gives an
accepted value and has passed a number of words. -/
def Passes (model : Model) (words : List UInt16) (count : Nat)
    (accepts : α → Prop) (execution : Execution σ α) : Prop :=
  ∀ start value left, start.model = model → start.Offers words →
    execution start = .ok value left →
      accepts value ∧
        left.registers.pc = afterWords start.registers.pc count

namespace Passes

variable {model : Model} {words : List UInt16} {count more : Nat}
variable {accepts : α → Prop} {final : β → Prop}

theorem pure {value : α} (accepted : accepts value) :
    Passes model words 0 accepts (Pure.pure value : Execution σ α) := by
  rintro start _ _ _ _ ⟨⟩
  exact ⟨accepted, rfl⟩

theorem throw (fault : Fault) :
    Passes model words count accepts
      (MonadExcept.throw fault : Execution σ α) := by
  rintro start value left _ _ ⟨⟩

theorem ite {condition : Prop} [Decidable condition]
    {first second : Execution σ α}
    (holds : condition → Passes model words count accepts first)
    (fails : ¬condition → Passes model words count accepts second) :
    Passes model words count accepts
      (if condition then first else second) := by
  split
  · exact holds ‹_›
  · exact fails ‹_›

/-- A check that ends with a fault if a condition holds, and what follows. -/
theorem throwIf {condition : Prop} [Decidable condition] {fault : Fault}
    {next : Unit → Execution σ α}
    (goesOn : Passes model words count accepts (next ())) :
    Passes model words count accepts
      (if condition then MonadExcept.throw fault >>= next else next ()) := by
  refine ite (fun _ => ?_) fun _ => goesOn
  rintro start value left _ _ ⟨⟩

theorem observe (view : Machine σ → α) :
    Passes model words 0 (fun _ => True) (Execution.observe view) := by
  rintro start _ _ _ _ ⟨⟩
  exact ⟨trivial, rfl⟩

/-- What follows a look at the machine. -/
theorem observe_bind {view : Machine σ → α} {next : α → Execution σ β}
    (goesOn : ∀ start : Machine σ, start.model = model →
      Passes model words count final (next (view start))) :
    Passes model words count final (Execution.observe view >>= next) :=
  fun start value left same offers run =>
    goesOn start same start value left same offers run

theorem setRegister_bind {register : Register} {written : UInt32}
    {value : α} :
    Passes model words 0 (fun _ => True)
      (Execution.setRegister register written >>= fun _ =>
        Pure.pure value : Execution σ α) := by
  rintro start _ _ _ _ ⟨⟩
  exact ⟨trivial, start.registers.pc_set register written⟩

theorem bind {first : Execution σ α} {next : α → Execution σ β}
    (keeps : Memory.KeepsWords σ) (locates : Locates first)
    (passes : Passes model words count accepts first)
    (goesOn : ∀ value, accepts value →
      Passes model (words.drop count) more final (next value)) :
    Passes model words (count + more) final (first >>= next) := by
  intro start value left same offers run
  obtain ⟨found, middle, firstRun, run⟩ := bind_eq_ok run
  obtain ⟨accepted, passed⟩ :=
    passes start found middle same offers firstRun
  have only := locates start
  rw [firstRun] at only
  obtain ⟨holds, after⟩ := goesOn found accepted middle value left
    (only.model.trans same) (only.offers keeps passed offers) run
  refine ⟨holds, ?_⟩
  rw [after, passed, afterWords_add]

/-- What follows passes no word. -/
theorem bind_quiet {first : Execution σ α} {next : α → Execution σ β}
    (keeps : Memory.KeepsWords σ) (locates : Locates first)
    (passes : Passes model words count accepts first)
    (goesOn : ∀ value, accepts value →
      Passes model (words.drop count) 0 final (next value)) :
    Passes model words count final (first >>= next) :=
  passes.bind keeps locates goesOn

/-- A value made of another one. -/
theorem map {first : Execution σ α} {change : α → β}
    (passes : Passes model words count accepts first)
    (accepted : ∀ value, accepts value → final (change value)) :
    Passes model words count final
      (first >>= fun value => Pure.pure (change value)) := by
  intro start value left same offers run
  obtain ⟨found, middle, firstRun, run⟩ := bind_eq_ok run
  cases run
  obtain ⟨holds, passed⟩ := passes start found left same offers firstRun
  exact ⟨accepted found holds, passed⟩

/-- The word that is fetched is the first of those offered. -/
theorem fetchWord :
    Passes model words 1 (fun word => ∀ first ∈ words.head?, word = first)
      (Execution.fetchWord : Execution σ UInt16) := by
  intro start word left _ offers run
  obtain ⟨memory, granted, rfl⟩ := fetchWord_eq_ok run
  have found : start.wordAt? start.registers.pc = some word := by
    rw [Machine.wordAt?, Bus.answer?, granted]
  refine ⟨fun first listed => ?_, rfl⟩
  rw [List.head?_eq_getElem?] at listed
  exact offers 0 first listed word found

theorem fetchDisplacement :
    Passes model words 1 (fun _ => True)
      (Execution.fetchDisplacement : Execution σ UInt32) :=
  fetchWord.map fun _ _ => trivial

/-- A read of data passes no word. -/
theorem readIn (space : FunctionCode) (address : UInt32)
    (size : OperandSize) :
    Passes model words 0 (fun _ => True)
      (Execution.readIn space address size : Execution σ UInt32) := by
  intro start value left _ _ run
  have only := ends_readIn_onlyMemoryRead space address size start
  rw [run] at only
  obtain ⟨memory, -, rfl⟩ := only
  exact ⟨trivial, rfl⟩

theorem readData (address : UInt32) (size : OperandSize) :
    Passes model words 0 (fun _ => True)
      (Execution.readData address size : Execution σ UInt32) :=
  observe_bind fun _ _ => readIn _ address size

theorem readLocation (location : Location) (size : OperandSize) :
    Passes model words 0 (fun _ => True)
      (location.read size : Execution σ UInt32) := by
  cases location with
  | dataRegister number => exact observe _
  | addressRegister number => exact observe _
  | memory address => exact readData address size
  | program address => exact observe_bind fun _ _ => readIn _ address size
  | immediate value => exact .pure trivial

section

variable (keeps : Memory.KeepsWords σ)

include keeps

theorem fetchLong :
    Passes model words 2 (fun _ => True)
      (Execution.fetchLong : Execution σ UInt32) :=
  fetchWord.bind keeps Fetches.fetchWord.locates fun _ _ =>
    fetchWord.map fun _ _ => trivial

theorem fetchSizedDisplacement (size : Fin 4) :
    Passes model words (BusSetting.displacementWords size) (fun _ => True)
      (Execution.fetchSizedDisplacement size : Execution σ UInt32) := by
  rcases size with ⟨_ | _ | _ | _ | size, range⟩
  · exact .pure trivial
  · exact .pure trivial
  · exact fetchDisplacement
  · exact fetchLong keeps
  · omega

theorem fullIndexedAddress (extension : IndexWord) (base index : UInt32) :
    Passes model words
      (BusSetting.displacementWords extension.baseDisplacementSize +
        BusSetting.displacementWords (pairAt extension.word 0))
      (fun _ => True)
      (Execution.fullIndexedAddress extension base index :
        Execution σ UInt32) := by
  have sized (size : Fin 4) :=
    (Fetches.fetchSizedDisplacement (σ := σ) size).locates
  unfold Execution.fullIndexedAddress
  apply throwIf
  apply (fetchSizedDisplacement keeps _).bind keeps (sized _)
  intro baseDisplacement _
  apply throwIf
  apply (fetchSizedDisplacement keeps _).bind_quiet keeps (sized _)
  intro outerDisplacement _
  refine ite (fun _ => .pure trivial) fun _ => ite ?_ ?_
  · intro indexedFirst
    exact (readData _ .long).map fun _ _ => trivial
  · intro indexedLast
    exact (readData _ .long).map fun _ _ => trivial

theorem indexedAddress (given : words ≠ []) (base : UInt32) :
    Passes model words
      (1 + (IndexWord.mk (words.headD 0)).laterWords model) (fun _ => True)
      (Execution.indexedAddress base : Execution σ UInt32) := by
  obtain ⟨first, rest, rfl⟩ := List.exists_cons_of_ne_nil given
  apply fetchWord.bind keeps Fetches.fetchWord.locates
  intro word found
  obtain rfl := found first rfl
  apply observe_bind
  rintro start rfl
  apply observe_bind
  intro _ _
  rw [List.headD_cons, IndexWord.laterWords]
  apply ite
  · intro full
    rw [if_pos full]
    exact fullIndexedAddress keeps _ _ _
  · intro short
    rw [if_neg short]
    exact .pure trivial

/-- An operand is found past its words. -/
theorem resolve (given : words ≠ []) (mode : AddressingMode)
    (size : OperandSize) :
    Passes model words (mode.wordCount size model words) (fun _ => True)
      (mode.resolve size : Execution σ Location) := by
  cases mode with
  | dataRegister number => exact .pure trivial
  | addressRegister number => exact .pure trivial
  | indirect number => exact observe_bind fun _ _ => .pure trivial
  | postincrement number | predecrement number =>
      exact observe_bind fun _ _ => setRegister_bind
  | displacement number =>
      apply fetchDisplacement.bind_quiet keeps
        Fetches.fetchDisplacement.locates
      intro displacement _
      exact observe_bind fun _ _ => .pure trivial
  | indexed number =>
      apply observe_bind
      intro _ _
      exact (indexedAddress keeps given _).map fun _ _ => trivial
  | absoluteShort => exact fetchDisplacement.map fun _ _ => trivial
  | absoluteLong => exact (fetchLong keeps).map fun _ _ => trivial
  | pcDisplacement =>
      apply observe_bind
      intro _ _
      exact fetchDisplacement.map fun _ _ => trivial
  | pcIndexed =>
      apply observe_bind
      intro _ _
      exact (indexedAddress keeps given _).map fun _ _ => trivial
  | immediate =>
      cases size with
      | byte | word => exact fetchWord.map fun _ _ => trivial
      | long | unsized => exact (fetchLong keeps).map fun _ _ => trivial

theorem resolveAddress (given : words ≠ []) (mode : AddressingMode)
    (size : OperandSize) :
    Passes model words (mode.wordCount size model words) (fun _ => True)
      (mode.resolveAddress size : Execution σ UInt32) := by
  apply (resolve keeps given mode size).bind_quiet keeps
    (Locates.resolve mode size)
  intro location _
  cases location.address? with
  | none => exact .throw _
  | some address => exact .pure trivial

theorem fetchOperand (given : words ≠ []) (mode : AddressingMode)
    (size : OperandSize) :
    Passes model words (mode.wordCount size model words) (fun _ => True)
      (mode.fetch size : Execution σ (Location × UInt32)) := by
  apply (resolve keeps given mode size).bind_quiet keeps
    (Locates.resolve mode size)
  intro location _
  exact (readLocation location size).map fun _ _ => trivial

theorem fetchSource (given : words ≠ []) (source : Source)
    (size : OperandSize) :
    Passes model words (source.wordCount size model words) (fun _ => True)
      (source.fetch size : Execution σ UInt32) := by
  cases source with
  | none => exact .pure trivial
  | constant value => exact .pure trivial
  | dataRegister number => exact .observe _
  | extensionWord => exact fetchWord.map fun _ _ => trivial
  | operand mode =>
      exact (fetchOperand keeps given mode size).map fun _ _ => trivial

theorem fetchDestination (given : words ≠ []) (destination : Destination)
    (size : OperandSize) :
    Passes model words (destination.wordCount size model words)
      (fun _ => True)
      (destination.fetch size :
        Execution σ (Option Location × UInt32)) := by
  cases destination with
  | none => exact .pure trivial
  | operand mode =>
      exact (fetchOperand keeps given mode size).map fun _ _ => trivial
  | store mode =>
      exact (resolve keeps given mode size).map fun _ _ => trivial
  | dataRegister number | addressRegister number =>
      exact (observe _).map fun _ _ => trivial

end

end Passes

end Execution

end M68k

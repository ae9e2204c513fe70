import M68k.Proofs.FetchOrder

/-!
# The length of instructions

The words of an instruction say how many they are.  What the registers and the
rest of the memory hold decides whether an instruction succeeds and what it
does, but two machines that complete the same instruction go on at the same
address, unless it changes the flow.
-/

namespace M68k

/-! ## Executions with a fixed number of words -/

namespace BusPhase

/-- The number of words fetched in some phases, if the phases alone say it and
the program counter is behind the words. -/
def fixedWords? : List BusPhase → Option Nat
  | [] => some 0
  | .word :: phases => (fixedWords? phases).map (· + 1)
  | .fullExtension :: _ | .jump :: _ => none
  | _ :: phases => fixedWords? phases

variable {supervisor : Bool} {phases : List BusPhase}
variable {pc after : UInt32} {requests : List MemoryRequest} {count : Nat}

theorem Follows.after_eq
    (follows : Follows supervisor phases pc requests after)
    (fixed : fixedWords? phases = some count) :
    after = afterWords pc count := by
  induction follows generalizing count with
  | nil pc =>
      cases fixed
      rfl
  | cons serves follows induction =>
      cases serves with
      | word pc =>
          obtain ⟨later, rest, rfl⟩ := Option.map_eq_some_iff.mp fixed
          exact induction rest
      | fullExtension | jump => cases fixed
      | _ => exact induction fixed

theorem fixedWords?_replicate_word (count : Nat) :
    fixedWords? (List.replicate count word) = some count := by
  induction count with
  | zero => rfl
  | succ count induction =>
      rw [List.replicate_succ, fixedWords?, induction]
      rfl

end BusPhase

theorem BusSetting.fixedWords?_storing (setting : BusSetting)
    (space? : Option FunctionCode) :
    BusPhase.fixedWords? (setting.storing space?) = some 0 := by
  rw [storing]
  split <;> rfl

namespace Execution

variable {σ α : Type}

namespace Passes

variable [Memory σ] {model : Model} {words : List UInt16} {count : Nat}

/-- Known phases say how many words are passed. -/
theorem of_closes {execution : Execution (WatchedMemory σ) α}
    (closes : ∀ supervisor, ∃ phases,
      BusPhase.fixedWords? phases = some count ∧
        Closes ⟨supervisor, model⟩ phases execution) :
    Passes model words count (fun _ => True) execution := by
  rintro start value left rfl - run
  obtain ⟨phases, fixed, closed⟩ := closes start.isSupervisor
  have served := closed start ⟨rfl, rfl⟩
  rw [run] at served
  obtain ⟨requests, -, follows⟩ := served
  exact ⟨trivial, follows.after_eq fixed⟩

/-- What performs known phases in every setting. -/
theorem of_performs {execution : Execution (WatchedMemory σ) α}
    {accepts : α → Prop} (phases : BusSetting → List BusPhase)
    (performs : ∀ setting, Performs setting (phases setting) accepts execution)
    (fixed : ∀ setting, BusPhase.fixedWords? (phases setting) = some count) :
    Passes model words count (fun _ => True) execution :=
  of_closes fun _ => ⟨_, fixed _, (performs _).closes⟩

end Passes

end Execution

/-! ## Instructions -/

/-- The number of words after the opcode of an instruction that does not change
the flow, given these words. -/
def Instruction.wordCount (model : Model) (words : List UInt16) :
    Instruction → Nat
  | data instruction =>
      let count := instruction.source.wordCount instruction.size model words
      count + instruction.destination.wordCount instruction.size model
        (words.drop count)
  | moveToCcr mode | moveToSr mode => mode.wordCount .word model words
  | lea mode _ | pea mode => mode.wordCount .long model words
  | movemStore size mode | movemLoad size mode | moves size mode =>
      1 + mode.wordCount size model (words.drop 1)
  | mull mode | divl mode => 1 + mode.wordCount .long model (words.drop 1)
  | logicToCcr _ | logicToSr _ | movepStore _ _ _ | movepLoad _ _ _
  | movecStore | movecLoad | link _ | stop => 1
  | linkLong _ => 2
  | trapcc _ operandWords => operandWords
  | _ => 0

theorem Instruction.wordCount_le {instruction : Instruction}
    (short : instruction.IsShort) (model : Model) (words : List UInt16) :
    instruction.wordCount model words ≤ 10 := by
  have one (mode : AddressingMode) (size : OperandSize)
      (words : List UInt16) :=
    mode.wordCount_le size model words
  cases instruction with
  | data instruction =>
      exact Nat.add_le_add (instruction.source.wordCount_le _ _ _)
        (instruction.destination.wordCount_le _ _ _)
  | moveToCcr mode | moveToSr mode =>
      exact (one mode .word words).trans (by decide)
  | lea mode number | pea mode =>
      exact (one mode .long words).trans (by decide)
  | movemStore size mode | movemLoad size mode | moves size mode =>
      exact (Nat.add_le_add_left (one mode size _) 1).trans (by decide)
  | mull mode | divl mode =>
      exact (Nat.add_le_add_left (one mode .long _) 1).trans (by decide)
  | trapcc condition operandWords =>
      exact (show operandWords ≤ 2 from short).trans (by decide)
  | _ => exact Nat.le_of_ble_eq_true rfl

namespace Execution

variable {σ : Type} [Memory σ]

theorem Locates.fetchLongOperands (mode : AddressingMode) :
    Locates (σ := σ) (Execution.fetchLongOperands mode) :=
  Fetches.fetchWord.locates.bind fun _ =>
    (fetchOperand mode .long).bind fun _ => .pure _

namespace Passes

variable {model : Model} {words : List UInt16}

theorem fetchWord_bind {α : Type} {accepts : α → Prop} {count : Nat}
    {next : UInt16 → Execution σ α} (keeps : Memory.KeepsWords σ)
    (goesOn : ∀ word, Passes model (words.drop 1) count accepts (next word)) :
    Passes model words (1 + count) accepts
      (Execution.fetchWord >>= next) :=
  fetchWord.bind keeps Fetches.fetchWord.locates fun word _ => goesOn word

variable (keeps : Memory.KeepsWords (WatchedMemory σ))
  (long : 5 < words.length)

include keeps long

theorem data (instruction : DataInstruction) :
    Passes model words
      ((Instruction.data instruction).wordCount model words) (fun _ => True)
      (instruction.execute : Execution (WatchedMemory σ) Unit) := by
  have given : words ≠ [] := List.ne_nil_of_length_pos (by omega)
  have few := instruction.source.wordCount_le instruction.size model words
  have givenLater : words.drop
      (instruction.source.wordCount instruction.size model words) ≠ [] :=
    mt List.drop_eq_nil_iff.mp (by omega)
  apply (fetchSource keeps given _ _).bind keeps (Locates.fetchSource _ _)
  intro source _
  apply (fetchDestination keeps givenLater _ _).bind_quiet keeps
    (Locates.fetchDestination _ _)
  rintro ⟨location, destination⟩ _
  apply observe_bind
  intro start _
  split
  · rintro _ _ _ _ _ ⟨⟩
  · exact .pure trivial
  · apply of_performs
    · intro setting
      apply (setting.setConditionCodes _).bind
      intro _ _
      exact setting.finish instruction location _ _ _
    · intro setting
      exact setting.fixedWords?_storing _

theorem fetchAddress_bind (mode : AddressingMode) (size : OperandSize)
    {next : UInt16 → UInt32 → Execution (WatchedMemory σ) Unit}
    (goesOn : ∀ word address,
      Passes model ((words.drop 1).drop
        (mode.wordCount size model (words.drop 1))) 0 (fun _ => True)
        (next word address)) :
    Passes model words (1 + mode.wordCount size model (words.drop 1))
      (fun _ => True)
      (Execution.fetchWord >>= fun word =>
        mode.resolveAddress size >>= next word) := by
  have given : words.drop 1 ≠ [] := mt List.drop_eq_nil_iff.mp (by omega)
  apply fetchWord_bind keeps
  intro word
  exact (resolveAddress keeps given mode size).bind_quiet keeps
    (Locates.resolveAddress mode size) fun address _ => goesOn word address

theorem movemStore (size : OperandSize) (mode : AddressingMode) :
    Passes model words
      (1 + mode.wordCount size model (words.drop 1)) (fun _ => True)
      (Execution.movemStore size mode :
        Execution (WatchedMemory σ) Unit) := by
  have listed : Passes model words
      (1 + mode.wordCount size model (words.drop 1)) (fun _ => True)
      (Execution.fetchWord >>= fun mask =>
        mode.resolveAddress size >>= fun address =>
          Execution.storeAscending size address
            (Execution.listAscending mask) :
        Execution (WatchedMemory σ) Unit) := by
    apply fetchAddress_bind keeps long
    intro mask address
    exact of_performs _
      (fun setting => setting.storeAscending size address _) fun _ => rfl
  cases mode with
  | predecrement number =>
      exact of_performs _
        (fun setting => setting.movemStore size (.predecrement number))
        fun _ => rfl
  | _ => exact listed

theorem movemLoad (size : OperandSize) (mode : AddressingMode) :
    Passes model words
      (1 + mode.wordCount size model (words.drop 1)) (fun _ => True)
      (Execution.movemLoad size mode :
        Execution (WatchedMemory σ) Unit) := by
  have listed : Passes model words
      (1 + mode.wordCount size model (words.drop 1)) (fun _ => True)
      (Execution.fetchWord >>= fun mask =>
        mode.resolveAddress size >>= fun address =>
          Execution.loadAscending size address
            (Execution.listAscending mask) >>= fun _ => Pure.pure () :
        Execution (WatchedMemory σ) Unit) := by
    apply fetchAddress_bind keeps long
    intro mask address
    refine map ?_ fun final (_ : True) => trivial
    exact of_performs _
      (fun setting => setting.loadAscending size address _) fun _ => rfl
  cases mode with
  | postincrement number =>
      exact of_performs _
        (fun setting => setting.movemLoad size (.postincrement number))
        fun _ => rfl
  | _ => exact listed

theorem moves (size : OperandSize) (mode : AddressingMode) :
    Passes model words
      (1 + mode.wordCount size model (words.drop 1)) (fun _ => True)
      (Execution.moves size mode : Execution (WatchedMemory σ) Unit) := by
  apply fetchAddress_bind keeps long
  intro extension address
  exact of_performs _
    (fun setting => setting.moveAlternate extension address size)
    fun _ => rfl

theorem fetchLongOperands (mode : AddressingMode) :
    Passes model words
      (1 + mode.wordCount .long model (words.drop 1)) (fun _ => True)
      (Execution.fetchLongOperands mode :
        Execution (WatchedMemory σ) (LongOperands × UInt32)) := by
  have given : words.drop 1 ≠ [] := mt List.drop_eq_nil_iff.mp (by omega)
  apply fetchWord_bind keeps
  intro word
  exact (fetchOperand keeps given mode .long).map fun _ _ => trivial

theorem mull (mode : AddressingMode) :
    Passes model words
      (1 + mode.wordCount .long model (words.drop 1)) (fun _ => True)
      (Execution.mull mode : Execution (WatchedMemory σ) Unit) := by
  apply (fetchLongOperands keeps long mode).bind_quiet keeps
    (Locates.fetchLongOperands mode)
  rintro ⟨extension, multiplier⟩ _
  apply of_performs fun _ => []
  · intro setting
    apply (setting.register _).bind
    intro multiplicand _
    apply Performs.ite
    · intro quad
      exact setting.storePair _ _ _ _ _
    · intro long
      apply (setting.setRegister _ _).bind
      intro _ _
      exact setting.setFlags _
  · exact fun _ => rfl

theorem divl (mode : AddressingMode) :
    Passes model words
      (1 + mode.wordCount .long model (words.drop 1)) (fun _ => True)
      (Execution.divl mode : Execution (WatchedMemory σ) Unit) := by
  apply (fetchLongOperands keeps long mode).bind_quiet keeps
    (Locates.fetchLongOperands mode)
  rintro ⟨extension, divisor⟩ _
  apply ite
  · rintro _ _ _ _ _ _ ⟨⟩
  · intro nonzero
    apply observe_bind
    intro _ _
    apply observe_bind
    intro _ _
    cases Execution.divideLongs? extension _ _ divisor with
    | none => exact .pure trivial
    | some division =>
        exact of_performs _ (fun setting => setting.storePair _ _ _ _ _)
          fun _ => rfl

/-- An instruction that succeeds and does not change the flow has passed as many
words as they themselves say. -/
theorem execute {instruction : Instruction}
    (straight : instruction.changesFlow = false) :
    Passes model words (instruction.wordCount model words) (fun _ => True)
      (instruction.execute : Execution (WatchedMemory σ) Unit) := by
  have given : words ≠ [] := List.ne_nil_of_length_pos (by omega)
  have known {count : Nat}
      (fixed : ∀ setting,
        BusPhase.fixedWords? (instruction.phases setting) = some count) :
      Passes model words count (fun _ => True)
        (instruction.execute : Execution (WatchedMemory σ) Unit) :=
    of_closes fun _ => ⟨_, fixed _, BusSetting.execute _ instruction⟩
  cases instruction with
  | data instruction => exact data keeps long instruction
  | moveToCcr source =>
      apply (fetchOperand keeps given source .word).bind_quiet keeps
        (Locates.fetchOperand source .word)
      intro operand _
      exact of_performs _ (fun setting => setting.setConditionCodes _)
        fun _ => rfl
  | moveToSr source =>
      apply (fetchOperand keeps given source .word).bind_quiet keeps
        (Locates.fetchOperand source .word)
      intro operand _
      exact of_closes fun _ => ⟨_, rfl, BusSetting.setStatusWord _ _⟩
  | lea address destination =>
      apply (resolveAddress keeps given address .long).bind_quiet keeps
        (Locates.resolveAddress address .long)
      intro found _
      exact of_performs _ (fun setting => setting.setRegister _ _) fun _ => rfl
  | pea address =>
      apply (resolveAddress keeps given address .long).bind_quiet keeps
        (Locates.resolveAddress address .long)
      intro found _
      exact of_performs _ (fun setting => setting.push .long found)
        fun _ => rfl
  | movemStore size mode => exact movemStore keeps long size mode
  | movemLoad size mode => exact movemLoad keeps long size mode
  | moves size mode => exact moves keeps long size mode
  | mull mode => exact mull keeps long mode
  | divl mode => exact divl keeps long mode
  | trapcc condition operandWords =>
      exact known fun _ => BusPhase.fixedWords?_replicate_word operandWords
  | bkpt vector =>
      intro start value left _ _ run
      exact absurd run (Execution.bkpt_ne_ok vector start value left)
  | bcc | bsr | dbcc | jmp | jsr | rts | rtr | rtd | rte => cases straight
  | _ => exact known fun _ => rfl

end Passes

end Execution

/-! ## Machines -/

namespace Machine

variable {σ τ : Type} [Memory σ] [Memory τ]

/-- What succeeds also succeeds when it is watched. -/
theorem executeOpcode_watched {machine left : Machine σ}
    (run : Execution.executeOpcode machine = .ok () left) :
    ∃ after, Execution.executeOpcode machine.watched = .ok () after ∧
      left = after.unwatched := by
  have matched := matched_executeOpcode machine.watched
  rw [show machine.watched.unwatched = machine from rfl, run] at matched
  generalize Execution.executeOpcode machine.watched = result at matched
  cases matched with
  | ok along => exact ⟨_, rfl, along⟩

theorem Offers.watched {machine : Machine σ} {words : List UInt16}
    (offers : machine.Offers words) : machine.watched.Offers words := by
  intro index word listed found present
  apply offers index word listed found
  rw [← present]
  exact (WatchedMemory.answer?_watch machine.programSpace
    (.fetchWord (afterWords machine.registers.pc index))
    machine.watched.memory).symm

section

variable {machine left : Machine σ} {instruction : Instruction}
variable (decoded : Instruction.decode? machine.opcode = some instruction)
  (straight : instruction.changesFlow = false)
  (run : Execution.executeOpcode
    (machine.withPc (machine.registers.pc + 2)) = .ok () left)

include decoded straight run

/-- An instruction that does not change the flow ends behind the words that say
how many they are. -/
theorem pc_of_executeOpcode (quiet : Memory.IsQuiet σ) {words : List UInt16}
    (long : 5 < words.length)
    (offers : (machine.withPc (machine.registers.pc + 2)).Offers words) :
    left.registers.pc = afterWords (machine.registers.pc + 2)
      (instruction.wordCount machine.model words) := by
  obtain ⟨after, watched, rfl⟩ := executeOpcode_watched run
  rw [Execution.executeOpcode] at watched
  split at watched
  · cases watched
  · rename_i found admitted
    obtain ⟨same, -⟩ := Instruction.admit_eq_ok admitted
    obtain rfl := Option.some.inj (decoded.symm.trans same)
    have passes : Execution.Passes machine.model words
        (instruction.wordCount machine.model words) (fun _ => True)
        (instruction.execute : Execution (WatchedMemory σ) Unit) :=
      .execute quiet.keepsWords_watched long straight
    exact (passes _ () after rfl offers.watched watched).2

/-- It ends behind the words that it has fetched. -/
theorem pc_of_fetches :
    machine.fetches = wordRequests machine.isSupervisor
        (machine.registers.pc + 2) machine.fetches.length ∧
      left.registers.pc =
        afterWords (machine.registers.pc + 2) machine.fetches.length ∧
      machine.fetches.length ≤ 10 := by
  have flow (found : Instruction)
      (same : Instruction.decode? machine.opcode = some found)
      (jumps : found.changesFlow = true) : false = true := by
    obtain rfl := Option.some.inj (decoded.symm.trans same)
    rw [← straight, jumps]
  have ended := machine.endedInOrder_executeOpcode flow
  obtain ⟨after, watched, rfl⟩ := executeOpcode_watched run
  rw [watched] at ended
  obtain ⟨count, few, fetched, passed⟩ := ended
  have same : machine.fetches = wordRequests machine.isSupervisor
      (machine.registers.pc + 2) count := by
    rw [fetches, requested, watched]
    exact fetched.filter_requests
  have length : machine.fetches.length = count := by
    rw [same, length_wordRequests]
  rw [length]
  exact ⟨same, passed rfl, few⟩

end

/-- Two machines of one model are about to execute the same instruction in the
same mode: the words behind its opcode, of which no instruction has more than
ten, are the same.  Registers, condition codes and all else in the memories may
differ. -/
structure SharesInstruction (machine : Machine σ) (other : Machine τ) :
    Prop where
  model : other.model = machine.model
  supervisor : other.isSupervisor = machine.isSupervisor
  pc : other.registers.pc = machine.registers.pc
  opcode : other.opcode = machine.opcode
  words : ∀ index < 10,
    other.wordAt? (afterWords (machine.registers.pc + 2) index) =
      machine.wordAt? (afterWords (machine.registers.pc + 2) index)

/-- The ten words behind the opcode. -/
def wordsBehind (machine : Machine σ) : List UInt16 :=
  (List.range 10).map fun index =>
    (machine.wordAt? (afterWords (machine.registers.pc + 2) index)).getD 0

theorem offers_wordsBehind (machine : Machine σ) :
    (machine.withPc (machine.registers.pc + 2)).Offers
      machine.wordsBehind := by
  intro index word listed found present
  rw [wordsBehind, List.getElem?_map, Option.map_eq_some_iff] at listed
  obtain ⟨place, listed, rfl⟩ := listed
  obtain ⟨inside, rfl⟩ := List.getElem?_eq_some_iff.mp listed
  rw [List.getElem_range]
  exact (congrArg (·.getD 0) present).symm

theorem SharesInstruction.wordsBehind_eq {machine : Machine σ}
    {other : Machine τ} (shares : machine.SharesInstruction other) :
    other.wordsBehind = machine.wordsBehind := by
  refine List.map_congr_left fun index listed => ?_
  rw [shares.pc, shares.words index (List.mem_range.mp listed)]

/-- Every instruction fetches its words in a row, at even addresses and each
once.  How many they are is a function of the model and the words, and does not
depend on data: two machines that complete the same instruction fetch the same
words and go on at the same address behind the last of them, unless the
instruction changes the flow. -/
theorem passes_itsWords {machine : Machine σ} {other : Machine τ}
    (quiet : Memory.IsQuiet σ) (otherQuiet : Memory.IsQuiet τ)
    (shares : machine.SharesInstruction other) :
    machine.FetchesInRow ∧
    ∀ instruction left right,
      Instruction.decode? machine.opcode = some instruction →
      instruction.changesFlow = false →
      Execution.executeOpcode
          (machine.withPc (machine.registers.pc + 2)) = .ok () left →
      Execution.executeOpcode
          (other.withPc (other.registers.pc + 2)) = .ok () right →
      right.registers.pc = left.registers.pc ∧
        left.registers.pc = afterWords (machine.registers.pc + 2)
          machine.fetches.length ∧
        machine.fetches.length =
          instruction.wordCount machine.model machine.wordsBehind ∧
        other.fetches = machine.fetches := by
  refine ⟨machine.fetchesInRow, ?_⟩
  intro instruction left right decoded straight run otherRun
  have otherDecoded :
      Instruction.decode? other.opcode = some instruction := by
    rw [shares.opcode]
    exact decoded
  have long : 5 < machine.wordsBehind.length := by
    rw [wordsBehind, List.length_map, List.length_range]
    decide
  have leftPc := pc_of_executeOpcode decoded straight run quiet long
    machine.offers_wordsBehind
  have otherOffers := other.offers_wordsBehind
  rw [shares.wordsBehind_eq] at otherOffers
  have rightPc := pc_of_executeOpcode otherDecoded straight otherRun
    otherQuiet long otherOffers
  rw [shares.pc, shares.model] at rightPc
  have samePc : right.registers.pc = left.registers.pc :=
    rightPc.trans leftPc.symm
  obtain ⟨fetched, behind, few⟩ := pc_of_fetches decoded straight run
  obtain ⟨otherFetched, otherBehind, otherFew⟩ :=
    pc_of_fetches otherDecoded straight otherRun
  rw [shares.pc, samePc, behind] at otherBehind
  have sameLength := afterWords_inj _ (by omega) (by omega) otherBehind
  have short := Instruction.decodes_isShort _ instruction decoded
  have counted : machine.fetches.length =
      instruction.wordCount machine.model machine.wordsBehind := by
    have most :=
      Instruction.wordCount_le short machine.model machine.wordsBehind
    exact afterWords_inj _ (by omega) (by omega) (behind.symm.trans leftPc)
  refine ⟨samePc, behind, counted, ?_⟩
  rw [otherFetched, shares.pc, shares.supervisor, ← sameLength]
  exact fetched.symm

/-- A machine about to add the word to which a pointer behind a register
points. -/
def pointedSum : Machine FlatMemory where
  model := .mc68020
  registers := { data := #v[1, 0, 0, 0, 0, 0, 0, 4]
                 address := #v[16, 0, 0, 0, 0, 0, 0, 9] }
  status := .ofWord 0
  opcode := 0xD070
  memory := ⟨#[0xD0, 0x70, 0x01, 0x61, 0, 6, 0, 0, 0, 0, 0, 0, 0, 0, 0, 0, 0, 0,
    0, 0, 0, 0, 0, 0, 0, 26, 0x12, 0x34]⟩

/-- A machine about to do the same with another register and pointer. -/
def otherPointedSum : Machine FlatMemory where
  model := .mc68020
  registers := { data := #v[0xFFFF, 0, 0, 0, 0, 0, 0, 5]
                 address := #v[18, 0, 0, 0, 0, 0, 0, 7] }
  status := .ofWord 0x1F
  opcode := 0xD070
  memory := ⟨#[0xD0, 0x70, 0x01, 0x61, 0, 6, 0, 0, 0, 0, 0, 0, 0, 0, 0, 0, 0, 0,
    0, 0, 0, 0, 0xFF, 0xFF, 0, 0, 0, 28, 0x56, 0x78]⟩

theorem pointedSum_passes :
    pointedSum.SharesInstruction otherPointedSum ∧
    ∃ left right,
      Execution.executeOpcode (pointedSum.withPc 2) = .ok () left ∧
      Execution.executeOpcode (otherPointedSum.withPc 2) = .ok () right ∧
      left.registers.get (.data 0) = 0x1235 ∧
      right.registers.get (.data 0) = 0x5677 ∧
      right.registers.pc = left.registers.pc ∧
      left.registers.pc = afterWords 2 pointedSum.fetches.length ∧
      pointedSum.fetches.length = 2 ∧
      otherPointedSum.fetches = pointedSum.fetches := by
  have shares : pointedSum.SharesInstruction otherPointedSum :=
    ⟨rfl, rfl, rfl, rfl, by decide +kernel⟩
  have passes := (passes_itsWords FlatMemory.isQuiet FlatMemory.isQuiet
    shares).2 (.data ⟨.add, .word, .operand (.indexed 0), .dataRegister 0⟩)
      _ _ (by decide +kernel) rfl rfl rfl
  exact ⟨shares, _, _, rfl, rfl, by decide +kernel, by decide +kernel,
    passes.1, passes.2.1, by decide +kernel, passes.2.2.2⟩

end Machine

end M68k

import M68k.Proofs.AlignedAccesses
import M68k.Proofs.DecodedModes
import M68k.Proofs.OperandLength

/-!
# The order in which instruction words are fetched

Whatever else an instruction asks the memory for, it fetches its own words one
after the other, beginning with the word after the opcode, and none of them
twice.  Ten words are enough for every instruction.
-/

namespace M68k

/-- Whether a word of the instruction is asked for. -/
def MemoryRequest.isFetch : MemoryRequest → Bool
  | .access _ (.fetchWord _) => true
  | _ => false

namespace Access

variable {access : Access} (space : FunctionCode)

theorem IsRead.isFetch_eq_false (isRead : access.IsRead) :
    (MemoryRequest.access space access).isFetch = false := by
  obtain ⟨address, size, member⟩ := isRead
  cases size with
  | unsized => cases member
  | _ =>
      obtain rfl := List.mem_singleton.mp member
      rfl

theorem IsWrite.isFetch_eq_false (isWrite : access.IsWrite) :
    (MemoryRequest.access space access).isFetch = false := by
  obtain ⟨address, value, size, member⟩ := isWrite
  cases size with
  | unsized => cases member
  | _ =>
      obtain rfl := List.mem_singleton.mp member
      rfl

theorem IsRun.isFetch_eq_false (isRun : access.IsRun) :
    (MemoryRequest.access space access).isFetch = false := by
  cases access with
  | readRun | writeRun => rfl
  | _ => cases isRun

end Access

/-! ## Sequences of words -/

section Words

variable (supervisor : Bool) (pc : UInt32)

theorem toNat_afterWords (count : Nat) :
    (afterWords pc count).toNat = (pc.toNat + 2 * count) % 2 ^ 32 := by
  induction count generalizing pc with
  | zero => simp [afterWords, Nat.mod_eq_of_lt pc.toNat_lt]
  | succ count induction =>
      rw [afterWords, induction, UInt32.toNat_add]
      simp only [UInt32.reduceToNat]
      omega

theorem wordRequests_add (first second : Nat) :
    wordRequests supervisor pc (first + second) =
      wordRequests supervisor pc first ++
        wordRequests supervisor (afterWords pc first) second := by
  induction first generalizing pc with
  | zero =>
      rw [Nat.zero_add]
      rfl
  | succ first induction =>
      rw [Nat.succ_add]
      exact congrArg _ (induction (pc + 2))

theorem length_wordRequests (count : Nat) :
    (wordRequests supervisor pc count).length = count := by
  induction count generalizing pc with
  | zero => rfl
  | succ count induction => exact congrArg Nat.succ (induction (pc + 2))

theorem filter_wordRequests (count : Nat) :
    (wordRequests supervisor pc count).filter MemoryRequest.isFetch =
      wordRequests supervisor pc count := by
  induction count generalizing pc with
  | zero => rfl
  | succ count induction => exact congrArg _ (induction (pc + 2))

theorem mem_wordRequests {request : MemoryRequest} {count : Nat}
    (member : request ∈ wordRequests supervisor pc count) :
    ∃ index < count, request =
      .access (.program supervisor) (.fetchWord (afterWords pc index)) := by
  induction count generalizing pc with
  | zero => cases member
  | succ count induction =>
      rcases List.mem_cons.mp member with rfl | later
      · exact ⟨0, Nat.succ_pos count, rfl⟩
      · obtain ⟨index, inside, rfl⟩ := induction (pc + 2) later
        exact ⟨index + 1, Nat.succ_lt_succ inside, rfl⟩

/-- Words in a row are at different addresses, unless they fill the memory. -/
theorem nodup_wordRequests {count : Nat} (few : 2 * count ≤ 2 ^ 32) :
    (wordRequests supervisor pc count).Nodup := by
  induction count generalizing pc with
  | zero => exact List.nodup_nil
  | succ count induction =>
      refine List.nodup_cons.mpr ⟨?_, induction (pc + 2) (by omega)⟩
      intro member
      obtain ⟨index, inside, same⟩ := mem_wordRequests supervisor _ member
      have address : pc = afterWords pc (index + 1) := by
        injection same with _ same
        injection same
      have number := congrArg UInt32.toNat address
      rw [toNat_afterWords] at number
      have small := pc.toNat_lt
      omega

/-- The address behind a few words says how many they were. -/
theorem afterWords_inj {first second : Nat} (firstFew : 2 * first < 2 ^ 32)
    (secondFew : 2 * second < 2 ^ 32)
    (same : afterWords pc first = afterWords pc second) : first = second := by
  have number := congrArg UInt32.toNat same
  rw [toNat_afterWords, toNat_afterWords] at number
  have small := pc.toNat_lt
  omega

/-- What comes first of words in a row is words in a row. -/
theorem wordRequests_eq_append {first second : List MemoryRequest}
    {count : Nat}
    (joined : first ++ second = wordRequests supervisor pc count) :
    ∃ less ≤ count, first = wordRequests supervisor pc less := by
  induction first generalizing pc count with
  | nil => exact ⟨0, Nat.zero_le count, rfl⟩
  | cons request first induction =>
      cases count with
      | zero => cases joined
      | succ count =>
          obtain ⟨rfl, rest⟩ := List.cons_eq_cons.mp joined
          obtain ⟨less, few, rfl⟩ := induction (pc + 2) rest
          exact ⟨less + 1, Nat.succ_le_succ few, rfl⟩

end Words

/-! ## Phases -/

namespace BusPhase

/-- The greatest number of words that are fetched in a phase. -/
def wordLimit : BusPhase → Nat
  | word => 1
  | fullExtension => 4
  | _ => 0

/-- Phases in which the program counter moves by fetching words only, and words
are fetched nowhere else. -/
def isStraight : BusPhase → Bool
  | alternate | jump => false
  | _ => true

/-- Nothing but a jump at the end, if jumps are allowed, is not straight. -/
def areInOrder (jumps : Bool) : List BusPhase → Bool
  | [] => true
  | phase :: phases =>
      (phase.isStraight && areInOrder jumps phases) ||
        (jumps && decide (phase = jump) && phases.isEmpty)

def limitOf (phases : List BusPhase) : Nat :=
  (phases.map wordLimit).sum

variable {supervisor jumps : Bool} {phase : BusPhase}
variable {first second phases : List BusPhase}
variable {pc after : UInt32} {requests : List MemoryRequest}

theorem limitOf_append (first second : List BusPhase) :
    limitOf (first ++ second) = limitOf first + limitOf second := by
  rw [limitOf, List.map_append, List.sum_append, limitOf, limitOf]

theorem limitOf_replicate_word (count : Nat) :
    limitOf (List.replicate count word) = count := by
  rw [limitOf, List.map_replicate, List.sum_replicate_nat]
  exact Nat.mul_one count

private theorem filter_accesses {accesses : List Access}
    (space : FunctionCode)
    (others : ∀ access ∈ accesses,
      (MemoryRequest.access space access).isFetch = false) :
    (accesses.map (.access space)).filter MemoryRequest.isFetch = [] := by
  rw [List.filter_eq_nil_iff]
  intro request member
  obtain ⟨access, listed, rfl⟩ := List.mem_map.mp member
  rw [others access listed]
  exact Bool.false_ne_true

/-- In a straight phase words are fetched in a row. -/
theorem Serves.fetches (serves : Serves supervisor phase pc requests after)
    (straight : phase.isStraight) :
    ∃ count ≤ phase.wordLimit,
      requests.filter MemoryRequest.isFetch =
          wordRequests supervisor pc count ∧
        after = afterWords pc count := by
  cases serves with
  | word pc => exact ⟨1, Nat.le_refl 1, rfl, rfl⟩
  | fullExtension pc count pointers few single =>
      refine ⟨count, few, ?_, rfl⟩
      have pointing : (pointers.map fun address => MemoryRequest.access
          (.data supervisor) (.readLong address)).filter
            MemoryRequest.isFetch = [] := by
        rw [List.filter_eq_nil_iff]
        intro request member
        obtain ⟨address, -, rfl⟩ := List.mem_map.mp member
        exact Bool.false_ne_true
      rw [List.filter_append, filter_wordRequests, pointing,
        List.append_nil]
  | read space size pc address =>
      refine ⟨0, Nat.le_refl 0, filter_accesses space ?_, rfl⟩
      intro access member
      exact Access.IsRead.isFetch_eq_false space ⟨address, size, member⟩
  | write space size pc address value =>
      refine ⟨0, Nat.le_refl 0, filter_accesses space ?_, rfl⟩
      intro access member
      exact Access.IsWrite.isFetch_eq_false space
        ⟨address, value, size, member⟩
  | reads space pc accesses allReads =>
      refine ⟨0, Nat.le_refl 0, filter_accesses space ?_, rfl⟩
      intro access member
      exact (allReads access member).isFetch_eq_false space
  | writes space pc accesses allWrites =>
      refine ⟨0, Nat.le_refl 0, filter_accesses space ?_, rfl⟩
      intro access member
      exact (allWrites access member).isFetch_eq_false space
  | run space pc access isRun =>
      refine ⟨0, Nat.le_refl 0, ?_, rfl⟩
      rw [List.filter_cons_of_neg, List.filter_nil]
      · rfl
      · rw [isRun.isFetch_eq_false space]
        exact Bool.false_ne_true
  | devices pc => exact ⟨0, Nat.le_refl 0, rfl, rfl⟩
  | alternate | jump => cases straight

/-- In phases in order words are fetched in a row, and without a jump nothing
else moves the program counter. -/
theorem Follows.fetches
    (follows : Follows supervisor phases pc requests after)
    (ordered : areInOrder jumps phases) :
    ∃ count ≤ limitOf phases,
      requests.filter MemoryRequest.isFetch =
          wordRequests supervisor pc count ∧
        (jumps = false → after = afterWords pc count) := by
  induction follows with
  | nil pc => exact ⟨0, Nat.le_refl 0, rfl, fun _ => rfl⟩
  | @cons phase phases pc middle after requests rest serves follows
      induction =>
      simp only [areInOrder, Bool.or_eq_true, Bool.and_eq_true,
        decide_eq_true_eq, List.isEmpty_iff] at ordered
      rcases ordered with ⟨straight, ordered⟩ | ⟨⟨allowed, rfl⟩, rfl⟩
      · obtain ⟨count, few, fetched, rfl⟩ := serves.fetches straight
        obtain ⟨more, fewer, later, passed⟩ := induction ordered
        refine ⟨count + more, Nat.add_le_add few fewer, ?_, ?_⟩
        · rw [List.filter_append, fetched, later, wordRequests_add]
        · intro jumpless
          rw [passed jumpless, afterWords_add]
      · cases serves
        cases follows
        refine ⟨0, Nat.zero_le _, rfl, ?_⟩
        rw [allowed]
        exact nofun

/-- Phases in order in which not more than a number of words are fetched. -/
structure InOrderUpTo (jumps : Bool) (limit : Nat)
    (phases : List BusPhase) : Prop where
  ordered : areInOrder jumps phases = true
  few : limitOf phases ≤ limit

namespace InOrderUpTo

variable {limit less more : Nat}

/-- The order and the limit of listed phases are computed. -/
theorem of_listed (ordered : areInOrder jumps phases = true)
    (few : (limitOf phases).ble limit = true) :
    InOrderUpTo jumps limit phases :=
  ⟨ordered, Nat.le_of_ble_eq_true few⟩

theorem mono (inOrder : InOrderUpTo jumps less phases) (le : less ≤ limit) :
    InOrderUpTo jumps limit phases :=
  ⟨inOrder.ordered, inOrder.few.trans le⟩

/-- Phases without a jump in front of others. -/
theorem append (begun : InOrderUpTo false less first)
    (goesOn : InOrderUpTo jumps more second) :
    InOrderUpTo jumps (less + more) (first ++ second) where
  ordered := by
    have straight := begun.ordered
    clear begun
    induction first with
    | nil => exact goesOn.ordered
    | cons phase first induction =>
        simp only [areInOrder, Bool.false_and, Bool.or_false,
          Bool.and_eq_true] at straight
        simp only [List.cons_append, areInOrder, straight.1,
          induction straight.2, Bool.and_self, Bool.true_or]
  few := by
    rw [limitOf_append]
    exact Nat.add_le_add begun.few goesOn.few

theorem words (count : Nat) :
    InOrderUpTo jumps count (List.replicate count word) := by
  constructor
  · induction count with
    | zero => rfl
    | succ count induction =>
        rw [List.replicate_succ, areInOrder, induction]
        rfl
  · rw [limitOf_replicate_word]

end InOrderUpTo

end BusPhase

namespace BusSetting

open BusPhase

variable (setting : BusSetting)

theorem inOrder_locating (mode : AddressingMode) (size : OperandSize) :
    InOrderUpTo false 5 (setting.locating mode size) := by
  cases mode with
  | immediate => cases size <;> exact .of_listed rfl rfl
  | indexed number | pcIndexed =>
      rw [locating]
      split <;> exact .of_listed rfl rfl
  | _ => exact .of_listed rfl rfl

theorem inOrder_reading (space? : Option FunctionCode) (size : OperandSize) :
    InOrderUpTo false 0 (reading space? size) := by
  cases space? <;> exact .of_listed rfl rfl

theorem inOrder_storing (space? : Option FunctionCode) :
    InOrderUpTo false 0 (setting.storing space?) := by
  rw [storing]
  split <;> exact .of_listed rfl rfl

theorem inOrder_fetching (mode : AddressingMode) (size : OperandSize) :
    InOrderUpTo false 5 (setting.fetching mode size) :=
  (setting.inOrder_locating mode size).append (inOrder_reading _ size)

theorem inOrder_branching (displacement : UInt8) :
    InOrderUpTo false 2 (setting.branching displacement) := by
  rw [branching]
  split
  · exact .of_listed rfl rfl
  · split <;> exact .of_listed rfl rfl

theorem inOrder_sourcePhases (source : Source) (size : OperandSize) :
    InOrderUpTo false 5 (setting.sourcePhases source size) := by
  cases source with
  | operand mode => exact setting.inOrder_fetching mode size
  | _ => exact .of_listed rfl rfl

theorem inOrder_destinationPhases (destination : Destination)
    (size : OperandSize) :
    InOrderUpTo false 5 (setting.destinationPhases destination size) := by
  cases destination with
  | operand mode => exact setting.inOrder_fetching mode size
  | store mode => exact setting.inOrder_locating mode size
  | _ => exact .of_listed rfl rfl

end BusSetting

/-! ## Instructions -/

namespace Instruction

open BusPhase

/-- The instructions after which the program counter need not be behind their
words. -/
def changesFlow : Instruction → Bool
  | bcc _ _ | bsr _ | dbcc _ _ | jmp _ | jsr _ | rts | rtr | rtd | rte => true
  | _ => false

/-- No instruction has more than two words that it passes without a use. -/
def IsShort : Instruction → Prop
  | trapcc _ operandWords => operandWords ≤ 2
  | _ => True

theorem decodes_line4_isShort (word : UInt16) :
    Decodes IsShort (decodeLine4 word) := by
  have fixed : Decodes IsShort (decodeLine4Fixed word) := by
    simp only [decodeLine4Fixed]
    repeat' first
      | exact .none
      | exact .some trivial
      | split
  unfold decodeLine4
  split
  · rename_i found same
    rw [← same]
    exact fixed
  · simp only [decodeLeaOrChk, decodeOneOperand]
    repeat' first
      | exact .none
      | exact .guarded fun _ => trivial
      | refine .bind fun _ _ => ?_
      | split

/-- Only line 5 has instructions with words that they pass. -/
theorem decodes_isShort (word : UInt16) : Decodes IsShort (decode? word) := by
  have branch : (decodeBranch word).IsShort := by
    unfold decodeBranch
    split <;> trivial
  have extended (operation : DataOperation) (size : OperandSize) :
      (decodeExtended word operation size).IsShort := by
    simp only [decodeExtended]
    split <;> trivial
  simp only [decode?]
  split
  case h_5 => exact decodes_line4_isShort word
  case h_7 => exact .some branch
  case h_11 | h_16 => exact .some trivial
  all_goals
    simp only [decodeLine0, decodeImmediate, decodeCompareImmediate,
      decodeBitOperation, decodeMove, decodeLine5, decodeConditional,
      decodeQuick, decodeMoveQuick, decodeLine8, decodeWithRegister,
      decodeWithAnyRegister, decodeProduct, decodeOnAddress, decodeAddSub,
      decodeLineB, decodeLineC, decodeShift]
    repeat' first
      | exact .none
      | exact .some trivial
      | exact .some (extended _ _)
      | exact .some (Nat.le_of_ble_eq_true rfl)
      | exact .guarded fun _ => trivial
      | refine .bind fun _ _ => ?_
      | split

/-- The phases of an instruction are in order.  Two kinds of instructions are
left out: where MOVES works is not known from its phases, and a breakpoint
goes back to its opcode. -/
theorem inOrder_phases (setting : BusSetting) {instruction : Instruction}
    (short : instruction.IsShort)
    (known : ∀ size mode, instruction ≠ moves size mode)
    (ordinary : ∀ vector, instruction ≠ bkpt vector) :
    InOrderUpTo instruction.changesFlow 10 (instruction.phases setting) := by
  have locating (mode : AddressingMode) (size : OperandSize) :=
    setting.inOrder_locating mode size
  have fetching (mode : AddressingMode) (size : OperandSize) :=
    setting.inOrder_fetching mode size
  have word : InOrderUpTo false 1 [.word] := .words 1
  have last {jumps : Bool} {phases : List BusPhase}
      (ordered : areInOrder jumps phases = true)
      (few : (limitOf phases).ble 0 = true) : InOrderUpTo jumps 0 phases :=
    .of_listed ordered few
  cases instruction with
  | data instruction =>
      exact (setting.inOrder_sourcePhases _ _).append
        ((setting.inOrder_destinationPhases _ _).append
          (setting.inOrder_storing _))
  | moveToCcr source | moveToSr source =>
      exact (fetching source .word).mono (by decide)
  | lea address destination =>
      exact (locating address .long).mono (by decide)
  | pea address | jmp address | jsr address =>
      exact ((locating address .long).append (last rfl rfl)).mono (by decide)
  | movemStore size mode =>
      have stored : InOrderUpTo false 0 [.writes (.data setting.supervisor)] :=
        .of_listed rfl rfl
      have listed := (word.append ((locating mode size).append stored)).mono
        (show 6 ≤ 10 by decide)
      cases mode with
      | predecrement number => exact .of_listed rfl rfl
      | _ => exact listed
  | movemLoad size mode =>
      have loaded : InOrderUpTo false 0 [.reads (.data setting.supervisor)] :=
        .of_listed rfl rfl
      have listed := (word.append ((locating mode size).append loaded)).mono
        (show 6 ≤ 10 by decide)
      cases mode with
      | postincrement number => exact .of_listed rfl rfl
      | _ => exact listed
  | mull mode | divl mode =>
      exact (word.append (fetching mode .long)).mono (by decide)
  | bcc condition displacement =>
      exact ((setting.inOrder_branching displacement).append
        (last rfl rfl)).mono (by decide)
  | bsr displacement =>
      exact ((setting.inOrder_branching displacement).append
        (last rfl rfl)).mono (by decide)
  | trapcc condition operandWords =>
      exact (InOrderUpTo.words operandWords).mono
        ((show operandWords ≤ 2 from short).trans (by decide))
  | moves size mode => exact absurd rfl (known size mode)
  | bkpt vector => exact absurd rfl (ordinary vector)
  | _ => exact .of_listed rfl rfl

end Instruction

/-! ## Executions -/

section

variable {σ α β : Type}

namespace Machine

/-- Between two machines a number of words was fetched in a row. -/
def Fetched (supervisor : Bool) (count : Nat)
    (start left : Machine (WatchedMemory σ)) : Prop :=
  ∃ requests : List MemoryRequest,
    left.memory.requests = requests.reverse ++ start.memory.requests ∧
      requests.filter MemoryRequest.isFetch =
        wordRequests supervisor start.registers.pc count

variable {supervisor : Bool} {count more : Nat}
variable {start middle left : Machine (WatchedMemory σ)}

theorem Fetched.trans (fetched : Fetched supervisor count start middle)
    (passed : middle.registers.pc = afterWords start.registers.pc count)
    (later : Fetched supervisor more middle left) :
    Fetched supervisor (count + more) start left := by
  obtain ⟨requests, asked, words⟩ := fetched
  obtain ⟨rest, askedLater, moreWords⟩ := later
  refine ⟨requests ++ rest, ?_, ?_⟩
  · rw [askedLater, asked, List.reverse_append, List.append_assoc]
  · rw [List.filter_append, words, moreWords, passed, wordRequests_add]

end Machine

/-- An execution has fetched at most a number of words in a row wherever it
ended.  If it succeeded and did not jump, the program counter is behind
them. -/
def EndedInOrder (supervisor jumps : Bool) (limit : Nat)
    (start : Machine (WatchedMemory σ)) :
    EStateM.Result Fault (Machine (WatchedMemory σ)) α → Prop
  | .ok _ left =>
      ∃ count ≤ limit, Machine.Fetched supervisor count start left ∧
        (jumps = false →
          left.registers.pc = afterWords start.registers.pc count)
  | .error _ left =>
      ∃ count ≤ limit, Machine.Fetched supervisor count start left

def RunsInOrder (setting : BusSetting) (jumps : Bool) (limit : Nat)
    (execution : Execution (WatchedMemory σ) α) : Prop :=
  ∀ start, start.Within setting →
    EndedInOrder setting.supervisor jumps limit start (execution start)

variable {setting : BusSetting} {jumps : Bool} {limit : Nat}
variable {phases : List BusPhase}

theorem Machine.Served.fetched {start left : Machine (WatchedMemory σ)}
    (served : Served setting phases start left)
    (inOrder : BusPhase.InOrderUpTo jumps limit phases) :
    ∃ count ≤ limit, Fetched setting.supervisor count start left ∧
      (jumps = false →
        left.registers.pc = afterWords start.registers.pc count) := by
  obtain ⟨requests, asked, follows⟩ := served
  obtain ⟨count, few, words, passed⟩ := follows.fetches inOrder.ordered
  exact ⟨count, few.trans inOrder.few, ⟨requests, asked, words⟩, passed⟩

theorem Machine.Begun.fetched {start left : Machine (WatchedMemory σ)}
    (begun : Begun setting phases start left)
    (inOrder : BusPhase.InOrderUpTo jumps limit phases) :
    ∃ count ≤ limit, Fetched setting.supervisor count start left := by
  obtain ⟨requests, asked, rest, after, follows⟩ := begun
  obtain ⟨count, few, words, -⟩ := follows.fetches inOrder.ordered
  rw [List.filter_append] at words
  obtain ⟨less, fewer, words⟩ := wordRequests_eq_append _ _ words
  exact ⟨less, fewer.trans (few.trans inOrder.few), requests, asked, words⟩

namespace RunsInOrder

theorem of_closes {execution : Execution (WatchedMemory σ) α}
    (closes : Closes setting phases execution)
    (inOrder : BusPhase.InOrderUpTo jumps limit phases) :
    RunsInOrder setting jumps limit execution := by
  intro start within
  have closed := closes start within
  generalize execution start = result at closed
  cases result with
  | ok value left => exact closed.fetched inOrder
  | error fault left => exact closed.1.fetched inOrder

theorem mono {execution : Execution (WatchedMemory σ) α} {less : Nat}
    {allowed : Bool} (runs : RunsInOrder setting jumps less execution)
    (le : less ≤ limit) (allows : jumps = true → allowed = true) :
    RunsInOrder setting allowed limit execution := by
  intro start within
  have ended := runs start within
  generalize execution start = result at ended
  cases result with
  | ok value left =>
      obtain ⟨count, few, fetched, passed⟩ := ended
      refine ⟨count, few.trans le, fetched, fun jumpless => passed ?_⟩
      exact Bool.eq_false_iff.mpr
        fun jumped => Bool.eq_false_iff.mp jumpless (allows jumped)
  | error fault left =>
      obtain ⟨count, few, fetched⟩ := ended
      exact ⟨count, few.trans le, fetched⟩

/-- What never succeeds does not jump. -/
theorem of_fails {execution : Execution (WatchedMemory σ) α}
    (runs : RunsInOrder setting jumps limit execution)
    (fails : ∀ start value left, execution start ≠ .ok value left) :
    RunsInOrder setting false limit execution := by
  intro start within
  have ended := runs start within
  cases run : execution start with
  | ok value left => exact absurd run (fails start value left)
  | error fault left =>
      rw [run] at ended
      exact ended

/-- What follows a look at the machine. -/
theorem observe_bind {view : Machine (WatchedMemory σ) → α}
    {next : α → Execution (WatchedMemory σ) β}
    (goesOn : ∀ value, RunsInOrder setting jumps limit (next value)) :
    RunsInOrder setting jumps limit (Execution.observe view >>= next) :=
  fun start within => goesOn (view start) start within

theorem ite {condition : Prop} [Decidable condition]
    {first second : Execution (WatchedMemory σ) α}
    (holds : RunsInOrder setting jumps limit first)
    (fails : RunsInOrder setting jumps limit second) :
    RunsInOrder setting jumps limit
      (if condition then first else second) := by
  split
  · exact holds
  · exact fails

end RunsInOrder

theorem Performs.bind_runsInOrder {first : Execution (WatchedMemory σ) α}
    {next : α → Execution (WatchedMemory σ) β} {accepts : α → Prop}
    {less : Nat} (performs : Performs setting phases accepts first)
    (inOrder : BusPhase.InOrderUpTo false less phases) (limit : Nat)
    (goesOn : ∀ value, RunsInOrder setting jumps limit (next value)) :
    RunsInOrder setting jumps (less + limit) (first >>= next) := by
  intro start within
  have performed := performs start within
  rw [Execution.bind_apply]
  generalize first start = result at performed
  cases result with
  | error fault left =>
      obtain ⟨count, few, fetched⟩ := performed.2.fetched inOrder
      exact ⟨count, few.trans (Nat.le_add_right less limit), fetched⟩
  | ok value middle =>
      obtain ⟨-, stays, served⟩ := performed
      obtain ⟨count, few, fetched, passed⟩ := served.fetched inOrder
      have ended := goesOn value middle stays
      simp only
      generalize next value middle = result at ended
      cases result with
      | ok value left =>
          obtain ⟨more, fewer, later, behind⟩ := ended
          refine ⟨count + more, Nat.add_le_add few fewer,
            fetched.trans (passed rfl) later, ?_⟩
          intro jumpless
          rw [behind jumpless, passed rfl, afterWords_add]
      | error fault left =>
          obtain ⟨more, fewer, later⟩ := ended
          exact ⟨count + more, Nat.add_le_add few fewer,
            fetched.trans (passed rfl) later⟩

end

namespace BusSetting

open BusPhase

variable {σ : Type} (setting : BusSetting)

/-- A breakpoint goes back to its opcode, but never succeeds. -/
theorem runsInOrder_bkpt (vector : Fin 8) :
    RunsInOrder setting false 0
      (Execution.bkpt vector : Execution (WatchedMemory σ) Unit) :=
  have inOrder : InOrderUpTo true 0 [.jump] := ⟨rfl, Nat.le_refl 0⟩
  .of_fails (.of_closes (setting.bkpt vector) inOrder)
    (Execution.bkpt_ne_ok vector)

variable [Memory σ]

/-- Wherever MOVES works, it fetches no words there. -/
theorem runsInOrder_moves (size : OperandSize) (mode : AddressingMode) :
    RunsInOrder setting false 6
      (Execution.moves size mode : Execution (WatchedMemory σ) Unit) := by
  have done {phase : BusPhase} (straight : phase.isStraight = true)
      (limit : phase.wordLimit = 0) : InOrderUpTo false 0 [phase] := by
    constructor
    · rw [areInOrder, straight]
      rfl
    · rw [limitOf, List.map_singleton, List.sum_singleton, limit]
  apply setting.fetchWord.bind_runsInOrder (.words 1) 5
  intro extension
  apply (setting.resolveAddress mode size).bind_runsInOrder
    (setting.inOrder_locating mode size) 0
  intro address
  apply RunsInOrder.ite
  · apply RunsInOrder.observe_bind
    intro code
    apply RunsInOrder.observe_bind
    intro value
    have written : Performs setting [.write (.ofBits code) size]
        (fun _ => True)
        (Execution.writeIn (.ofBits code) address size value :
          Execution (WatchedMemory σ) Unit) :=
      setting.writeInPhase fun pc => .write _ size pc address value
    exact .of_closes written.closes (done rfl rfl)
  · apply RunsInOrder.observe_bind
    intro code
    have read : Performs setting [.read (.ofBits code) size]
        (fun _ => True)
        (Execution.readIn (.ofBits code) address size :
          Execution (WatchedMemory σ) UInt32) :=
      setting.readInPhase fun pc => .read _ size pc address
    apply read.bind_runsInOrder (done rfl rfl) 0
    intro value
    cases Register.ofIndex (extension >>> 12).toNat with
    | data number =>
        exact .of_closes
          (setting.writeLocation (.dataRegister number) size value).closes
          ⟨rfl, Nat.le_refl 0⟩
    | address number =>
        exact .of_closes
          (setting.writeLocation (.addressRegister number) size value).closes
          ⟨rfl, Nat.le_refl 0⟩

/-- Every instruction fetches its words in a row, and without a change of the
flow it ends behind them. -/
theorem runsInOrder_execute {instruction : Instruction}
    (short : instruction.IsShort) :
    RunsInOrder setting instruction.changesFlow 10
      (instruction.execute : Execution (WatchedMemory σ) Unit) := by
  by_cases known : ∃ size mode, instruction = .moves size mode
  · obtain ⟨size, mode, rfl⟩ := known
    exact (setting.runsInOrder_moves size mode).mono (by decide) id
  · rcases instruction.bkpt_or_ordinary with ⟨vector, rfl⟩ | ordinary
    · exact (setting.runsInOrder_bkpt vector).mono (by decide) id
    · push Not at known
      exact .of_closes (setting.execute instruction)
        (instruction.inOrder_phases setting short known ordinary)

end BusSetting

/-! ## Machines -/

namespace Machine

variable {σ : Type} [Memory σ] (machine : Machine σ)

theorem endedInOrder_executeOpcode {jumps : Bool}
    (flow : ∀ instruction,
      Instruction.decode? machine.opcode = some instruction →
        instruction.changesFlow = true → jumps = true) :
    EndedInOrder machine.isSupervisor jumps 10
      (machine.withPc (machine.registers.pc + 2)).watched
      (Execution.executeOpcode
        (machine.withPc (machine.registers.pc + 2)).watched) := by
  rw [Execution.executeOpcode]
  split
  · exact ⟨0, Nat.zero_le 10, [], rfl, rfl⟩
  · rename_i instruction admitted
    obtain ⟨decoded, -⟩ := Instruction.admit_eq_ok admitted
    have short := Instruction.decodes_isShort _ instruction decoded
    have runs := machine.busSetting.runsInOrder_execute (σ := σ) short
    exact runs.mono (Nat.le_refl 10) (flow instruction decoded) _ ⟨rfl, rfl⟩

/-- The instruction words that executing the opcode asks for, in their
order. -/
def fetches : List MemoryRequest :=
  machine.requested.reverse.filter MemoryRequest.isFetch

/-- The words after an opcode are fetched in a row from program space, at even
addresses and each once, and also if nothing watches the memory. -/
structure FetchesInRow : Prop where
  row : ∃ count ≤ 10, machine.fetches =
    wordRequests machine.isSupervisor (machine.registers.pc + 2) count
  even : ∀ space address,
    .access space (.fetchWord address) ∈ machine.fetches → address % 2 = 0
  once : machine.fetches.Nodup
  along : Matched RunsAlong
    (Execution.executeOpcode
      (machine.withPc (machine.registers.pc + 2)).watched)
    (Execution.executeOpcode (machine.withPc (machine.registers.pc + 2)))

omit [Memory σ] in
/-- The record of a machine that was watched from the opcode on. -/
theorem Fetched.filter_requests {machine : Machine σ} {count : Nat}
    {left : Machine (WatchedMemory σ)}
    (fetched : Fetched machine.isSupervisor count
      (machine.withPc (machine.registers.pc + 2)).watched left) :
    left.memory.requests.reverse.filter MemoryRequest.isFetch =
      wordRequests machine.isSupervisor (machine.registers.pc + 2) count := by
  obtain ⟨requests, asked, words⟩ := fetched
  have all : left.memory.requests = requests.reverse := by
    rw [asked]
    exact List.append_nil _
  rw [all, List.reverse_reverse]
  exact words

theorem exists_fetches_eq : ∃ count ≤ 10, machine.fetches =
    wordRequests machine.isSupervisor (machine.registers.pc + 2) count := by
  have ended := machine.endedInOrder_executeOpcode fun _ _ _ => rfl
  rw [fetches, requested]
  generalize Execution.executeOpcode
    (machine.withPc (machine.registers.pc + 2)).watched = result at ended ⊢
  cases result with
  | ok value left =>
      obtain ⟨count, few, fetched, -⟩ := ended
      exact ⟨count, few, fetched.filter_requests⟩
  | error fault left =>
      obtain ⟨count, few, fetched⟩ := ended
      exact ⟨count, few, fetched.filter_requests⟩

theorem even_of_mem_fetches {space : FunctionCode} {address : UInt32}
    (member : .access space (.fetchWord address) ∈ machine.fetches) :
    address % 2 = 0 := by
  have listed : .access space (.fetchWord address) ∈ machine.requested :=
    List.mem_reverse.mp (List.mem_of_mem_filter member)
  have start : AskedEvenly machine.model
      (machine.withPc (machine.registers.pc + 2)).watched := by
    constructor
    case data =>
      intro _ _ _ asked
      cases asked
    case fetches =>
      intro _ _ asked
      cases asked
    case model => rfl
  have ends :=
    (askedEvenly_invariant machine.model).ends_executeOpcode start
  rw [requested] at listed
  generalize Execution.executeOpcode
    (machine.withPc (machine.registers.pc + 2)).watched = result
    at ends listed
  cases result with
  | ok value left => exact ends.fetches space _ listed
  | error fault left => exact ends.fetches space _ listed

theorem fetchesInRow : machine.FetchesInRow where
  row := machine.exists_fetches_eq
  even := fun _ _ => machine.even_of_mem_fetches
  once := by
    obtain ⟨count, few, same⟩ := machine.exists_fetches_eq
    rw [same]
    exact nodup_wordRequests _ _ (by omega)
  along := matched_executeOpcode
    (machine.withPc (machine.registers.pc + 2)).watched

end Machine

end M68k

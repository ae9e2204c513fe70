import M68k.Proofs.WatchedMemory

/-!
# The phases of an instruction on the bus

An instruction asks the memory for one thing after another: for its extension
words, its operands and its results.  The order, the spaces and the sizes of
these phases follow from the instruction word alone.  A completed instruction
has served all its phases; one that ended with a fault has served them up to
where it ended.
-/

namespace M68k

namespace Access

/-- The read of an operand. -/
def readsOf (address : UInt32) : OperandSize → List Access
  | .byte => [readByte address]
  | .word => [readWord address]
  | .long => [readLong address]
  | .unsized => []

/-- The write of an operand. -/
def writesOf (address value : UInt32) : OperandSize → List Access
  | .byte => [writeByte address value.toUInt8]
  | .word => [writeWord address value.toUInt16]
  | .long => [writeLong address value]
  | .unsized => []

def IsRead (access : Access) : Prop :=
  ∃ address size, access ∈ readsOf address size

def IsWrite (access : Access) : Prop :=
  ∃ address value size, access ∈ writesOf address value size

/-- An access to a run of bytes. -/
def IsRun : Access → Prop
  | readRun _ _ | writeRun _ _ => True
  | _ => False

end Access

/-- Something that an instruction asks the memory for. -/
inductive BusPhase where
  /-- The next word of the instruction. -/
  | word
  /-- What may follow the first extension word of an indexed operand: further
  words, and the pointer of memory indirect addressing. -/
  | fullExtension
  | read (space : FunctionCode) (size : OperandSize)
  | write (space : FunctionCode) (size : OperandSize)
  /-- Any number of reads. -/
  | reads (space : FunctionCode)
  /-- Any number of writes. -/
  | writes (space : FunctionCode)
  | run (space : FunctionCode)
  /-- At most one access in whatever space. -/
  | alternate
  | devices
  /-- The program counter moves without a word of the instruction. -/
  | jump
deriving DecidableEq, Repr

/-- Requests for a number of words of the instruction. -/
def wordRequests (supervisor : Bool) (pc : UInt32) :
    Nat → List MemoryRequest
  | 0 => []
  | count + 1 =>
      .access (.program supervisor) (.fetchWord pc) ::
        wordRequests supervisor (pc + 2) count

def afterWords (pc : UInt32) : Nat → UInt32
  | 0 => pc
  | count + 1 => afterWords (pc + 2) count

namespace BusPhase

/-- A phase that begins at a program counter is served by some requests, and
leaves a program counter. -/
inductive Serves (supervisor : Bool) :
    BusPhase → UInt32 → List MemoryRequest → UInt32 → Prop where
  | word (pc : UInt32) :
      Serves supervisor word pc
        [.access (.program supervisor) (.fetchWord pc)] (pc + 2)
  | fullExtension (pc : UInt32) (count : Nat) (pointers : List UInt32)
      (few : count ≤ 4) (single : pointers.length ≤ 1) :
      Serves supervisor fullExtension pc
        (wordRequests supervisor pc count ++
          pointers.map (.access (.data supervisor) <| .readLong ·))
        (afterWords pc count)
  | read (space : FunctionCode) (size : OperandSize) (pc address : UInt32) :
      Serves supervisor (read space size) pc
        ((Access.readsOf address size).map (.access space)) pc
  | write (space : FunctionCode) (size : OperandSize)
      (pc address value : UInt32) :
      Serves supervisor (write space size) pc
        ((Access.writesOf address value size).map (.access space)) pc
  | reads (space : FunctionCode) (pc : UInt32) (accesses : List Access)
      (allReads : ∀ access ∈ accesses, access.IsRead) :
      Serves supervisor (reads space) pc (accesses.map (.access space)) pc
  | writes (space : FunctionCode) (pc : UInt32) (accesses : List Access)
      (allWrites : ∀ access ∈ accesses, access.IsWrite) :
      Serves supervisor (writes space) pc (accesses.map (.access space)) pc
  | run (space : FunctionCode) (pc : UInt32) (access : Access)
      (isRun : access.IsRun) :
      Serves supervisor (run space) pc [.access space access] pc
  | alternate (pc : UInt32) (space : FunctionCode) (accesses : List Access)
      (single : accesses.length ≤ 1) :
      Serves supervisor alternate pc (accesses.map (.access space)) pc
  | devices (pc : UInt32) : Serves supervisor devices pc [.reset] pc
  | jump (pc target : UInt32) : Serves supervisor jump pc [] target

/-- Phases are served one after the other. -/
inductive Follows (supervisor : Bool) :
    List BusPhase → UInt32 → List MemoryRequest → UInt32 → Prop where
  | nil (pc : UInt32) : Follows supervisor [] pc [] pc
  | cons {phase : BusPhase} {phases : List BusPhase}
      {pc middle after : UInt32} {requests rest : List MemoryRequest}
      (serves : Serves supervisor phase pc requests middle)
      (follows : Follows supervisor phases middle rest after) :
      Follows supervisor (phase :: phases) pc (requests ++ rest) after

/-- Phases are served up to some point. -/
def Begins (supervisor : Bool) (phases : List BusPhase) (pc : UInt32)
    (requests : List MemoryRequest) : Prop :=
  ∃ rest after, Follows supervisor phases pc (requests ++ rest) after

variable {supervisor : Bool} {phase : BusPhase}
variable {phases first second : List BusPhase}
variable {pc middle after : UInt32} {requests rest : List MemoryRequest}

theorem Serves.follows (serves : Serves supervisor phase pc requests after) :
    Follows supervisor [phase] pc requests after := by
  have served := Follows.cons serves (.nil after)
  rw [List.append_nil] at served
  exact served

theorem Follows.append (begun : Follows supervisor first pc requests middle)
    (follows : Follows supervisor second middle rest after) :
    Follows supervisor (first ++ second) pc (requests ++ rest) after := by
  induction begun with
  | nil pc => exact follows
  | cons serves _ induction =>
      rw [List.append_assoc]
      exact .cons serves (induction follows)

/-- Every phase can be served. -/
theorem exists_serves (supervisor : Bool) (phase : BusPhase) (pc : UInt32) :
    ∃ requests after, Serves supervisor phase pc requests after := by
  cases phase with
  | word => exact ⟨_, _, .word pc⟩
  | fullExtension =>
      exact ⟨_, _, .fullExtension pc 0 [] (Nat.zero_le 4) (Nat.zero_le 1)⟩
  | read space size => exact ⟨_, _, .read space size pc 0⟩
  | write space size => exact ⟨_, _, .write space size pc 0 0⟩
  | reads space => exact ⟨_, _, .reads space pc [] (by simp)⟩
  | writes space => exact ⟨_, _, .writes space pc [] (by simp)⟩
  | run space => exact ⟨_, _, .run space pc (.readRun 0 0) trivial⟩
  | alternate => exact ⟨_, _, .alternate pc .userData [] (Nat.zero_le 1)⟩
  | devices => exact ⟨_, _, .devices pc⟩
  | jump => exact ⟨_, _, .jump pc pc⟩

theorem exists_follows (supervisor : Bool) (phases : List BusPhase)
    (pc : UInt32) :
    ∃ requests after, Follows supervisor phases pc requests after := by
  induction phases generalizing pc with
  | nil => exact ⟨_, _, .nil pc⟩
  | cons phase phases induction =>
      obtain ⟨requests, middle, serves⟩ := exists_serves supervisor phase pc
      obtain ⟨rest, after, follows⟩ := induction middle
      exact ⟨_, _, .cons serves follows⟩

theorem begins_nil (supervisor : Bool) (phases : List BusPhase)
    (pc : UInt32) : Begins supervisor phases pc [] :=
  exists_follows supervisor phases pc

/-- What has been served of the first phases has been served of all. -/
theorem Begins.append (begun : Begins supervisor first pc requests)
    (second : List BusPhase) :
    Begins supervisor (first ++ second) pc requests := by
  obtain ⟨rest, middle, follows⟩ := begun
  obtain ⟨later, after, continued⟩ := exists_follows supervisor second middle
  refine ⟨rest ++ later, after, ?_⟩
  rw [← List.append_assoc]
  exact follows.append continued

theorem Follows.begins (follows : Follows supervisor phases pc requests after) :
    Begins supervisor phases pc requests := by
  refine ⟨[], after, ?_⟩
  rw [List.append_nil]
  exact follows

theorem Follows.append_begins
    (served : Follows supervisor first pc requests middle)
    (begun : Begins supervisor second middle rest) :
    Begins supervisor (first ++ second) pc (requests ++ rest) := by
  obtain ⟨later, after, follows⟩ := begun
  refine ⟨later, after, ?_⟩
  rw [List.append_assoc]
  exact served.append follows

theorem Follows.of_words {count : Nat}
    (follows : Follows supervisor (List.replicate count .word ++ phases) pc
      requests after) :
    ∃ rest, requests = wordRequests supervisor pc count ++ rest ∧
      Follows supervisor phases (afterWords pc count) rest after := by
  induction count generalizing pc requests with
  | zero => exact ⟨requests, rfl, follows⟩
  | succ count induction =>
      cases follows with
      | cons serves follows =>
          cases serves with
          | word pc =>
              obtain ⟨rest, rfl, served⟩ := induction follows
              exact ⟨rest, rfl, served⟩

theorem Follows.of_longRead {space : FunctionCode}
    (follows : Follows supervisor [.read space .long] pc requests after) :
    ∃ address, requests = [.access space (.readLong address)] ∧ after = pc := by
  cases follows with
  | cons serves follows =>
      cases serves with
      | read space size pc address =>
          cases follows with
          | nil pc => exact ⟨address, rfl, rfl⟩

/-- A write before other writes is one of them. -/
theorem Follows.merge_writes {space : FunctionCode} {size : OperandSize}
    (follows : Follows supervisor [.write space size, .writes space] pc
      requests after) :
    Follows supervisor [.writes space] pc requests after := by
  cases follows with
  | cons serves follows =>
      cases serves with
      | write space size pc address value =>
          cases follows with
          | cons serves follows =>
              cases serves with
              | writes space pc accesses allWrites =>
                  cases follows with
                  | nil pc =>
                      rw [List.append_nil, ← List.map_append]
                      apply Serves.follows
                      apply Serves.writes
                      intro access member
                      rcases List.mem_append.mp member with first | later
                      · exact ⟨address, value, size, first⟩
                      · exact allWrites access later

/-- A read before other reads is one of them. -/
theorem Follows.merge_reads {space : FunctionCode} {size : OperandSize}
    (follows : Follows supervisor [.read space size, .reads space] pc
      requests after) :
    Follows supervisor [.reads space] pc requests after := by
  cases follows with
  | cons serves follows =>
      cases serves with
      | read space size pc address =>
          cases follows with
          | cons serves follows =>
              cases serves with
              | reads space pc accesses allReads =>
                  cases follows with
                  | nil pc =>
                      rw [List.append_nil, ← List.map_append]
                      apply Serves.follows
                      apply Serves.reads
                      intro access member
                      rcases List.mem_append.mp member with first | later
                      · exact ⟨address, size, first⟩
                      · exact allReads access later

end BusPhase

end M68k

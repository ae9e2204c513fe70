import M68k.Memory.Flat
import M68k.Proofs.ExecutionSteps
import Mathlib.Algebra.Group.Nat.Defs

/-!
# Flat memory byte by byte

A run of a flat memory is known by its bytes, so what a write does is said for
every index: inside the run the new bytes, outside of it the old ones.  Word and
long accesses are accesses of the run that holds their bytes.
-/

namespace M68k

/-! ## The bytes of words and longs -/

@[simp]
theorem length_bytesOfWord (word : UInt16) : (bytesOfWord word).length = 2 :=
  rfl

@[simp]
theorem length_bytesOfLong (long : UInt32) : (bytesOfLong long).length = 4 :=
  rfl

theorem highByte_joinBytes (high low : UInt8) :
    highByte (joinBytes high low) = high := by
  apply UInt8.toNat_inj.1
  rw [toNat_highByte, toNat_joinBytes]
  have lowBound := low.toNat_lt
  omega

theorem toUInt8_joinBytes (high low : UInt8) :
    (joinBytes high low).toUInt8 = low := by
  apply UInt8.toNat_inj.1
  rw [UInt16.toNat_toUInt8, toNat_joinBytes]
  have lowBound := low.toNat_lt
  omega

theorem bytesOfWord_joinBytes (high low : UInt8) :
    bytesOfWord (joinBytes high low) = [high, low] := by
  rw [bytesOfWord, highByte_joinBytes, toUInt8_joinBytes]

theorem highWord_joinWords (high low : UInt16) :
    highWord (joinWords high low) = high := by
  apply UInt16.toNat_inj.1
  rw [toNat_highWord, toNat_joinWords]
  have lowBound := low.toNat_lt
  omega

theorem toUInt16_joinWords (high low : UInt16) :
    (joinWords high low).toUInt16 = low := by
  apply UInt16.toNat_inj.1
  rw [UInt32.toNat_toUInt16, toNat_joinWords]
  have lowBound := low.toNat_lt
  omega

theorem bytesOfLong_joinWords (high low : UInt16) :
    bytesOfLong (joinWords high low) = bytesOfWord high ++ bytesOfWord low := by
  rw [bytesOfLong, highWord_joinWords, toUInt16_joinWords]

namespace FlatMemory

/-! ## Writing a run -/

private theorem size_overwriteFrom (contents : Array UInt8) (index : Nat)
    (bytes : List (Option UInt8)) :
    (overwrite.go contents index bytes).size = contents.size := by
  induction bytes generalizing contents index with
  | nil => rfl
  | cons byte rest induction =>
      cases byte with
      | none => exact induction contents (index + 1)
      | some byte => simp [overwrite.go, induction]

private theorem getElem?_overwriteFrom_outside (contents : Array UInt8)
    (start index : Nat) (bytes : List (Option UInt8))
    (outside : index < start ∨ start + bytes.length ≤ index) :
    (overwrite.go contents start bytes)[index]? = contents[index]? := by
  induction bytes generalizing contents start with
  | nil => rfl
  | cons byte rest induction =>
      have beyond : index < start + 1 ∨ start + 1 + rest.length ≤ index := by
        simp only [List.length_cons] at outside
        omega
      have different : start ≠ index := by
        simp only [List.length_cons] at outside
        omega
      cases byte with
      | none => exact induction contents (start + 1) beyond
      | some byte =>
          rw [overwrite.go, induction _ _ beyond,
            Array.getElem?_setIfInBounds_ne different]

private theorem getElem?_overwriteFrom_inside (contents : Array UInt8)
    (start offset : Nat) (bytes : List (Option UInt8)) {byte : UInt8}
    (present : bytes[offset]? = some (some byte))
    (covered : start + bytes.length ≤ contents.size) :
    (overwrite.go contents start bytes)[start + offset]? = some byte := by
  induction bytes generalizing contents start offset with
  | nil => simp at present
  | cons first rest induction =>
      simp only [List.length_cons] at covered
      cases offset with
      | zero =>
          obtain rfl : first = some byte := by simpa using present
          rw [overwrite.go, getElem?_overwriteFrom_outside _ _ _ _
            (.inl (by omega)), Nat.add_zero,
            Array.getElem?_setIfInBounds_self_of_lt (by omega)]
      | succ offset =>
          have later : rest[offset]? = some (some byte) := by
            simpa using present
          have shifted : start + (offset + 1) = start + 1 + offset := by omega
          cases first with
          | none =>
              rw [overwrite.go, shifted]
              exact induction contents (start + 1) offset later (by omega)
          | some other =>
              rw [overwrite.go, shifted]
              exact induction _ (start + 1) offset later (by simp; omega)

private theorem getElem?_overwriteFrom_skipped (contents : Array UInt8)
    (start offset : Nat) (bytes : List (Option UInt8))
    (skipped : ∀ byte, bytes[offset]? ≠ some (some byte)) :
    (overwrite.go contents start bytes)[start + offset]? =
      contents[start + offset]? := by
  induction bytes generalizing contents start offset with
  | nil => rfl
  | cons first rest induction =>
      cases offset with
      | zero =>
          cases first with
          | some byte => exact absurd rfl (skipped byte)
          | none =>
              rw [overwrite.go]
              exact getElem?_overwriteFrom_outside _ _ _ _
                (.inl (Nat.lt_succ_self start))
      | succ offset =>
          have later : ∀ byte, rest[offset]? ≠ some (some byte) := by
            simpa using skipped
          have shifted : start + (offset + 1) = start + 1 + offset := by omega
          cases first with
          | none =>
              rw [overwrite.go, shifted]
              exact induction contents (start + 1) offset later
          | some byte =>
              rw [overwrite.go, shifted, induction _ (start + 1) offset later,
                Array.getElem?_setIfInBounds_ne (by omega)]

theorem size_overwrite (memory : FlatMemory) (address : UInt32)
    (bytes : List (Option UInt8)) :
    (memory.overwrite address bytes).size = memory.size :=
  size_overwriteFrom _ _ _

theorem getElem?_overwrite_outside (memory : FlatMemory) (address : UInt32)
    (bytes : List (Option UInt8)) {index : Nat}
    (outside : index < address.toNat ∨
      address.toNat + bytes.length ≤ index) :
    (memory.overwrite address bytes).bytes[index]? = memory.bytes[index]? :=
  getElem?_overwriteFrom_outside _ _ _ _ outside

/-- A byte of a run that is not given is kept. -/
theorem getElem?_overwrite_skipped (memory : FlatMemory) (address : UInt32)
    {bytes : List (Option UInt8)} {offset : Nat}
    (skipped : ∀ byte, bytes[offset]? ≠ some (some byte)) :
    (memory.overwrite address bytes).bytes[address.toNat + offset]? =
      memory.bytes[address.toNat + offset]? :=
  getElem?_overwriteFrom_skipped _ _ _ _ skipped

theorem getElem?_overwrite_given (memory : FlatMemory) (address : UInt32)
    {bytes : List (Option UInt8)} {offset : Nat} {byte : UInt8}
    (covered : address.toNat + bytes.length ≤ memory.size)
    (given : bytes[offset]? = some (some byte)) :
    (memory.overwrite address bytes).bytes[address.toNat + offset]? =
      some byte :=
  getElem?_overwriteFrom_inside _ _ _ _ given covered

theorem getElem?_overwrite_inside (memory : FlatMemory) (address : UInt32)
    (bytes : List UInt8) {offset : Nat}
    (covered : address.toNat + bytes.length ≤ memory.size)
    (inside : offset < bytes.length) :
    (memory.overwrite address (bytes.map some)).bytes[address.toNat + offset]? =
      bytes[offset]? := by
  rw [List.getElem?_eq_getElem inside]
  exact getElem?_overwriteFrom_inside _ _ _ _ (by simp [inside])
    (by rw [List.length_map]; exact covered)

/-! ## Reading a run -/

theorem run?_eq_some_iff {memory : FlatMemory} {address : UInt32}
    {length : Nat} {bytes : List UInt8} :
    memory.run? address length = some bytes ↔
      address.toNat + length ≤ memory.size ∧ bytes.length = length ∧
        ∀ offset < length,
          memory.bytes[address.toNat + offset]? = bytes[offset]? := by
  have lookup : ∀ offset < length,
      (memory.run address length)[offset]? =
        memory.bytes[address.toNat + offset]? := by
    intro offset inside
    simp only [run, Array.getElem?_toList, Array.getElem?_extract]
    by_cases mapped : address.toNat + offset < memory.bytes.size
    · rw [if_pos (by omega)]
    · rw [if_neg (by omega), Array.getElem?_eq_none (by omega)]
  simp only [run?, covers, decide_eq_true_eq, Option.ite_none_right_eq_some,
    Option.some.injEq]
  constructor
  · rintro ⟨covered, rfl⟩
    refine ⟨covered, ?_, fun offset inside => (lookup offset inside).symm⟩
    simp only [size] at covered
    simp [run]
    omega
  · rintro ⟨covered, sized, agree⟩
    refine ⟨covered, List.ext_getElem? fun offset => ?_⟩
    by_cases inside : offset < length
    · rw [lookup offset inside, agree offset inside]
    · simp only [size] at covered
      rw [List.getElem?_eq_none (by simp [run]; omega),
        List.getElem?_eq_none (by omega)]

/-- A part of a run that lies in the memory is the run of that part. -/
theorem run?_part {memory : FlatMemory} {address : UInt32} {length : Nat}
    {bytes : List UInt8} (read : memory.run? address length = some bytes)
    (offset : UInt32) {count : Nat} (inside : offset.toNat + count ≤ length)
    (unwrapped : address.toNat + offset.toNat < 2 ^ 32) :
    memory.run? (address + offset) count =
      some ((bytes.drop offset.toNat).take count) := by
  obtain ⟨covered, sized, found⟩ := run?_eq_some_iff.1 read
  have position :
      (address + offset).toNat = address.toNat + offset.toNat := by
    rw [UInt32.toNat_add, Nat.mod_eq_of_lt unwrapped]
  refine run?_eq_some_iff.2 ⟨by omega, by simp; omega, ?_⟩
  intro index early
  rw [position, Nat.add_assoc, found _ (by omega), List.getElem?_take,
    if_pos early, List.getElem?_drop]

/-- A run reads alike in memories that agree on its bytes. -/
theorem run?_congr {left right : FlatMemory} {address : UInt32} {length : Nat}
    {bytes : List UInt8} (sized : left.size = right.size)
    (agree : ∀ offset < length, left.bytes[address.toNat + offset]? =
      right.bytes[address.toNat + offset]?)
    (read : left.run? address length = some bytes) :
    right.run? address length = some bytes := by
  obtain ⟨covered, count, found⟩ := run?_eq_some_iff.1 read
  refine run?_eq_some_iff.2 ⟨sized ▸ covered, count, ?_⟩
  intro offset inside
  rw [← found offset inside, agree offset inside]

/-- A word that lies in the memory can be read. -/
theorem exists_run?_word {memory : FlatMemory} {address : UInt32}
    (covered : address.toNat + 2 ≤ memory.size) :
    ∃ word, memory.run? address 2 = some (bytesOfWord word) := by
  have present : memory.run? address 2 = some (memory.run address 2) := by
    rw [run?, covers, if_pos (by simpa using covered)]
  obtain ⟨-, sized, -⟩ := run?_eq_some_iff.1 present
  match bytes : memory.run address 2, sized with
  | [high, low], _ =>
      exact ⟨joinBytes high low, by
        rw [present, bytes, bytesOfWord_joinBytes]⟩

/-- Two memories of one size agree outside of a range of indices. -/
def AgreeOutside (start length : Nat) (left right : FlatMemory) : Prop :=
  left.size = right.size ∧
    ∀ index, index < start ∨ start + length ≤ index →
      left.bytes[index]? = right.bytes[index]?

theorem agreeOutside_overwrite (memory : FlatMemory) (address : UInt32)
    (bytes : List (Option UInt8)) :
    AgreeOutside address.toNat bytes.length (memory.overwrite address bytes)
      memory :=
  ⟨memory.size_overwrite address bytes,
    fun _ outside => memory.getElem?_overwrite_outside address bytes outside⟩

private theorem overwriteFrom_append (contents : Array UInt8) (index : Nat)
    (first second : List (Option UInt8)) :
    overwrite.go contents index (first ++ second) =
      overwrite.go (overwrite.go contents index first) (index + first.length)
        second := by
  induction first generalizing contents index with
  | nil => rfl
  | cons byte rest induction =>
      have shifted : index + (byte :: rest).length =
          index + 1 + rest.length := by
        simp only [List.length_cons]
        omega
      cases byte with
      | none =>
          rw [List.cons_append, overwrite.go, induction, shifted]
          rfl
      | some byte =>
          rw [List.cons_append, overwrite.go, induction, shifted]
          rfl

/-- Writing a run and the run after it is writing both as one. -/
theorem overwrite_overwrite (memory : FlatMemory) {first second : UInt32}
    (written bytes : List (Option UInt8))
    (adjacent : second.toNat = first.toNat + written.length) :
    (memory.overwrite first written).overwrite second bytes =
      memory.overwrite first (written ++ bytes) := by
  simp only [overwrite, adjacent, overwriteFrom_append]

private theorem overwriteFrom_setIfInBounds (contents : Array UInt8)
    (index start : Nat) (byte : UInt8) (bytes : List (Option UInt8))
    (before : index < start) :
    overwrite.go (contents.setIfInBounds index byte) start bytes =
      (overwrite.go contents start bytes).setIfInBounds index byte := by
  induction bytes generalizing contents start with
  | nil => rfl
  | cons first rest induction =>
      have different : index ≠ start := by omega
      cases first with
      | none => exact induction _ _ (by omega)
      | some first =>
          rw [overwrite.go, overwrite.go,
            Array.setIfInBounds_comm byte first different]
          exact induction _ _ (by omega)

private theorem overwriteFrom_comm (contents : Array UInt8)
    {first second : Nat} (written bytes : List (Option UInt8))
    (apart : first + written.length ≤ second) :
    overwrite.go (overwrite.go contents second bytes) first written =
      overwrite.go (overwrite.go contents first written) second bytes := by
  induction written generalizing contents first with
  | nil => rfl
  | cons byte rest induction =>
      simp only [List.length_cons] at apart
      cases byte with
      | none => exact induction _ (by omega)
      | some byte =>
          rw [overwrite.go, overwrite.go,
            ← overwriteFrom_setIfInBounds _ _ _ _ _ (by omega)]
          exact induction _ (by omega)

/-- Writing a run and the run before it is writing both as one. -/
theorem overwrite_overwrite_before (memory : FlatMemory)
    {first second : UInt32} (written bytes : List (Option UInt8))
    (adjacent : second.toNat = first.toNat + written.length) :
    (memory.overwrite second bytes).overwrite first written =
      memory.overwrite first (written ++ bytes) := by
  rw [← overwrite_overwrite memory written bytes adjacent]
  simp only [overwrite]
  rw [overwriteFrom_comm _ _ _ (by omega)]

theorem run?_overwrite_self (memory : FlatMemory) (address : UInt32)
    (bytes : List UInt8)
    (covered : address.toNat + bytes.length ≤ memory.size) :
    (memory.overwrite address (bytes.map some)).run? address bytes.length =
      some bytes := by
  refine run?_eq_some_iff.2 ⟨?_, rfl, ?_⟩
  · rw [size_overwrite]
    exact covered
  · intro offset inside
    exact memory.getElem?_overwrite_inside address bytes covered inside

/-! ## Writing several runs -/

/-- The memory with runs written one after the other. -/
def overwriteAll (memory : FlatMemory) (runs : List (UInt32 × List UInt8)) :
    FlatMemory :=
  runs.foldl (fun memory run => memory.overwrite run.1 (run.2.map some)) memory

/-- Two runs have no byte in common. -/
def Apart (first second : UInt32 × List UInt8) : Prop :=
  first.1.toNat + first.2.length ≤ second.1.toNat ∨
    second.1.toNat + second.2.length ≤ first.1.toNat

/-- A run still reads as its bytes when runs apart from it are written. -/
theorem run?_overwriteAll_apart {memory : FlatMemory}
    {run : UInt32 × List UInt8} {runs : List (UInt32 × List UInt8)}
    (read : memory.run? run.1 run.2.length = some run.2)
    (apart : ∀ other ∈ runs, Apart run other) :
    (memory.overwriteAll runs).run? run.1 run.2.length = some run.2 := by
  induction runs generalizing memory with
  | nil => exact read
  | cons first rest induction =>
      have away : Apart run first := apart first List.mem_cons_self
      apply induction
      · apply run?_congr (memory.size_overwrite first.1 _).symm ?_ read
        intro offset inside
        symm
        apply getElem?_overwrite_outside
        rw [List.length_map]
        rcases away with before | after
        · left
          omega
        · right
          omega
      · intro other member
        exact apart other (List.mem_cons_of_mem first member)

/-- Written runs that have no byte in common all read as written. -/
theorem run?_overwriteAll {memory : FlatMemory}
    {runs : List (UInt32 × List UInt8)} (apart : runs.Pairwise Apart)
    (covered : ∀ run ∈ runs, run.1.toNat + run.2.length ≤ memory.size)
    {run : UInt32 × List UInt8} (member : run ∈ runs) :
    (memory.overwriteAll runs).run? run.1 run.2.length = some run.2 := by
  induction runs generalizing memory with
  | nil => cases member
  | cons first rest induction =>
      rw [List.pairwise_cons] at apart
      rcases List.mem_cons.mp member with rfl | later
      · apply run?_overwriteAll_apart ?_ apart.1
        exact run?_overwrite_self _ _ _ (covered run List.mem_cons_self)
      · apply induction apart.2 ?_ later
        intro other member
        rw [size_overwrite]
        exact covered other (List.mem_cons_of_mem first member)

/-! ## Words and longs -/

theorem readWord_eq_ok_iff {memory left : FlatMemory} {address : UInt32}
    {value : UInt16} :
    readWord address memory = .ok value left ↔
      left = memory ∧ memory.run? address 2 = some (bytesOfWord value) := by
  simp only [readWord, readRun, bind, EStateM.bind]
  cases read : memory.run? address 2 with
  | none => simp
  | some bytes =>
      obtain ⟨-, sized, -⟩ := run?_eq_some_iff.1 read
      match bytes, sized with
      | [high, low], _ =>
          constructor
          · intro joined
            obtain ⟨rfl, rfl⟩ : joinBytes high low = value ∧ memory = left := by
              simpa [pure, EStateM.pure] using joined
            exact ⟨rfl, by rw [bytesOfWord_joinBytes]⟩
          · rintro ⟨rfl, same⟩
            have parts : high = highByte value ∧ low = value.toUInt8 := by
              simpa [bytesOfWord] using same
            rw [parts.1, parts.2]
            simp [pure, EStateM.pure, joinBytes_highByte]

/-- A refused read leaves the memory alone. -/
theorem readWord_eq_error {memory left : FlatMemory}
    {address : UInt32} (run : readWord address memory = .error () left) :
    left = memory := by
  simp only [readWord, readRun, bind, EStateM.bind] at run
  cases read : memory.run? address 2 with
  | none =>
      rw [read] at run
      cases run
      rfl
  | some bytes =>
      obtain ⟨-, sized, -⟩ := run?_eq_some_iff.1 read
      match bytes, sized with
      | [high, low], _ =>
          rw [read] at run
          cases run

theorem readLong_eq_ok_iff {memory left : FlatMemory} {address : UInt32}
    {value : UInt32} :
    readLong address memory = .ok value left ↔
      left = memory ∧ memory.run? address 4 = some (bytesOfLong value) := by
  simp only [readLong, readRun, bind, EStateM.bind]
  cases read : memory.run? address 4 with
  | none => simp
  | some bytes =>
      obtain ⟨-, sized, -⟩ := run?_eq_some_iff.1 read
      match bytes, sized with
      | [first, second, third, fourth], _ =>
          constructor
          · intro joined
            obtain ⟨rfl, rfl⟩ :
                joinWords (joinBytes first second) (joinBytes third fourth) =
                  value ∧ memory = left := by
              simpa [pure, EStateM.pure] using joined
            exact ⟨rfl, by
              rw [bytesOfLong_joinWords, bytesOfWord_joinBytes,
                bytesOfWord_joinBytes]
              rfl⟩
          · rintro ⟨rfl, same⟩
            have parts : first = highByte (highWord value) ∧
                second = (highWord value).toUInt8 ∧
                third = highByte value.toUInt16 ∧
                fourth = value.toUInt16.toUInt8 := by
              simpa [bytesOfLong, bytesOfWord] using same
            obtain ⟨rfl, rfl, rfl, rfl⟩ := parts
            simp only [pure, EStateM.pure, joinBytes_highByte,
              joinWords_highWord]

theorem readLong_eq_error {memory left : FlatMemory}
    {address : UInt32} (run : readLong address memory = .error () left) :
    left = memory := by
  simp only [readLong, readRun, bind, EStateM.bind] at run
  cases read : memory.run? address 4 with
  | none =>
      rw [read] at run
      cases run
      rfl
  | some bytes =>
      obtain ⟨-, sized, -⟩ := run?_eq_some_iff.1 read
      match bytes, sized with
      | [first, second, third, fourth], _ =>
          rw [read] at run
          cases run

theorem writeRun_eq_ok_iff {memory left : FlatMemory} {address : UInt32}
    {bytes : List (Option UInt8)} :
    writeRun address bytes memory = .ok () left ↔
      address.toNat + bytes.length ≤ memory.size ∧
        left = memory.overwrite address bytes := by
  simp only [writeRun, overwrite?, covers, decide_eq_true_eq]
  by_cases covered : address.toNat + bytes.length ≤ memory.size
  · simp [covered, eq_comm]
  · simp [covered]

/-- A granted write is the replacement of its run. -/
theorem writeRun_granted {memory : FlatMemory} {address : UInt32}
    {bytes : List (Option UInt8)}
    (granted : (writeRun address bytes).isGranted memory = true) :
    address.toNat + bytes.length ≤ memory.size ∧
      (writeRun address bytes).leaves memory =
        memory.overwrite address bytes :=
  writeRun_eq_ok_iff.1 (Bus.isGranted_iff.mp granted)

end FlatMemory

namespace Execution

theorem readData_word_flat {machine : Machine FlatMemory} {address : UInt32}
    {value : UInt16} (aligned : machine.misaligned address = false)
    (bytes : machine.memory.run? address 2 = some (bytesOfWord value)) :
    readData address .word machine = .ok value.toUInt32 machine := by
  have read (space : FunctionCode) :
      onBus (Memory.readWord address space) machine = .ok value machine :=
    onBus_ok (FlatMemory.readWord_eq_ok_iff.2 ⟨rfl, bytes⟩)
  simp only [readData, readIn, dataSpace, observe, bind_apply,
    checkAlignment_ok aligned, read, pure_apply]

theorem readData_long_flat {machine : Machine FlatMemory} {address : UInt32}
    {value : UInt32} (aligned : machine.misaligned address = false)
    (bytes : machine.memory.run? address 4 = some (bytesOfLong value)) :
    readData address .long machine = .ok value machine := by
  have read (space : FunctionCode) :
      onBus (Memory.readLong address space) machine = .ok value machine :=
    onBus_ok (FlatMemory.readLong_eq_ok_iff.2 ⟨rfl, bytes⟩)
  simp only [readData, readIn, dataSpace, observe, bind_apply,
    checkAlignment_ok aligned, read]

/-- The prefetched opcode is the word in memory at the program counter, which is
even. -/
theorem prefetch_flat {machine left : Machine FlatMemory} :
    prefetch machine = .ok () left ↔
      machine.registers.pc % 2 = 0 ∧
        ∃ word, machine.memory.run? machine.registers.pc 2 =
            some (bytesOfWord word) ∧
          left = { machine with opcode := word } := by
  have fetch : ∀ space,
      (Memory.fetchWord machine.registers.pc space : Bus FlatMemory UInt16) =
        FlatMemory.readWord machine.registers.pc := fun _ => rfl
  simp only [prefetch, instructionWordAt, pc, programSpace, setOpcode, observe,
    update, bind_apply, ite_apply, throw_apply, fetch]
  by_cases even : machine.registers.pc % 2 = 0
  · simp only [even, ne_eq, not_true_eq_false, if_false, true_and]
    constructor
    · intro fetched
      cases read : onBus (FlatMemory.readWord machine.registers.pc) machine with
      | error fault after => simp [read] at fetched
      | ok word after =>
          obtain ⟨memory, found, rfl⟩ := onBus_eq_ok read
          obtain ⟨rfl, bytes⟩ := FlatMemory.readWord_eq_ok_iff.1 found
          rw [read] at fetched
          cases fetched
          exact ⟨word, bytes, rfl⟩
    · rintro ⟨word, bytes, rfl⟩
      rw [onBus_ok (FlatMemory.readWord_eq_ok_iff.2 ⟨rfl, bytes⟩)]
  · simp [even]

/-- The next word in memory is fetched and passed. -/
theorem fetchWord_flat {machine : Machine FlatMemory} {word : UInt16}
    (even : machine.registers.pc % 2 = 0)
    (present : machine.memory.run? machine.registers.pc 2 =
      some (bytesOfWord word)) :
    fetchWord machine =
      .ok word (machine.withPc (machine.registers.pc + 2)) :=
  fetchWord_of_granted even
    (FlatMemory.readWord_eq_ok_iff.2 ⟨rfl, present⟩)

/-- A failed prefetch leaves the machine alone. -/
theorem prefetch_flat_error {machine left : Machine FlatMemory}
    {fault : Fault} (run : prefetch machine = .error fault left) :
    left = machine ∧ (fault = .busError ∨ fault = .addressError) := by
  have fetch : ∀ space,
      (Memory.fetchWord machine.registers.pc space : Bus FlatMemory UInt16) =
        FlatMemory.readWord machine.registers.pc := fun _ => rfl
  simp only [prefetch, instructionWordAt, pc, programSpace, setOpcode, observe,
    update, bind_apply, ite_apply, throw_apply, fetch] at run
  by_cases even : machine.registers.pc % 2 = 0
  · simp only [even, ne_eq, not_true_eq_false, if_false, onBus] at run
    cases read : FlatMemory.readWord machine.registers.pc machine.memory with
    | ok word memory =>
        rw [read] at run
        cases run
    | error refusal memory =>
        rw [read] at run
        cases run
        constructor
        · rw [FlatMemory.readWord_eq_error read]
        · exact .inl rfl
  · simp only [even, ne_eq, not_false_eq_true, if_true] at run
    cases run
    exact ⟨rfl, .inr rfl⟩

end Execution

end M68k

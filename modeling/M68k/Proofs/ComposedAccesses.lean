import M68k.Proofs.FlatMemoryBytes

/-!
# Words and longs composed from bytes

A memory that says nothing about words and longs gets them composed from bytes.
Flat memory reads and writes them as one run instead.  Both give the same
answers, and granted writes leave the same bytes, as long as the memory ends
before its addresses do: in a memory of every address a composed access goes on
at address zero, where a run has ended.  Refused writes differ.  A run is
written whole or not at all, and a composed write stops where the memory ends.
-/

namespace M68k

/-- A memory with its own bytes, of which words and longs are composed. -/
@[reducible]
def Memory.composed {σ : Type} (memory : Memory σ) : Memory σ where
  readByte := memory.readByte
  writeByte := memory.writeByte
  readRun := memory.readRun
  writeRun := memory.writeRun
  resetDevices := memory.resetDevices

namespace FlatMemory

/-- Flat memory without accesses of its own to words and longs. -/
@[reducible]
def composed : Memory FlatMemory :=
  Memory.composed inferInstance

/-! ## Runs in two parts -/

section

variable {memory : FlatMemory} {address : UInt32}

/-- Addresses do not wrap within a memory that ends before they do. -/
theorem toNat_add_of_covered (small : memory.size < 2 ^ 32) {length : Nat}
    (covered : address.toNat + length ≤ memory.size) :
    (address + UInt32.ofNat length).toNat = address.toNat + length := by
  have width : (UInt32.ofNat length).toNat = length :=
    UInt32.toNat_ofNat_of_lt' (by rw [UInt32.size]; omega)
  rw [UInt32.toNat_add, width, Nat.mod_eq_of_lt (by omega)]

/-- A run is two runs, one after the other. -/
theorem run?_append_iff (small : memory.size < 2 ^ 32)
    {first second : List UInt8} :
    memory.run? address (first.length + second.length) =
        some (first ++ second) ↔
      memory.run? address first.length = some first ∧
        memory.run? (address + UInt32.ofNat first.length) second.length =
          some second := by
  simp only [run?_eq_some_iff, List.length_append, true_and]
  constructor
  · rintro ⟨covered, found⟩
    have position := toNat_add_of_covered small
      (by omega : address.toNat + first.length ≤ memory.size)
    refine ⟨⟨by omega, ?_⟩, by omega, ?_⟩
    · intro offset inside
      rw [found offset (by omega), List.getElem?_append_left inside]
    · intro offset inside
      rw [position, Nat.add_assoc, found _ (by omega),
        List.getElem?_append_right (Nat.le_add_right _ _),
        Nat.add_sub_cancel_left]
  · rintro ⟨⟨covered, found⟩, coveredToo, foundToo⟩
    rw [toNat_add_of_covered small covered] at coveredToo foundToo
    refine ⟨by omega, ?_⟩
    intro offset inside
    by_cases early : offset < first.length
    · rw [found offset early, List.getElem?_append_left early]
    · have late := foundToo (offset - first.length) (by omega)
      rw [Nat.add_assoc, Nat.add_sub_cancel' (Nat.le_of_not_lt early)] at late
      rw [late, List.getElem?_append_right (Nat.le_of_not_lt early)]

end

/-! ## Reads -/

section

variable {α β γ : Type}

/-- A transaction reads a run and answers with the value whose bytes these
are. -/
structure Reads (transaction : Bus FlatMemory α) (address : UInt32)
    (length : Nat) (bytesOf : α → List UInt8) : Prop where
  answers : ∀ {memory left value}, memory.size < 2 ^ 32 →
    (transaction memory = .ok value left ↔
      left = memory ∧ memory.run? address length = some (bytesOf value))
  refuses : ∀ {memory left}, memory.size < 2 ^ 32 →
    transaction memory = .error () left → left = memory

namespace Reads

variable {address : UInt32} {length : Nat} {bytesOf : α → List UInt8}

/-- There is one way to read a run. -/
theorem unique {first second : Bus FlatMemory α}
    (reads : Reads first address length bytesOf)
    (readsToo : Reads second address length bytesOf) {memory : FlatMemory}
    (small : memory.size < 2 ^ 32) : first memory = second memory := by
  cases run : first memory with
  | ok value left =>
      have found := (reads.answers small).mp run
      exact ((readsToo.answers small).mpr found).symm
  | error refusal left =>
      cases other : second memory with
      | ok value left =>
          have found := (readsToo.answers small).mp other
          rw [(reads.answers small).mpr found] at run
          cases run
      | error refusalToo leftToo =>
          rw [reads.refuses small run, readsToo.refuses small other]

theorem readByte (address : UInt32) :
    Reads (FlatMemory.readByte address) address 1 fun byte => [byte] where
  answers := by
    intro memory left value small
    have lookup : memory.run? address 1 = some [value] ↔
        memory.bytes[address.toNat]? = some value := by
      rw [run?_eq_some_iff, size]
      constructor
      · rintro ⟨-, -, found⟩
        exact found 0 Nat.zero_lt_one
      · intro found
        obtain ⟨covered, -⟩ := Array.getElem?_eq_some_iff.mp found
        refine ⟨covered, rfl, ?_⟩
        intro offset inside
        obtain rfl : offset = 0 := by omega
        exact found
    rw [lookup, FlatMemory.readByte]
    cases memory.bytes[address.toNat]? <;> simp [and_comm, eq_comm]
  refuses := by
    intro memory left small refused
    rw [FlatMemory.readByte] at refused
    split at refused
    · cases refused
    · cases refused
      rfl

/-- Values read one after the other are joined as their bytes are. -/
theorem join {first : Bus FlatMemory α} {second : Bus FlatMemory β}
    {join : α → β → γ} {width rest : Nat} {upper : α → List UInt8}
    {lower : β → List UInt8} {whole : γ → List UInt8}
    (reads : Reads first address width upper)
    (readsRest : Reads second (address + UInt32.ofNat width) rest lower)
    (sized : ∀ high, (upper high).length = width)
    (sizedRest : ∀ low, (lower low).length = rest)
    (parts : ∀ high low, whole (join high low) = upper high ++ lower low)
    (onto : ∀ value, ∃ high low, join high low = value) :
    Reads (do return join (← first) (← second)) address (width + rest)
      whole where
  answers := by
    intro memory left value small
    have split (high : α) (low : β) :
        memory.run? address (width + rest) = some (whole (join high low)) ↔
          memory.run? address width = some (upper high) ∧
            memory.run? (address + UInt32.ofNat width) rest =
              some (lower low) := by
      rw [parts, ← sized high, ← sizedRest low]
      exact run?_append_iff small
    simp only [bind, EStateM.bind, pure, EStateM.pure]
    constructor
    · intro run
      cases firstRun : first memory with
      | error refusal middle =>
          rw [firstRun] at run
          cases run
      | ok high middle =>
          obtain ⟨rfl, highRead⟩ := (reads.answers small).mp firstRun
          cases secondRun : second middle with
          | error refusal after =>
              simp only [firstRun, secondRun] at run
              cases run
          | ok low after =>
              obtain ⟨rfl, lowRead⟩ := (readsRest.answers small).mp secondRun
              simp only [firstRun, secondRun] at run
              cases run
              exact ⟨rfl, (split high low).mpr ⟨highRead, lowRead⟩⟩
    · rintro ⟨rfl, read⟩
      obtain ⟨high, low, rfl⟩ := onto value
      obtain ⟨highRead, lowRead⟩ := (split high low).mp read
      simp only [(reads.answers small).mpr ⟨rfl, highRead⟩,
        (readsRest.answers small).mpr ⟨rfl, lowRead⟩]
  refuses := by
    intro memory left small refused
    simp only [bind, EStateM.bind, pure, EStateM.pure] at refused
    cases firstRun : first memory with
    | error refusal middle =>
        rw [firstRun] at refused
        cases refused
        exact reads.refuses small firstRun
    | ok high middle =>
        obtain ⟨rfl, -⟩ := (reads.answers small).mp firstRun
        cases secondRun : second middle with
        | error refusal after =>
            simp only [firstRun, secondRun] at refused
            cases refused
            exact readsRest.refuses small secondRun
        | ok low after =>
            simp only [firstRun, secondRun] at refused
            cases refused

/-! Words and longs, read as runs and composed of bytes. -/

theorem readWord (address : UInt32) :
    Reads (FlatMemory.readWord address) address 2 bytesOfWord where
  answers _ := readWord_eq_ok_iff
  refuses _ := readWord_eq_error

theorem readLong (address : UInt32) :
    Reads (FlatMemory.readLong address) address 4 bytesOfLong where
  answers _ := readLong_eq_ok_iff
  refuses _ := readLong_eq_error

theorem readWordBytewise (address : UInt32) :
    Reads (Bus.readWordBytewise FlatMemory.readByte address) address 2
      bytesOfWord := by
  refine (readByte address).join (readByte (address + 1)) (fun _ => rfl)
    (fun _ => rfl) bytesOfWord_joinBytes ?_
  intro value
  exact ⟨highByte value, value.toUInt8, joinBytes_highByte value⟩

theorem readLongWordwise (address : UInt32) :
    Reads (Bus.readLongWordwise
      (Bus.readWordBytewise FlatMemory.readByte) address) address 4
      bytesOfLong := by
  refine (readWordBytewise address).join (readWordBytewise (address + 2))
    (fun _ => rfl) (fun _ => rfl) bytesOfLong_joinWords ?_
  intro value
  exact ⟨highWord value, value.toUInt16, joinWords_highWord value⟩

end Reads

end

/-! ## Writes -/

/-- A transaction stores the bytes of a run one after the other, until the
memory ends. -/
def Stores (transaction : Bus FlatMemory Unit) (address : UInt32)
    (bytes : List UInt8) : Prop :=
  ∀ memory : FlatMemory, memory.size < 2 ^ 32 →
    transaction memory =
      if memory.covers address bytes.length then
        .ok () (memory.overwrite address (bytes.map some))
      else
        .error () (memory.overwrite address
          ((bytes.take (memory.size - address.toNat)).map some))

namespace Stores

theorem writeByte (address : UInt32) (value : UInt8) :
    Stores (FlatMemory.writeByte address value) address [value] := by
  intro memory small
  simp only [FlatMemory.writeByte, writeRun, overwrite?, List.length_cons,
    List.length_nil]
  by_cases covered : memory.covers address 1 = true
  · rw [if_pos covered, if_pos covered]
    rfl
  · have nothing : memory.size - address.toNat = 0 := by
      simp only [covers, decide_eq_true_eq] at covered
      omega
    rw [if_neg covered, if_neg covered, nothing]
    rfl

/-- Bytes stored one after the other are stored as one run. -/
theorem append {first second : Bus FlatMemory Unit} {address : UInt32}
    {bytes rest : List UInt8} (stores : Stores first address bytes)
    (storesRest :
      Stores second (address + UInt32.ofNat bytes.length) rest) :
    Stores (do first; second) address (bytes ++ rest) := by
  intro memory small
  simp only [bind, EStateM.bind, stores memory small, List.length_append,
    covers, decide_eq_true_eq]
  by_cases covered : address.toNat + bytes.length ≤ memory.size
  · have position := toNat_add_of_covered small covered
    have sized := memory.size_overwrite address (bytes.map some)
    have adjacent (later : List UInt8) :
        (memory.overwrite address (bytes.map some)).overwrite
            (address + UInt32.ofNat bytes.length) (later.map some) =
          memory.overwrite address ((bytes ++ later).map some) := by
      rw [List.map_append, overwrite_overwrite _ _ _
        (by rw [position, List.length_map])]
    simp only [if_pos covered]
    refine (storesRest _ (sized.symm ▸ small)).trans ?_
    simp only [covers, sized, position, adjacent, decide_eq_true_eq,
      ← Nat.add_assoc]
    by_cases coveredToo :
        address.toNat + bytes.length + rest.length ≤ memory.size
    · rw [if_pos coveredToo, if_pos coveredToo]
    · have whole : bytes.take (memory.size - address.toNat) = bytes :=
        List.take_of_length_le (by omega)
      rw [if_neg coveredToo, if_neg coveredToo, List.take_append, whole,
        Nat.sub_sub]
  · rw [if_neg covered, if_neg (by omega),
      List.take_append_of_le_length (by omega)]

theorem writeWordBytewise (address : UInt32) (value : UInt16) :
    Stores (Bus.writeWordBytewise FlatMemory.writeByte address value) address
      (bytesOfWord value) :=
  (writeByte address (highByte value)).append
    (writeByte (address + 1) value.toUInt8)

theorem writeLongWordwise (address : UInt32) (value : UInt32) :
    Stores (Bus.writeLongWordwise
      (Bus.writeWordBytewise FlatMemory.writeByte) address value) address
      (bytesOfLong value) :=
  (writeWordBytewise address (highWord value)).append
    (writeWordBytewise (address + 2) value.toUInt16)

end Stores

/-! ## Both accesses -/

/-- A memory after the bytes of a run were replaced. -/
structure Replaced (address : UInt32) (bytes : List UInt8)
    (memory left : FlatMemory) : Prop where
  inside : ∀ offset < bytes.length,
    left.bytes[address.toNat + offset]? = bytes[offset]?
  outside : AgreeOutside address.toNat bytes.length left memory

/-- A write of a run does what the composed one does if it is granted, and
nothing otherwise, where the composed one writes what fits. -/
structure WritesAs (direct composed : Bus FlatMemory Unit) (address : UInt32)
    (bytes : List UInt8) (memory : FlatMemory) : Prop where
  granted : direct.isGranted memory = composed.isGranted memory
  fits : direct.isGranted memory = true ↔
    address.toNat + bytes.length ≤ memory.size
  same : direct.isGranted memory = true →
    direct.leaves memory = composed.leaves memory
  replaced : direct.isGranted memory = true →
    Replaced address bytes memory (direct.leaves memory)
  kept : direct.isGranted memory = false → direct.leaves memory = memory
  begun : ∀ offset < bytes.length, address.toNat + offset < memory.size →
    (composed.leaves memory).bytes[address.toNat + offset]? = bytes[offset]?

section

variable {memory : FlatMemory} {address : UInt32} {bytes : List UInt8}

theorem replaced_overwrite
    (covered : address.toNat + bytes.length ≤ memory.size) :
    Replaced address bytes memory
      (memory.overwrite address (bytes.map some)) where
  inside _ inside := memory.getElem?_overwrite_inside address bytes covered
    inside
  outside := by
    have agree := memory.agreeOutside_overwrite address (bytes.map some)
    rwa [List.length_map] at agree

/-- A run whose bytes were replaced is read as these bytes. -/
theorem Replaced.run? {left : FlatMemory}
    (replaced : Replaced address bytes memory left)
    (covered : address.toNat + bytes.length ≤ memory.size) :
    left.run? address bytes.length = some bytes :=
  run?_eq_some_iff.mpr ⟨replaced.outside.1 ▸ covered, rfl, replaced.inside⟩

/-- Of a run that the memory cuts short, the bytes that fit are written. -/
theorem getElem?_overwrite_take {offset : Nat} (inside : offset < bytes.length)
    (mapped : address.toNat + offset < memory.size) :
    (memory.overwrite address
      ((bytes.take (memory.size - address.toNat)).map some)).bytes[
        address.toNat + offset]? = bytes[offset]? := by
  have early : offset < memory.size - address.toNat := by omega
  rw [getElem?_overwrite_inside _ _ _
    (by rw [List.length_take]; omega) (by rw [List.length_take]; omega),
    List.getElem?_take_of_lt early]

theorem writeRun_apply (address : UInt32) (bytes : List UInt8)
    (memory : FlatMemory) :
    writeRun address (bytes.map some) memory =
      if address.toNat + bytes.length ≤ memory.size then
        .ok () (memory.overwrite address (bytes.map some))
      else
        .error () memory := by
  simp only [writeRun, overwrite?, covers, List.length_map,
    decide_eq_true_eq]
  by_cases covered : address.toNat + bytes.length ≤ memory.size
  · rw [if_pos covered, if_pos covered]
  · rw [if_neg covered, if_neg covered]

/-- A write of a run stores what its bytes store one after the other. -/
theorem Stores.writesAs {composed : Bus FlatMemory Unit}
    (stores : Stores composed address bytes) (small : memory.size < 2 ^ 32) :
    WritesAs (writeRun address (bytes.map some)) composed address bytes
      memory := by
  have run := stores memory small
  have direct := writeRun_apply address bytes memory
  simp only [covers, decide_eq_true_eq] at run
  by_cases covered : address.toNat + bytes.length ≤ memory.size
  · rw [if_pos covered] at run direct
    have replaced := replaced_overwrite covered
    have granted : (writeRun address (bytes.map some)).isGranted memory =
        true := by
      rw [Bus.isGranted, direct]
    have leaves : (writeRun address (bytes.map some)).leaves memory =
        memory.overwrite address (bytes.map some) := by
      rw [Bus.leaves, direct]
    exact {
      granted := by rw [granted, Bus.isGranted, run]
      fits := ⟨fun _ => covered, fun _ => granted⟩
      same := fun _ => by rw [leaves, Bus.leaves, run]
      replaced := fun _ => leaves ▸ replaced
      kept := fun refused => by rw [granted] at refused; cases refused
      begun := fun offset inside _ => by
        rw [Bus.leaves, run]
        exact replaced.inside offset inside }
  · rw [if_neg covered] at run direct
    have refused : (writeRun address (bytes.map some)).isGranted memory =
        false := by
      rw [Bus.isGranted, direct]
    have ungranted : ¬(writeRun address (bytes.map some)).isGranted memory =
        true := Bool.eq_false_iff.mp refused
    exact {
      granted := by rw [refused, Bus.isGranted, run]
      fits := ⟨fun granted => absurd granted ungranted,
        fun fits => absurd fits covered⟩
      same := fun granted => absurd granted ungranted
      replaced := fun granted => absurd granted ungranted
      kept := fun _ => by rw [Bus.leaves, direct]
      begun := fun offset inside mapped => by
        rw [Bus.leaves, run]
        exact getElem?_overwrite_take inside mapped }

end

/-- An image is copied in as a whole or not at all. -/
structure Loads (address : UInt32) (image : List UInt8)
    (memory : FlatMemory) : Prop where
  fits : (memory.load? address image).isSome = true ↔
    address.toNat + image.length ≤ memory.size
  replaced : (memory.load? address image).isSome = true →
    Replaced address image memory ((memory.load? address image).getD memory)
  kept : (memory.load? address image).isSome = false →
    (memory.load? address image).getD memory = memory

theorem loads (address : UInt32) (image : List UInt8) (memory : FlatMemory) :
    Loads address image memory := by
  by_cases covered : address.toNat + image.length ≤ memory.size
  · have run : memory.load? address image =
        some (memory.overwrite address (image.map some)) := by
      simp [load?, overwrite?, covers, covered]
    refine ⟨by simp [run, covered], fun _ => ?_, by simp [run]⟩
    rw [run]
    exact replaced_overwrite covered
  · have run : memory.load? address image = none := by
      simp [load?, overwrite?, covers, covered]
    exact ⟨by simp [run, covered], by simp [run], by simp [run]⟩

/-- What the accesses of words, longs and images at an address do, and what the
composed ones do there. -/
structure AgreesWithComposed (memory : FlatMemory) (address : UInt32)
    (space : FunctionCode) : Prop where
  readWord : Memory.readWord address space memory =
    composed.readWord address space memory
  readLong : Memory.readLong address space memory =
    composed.readLong address space memory
  writeWord : ∀ value, WritesAs (Memory.writeWord address value space)
    (composed.writeWord address value space) address (bytesOfWord value) memory
  writeLong : ∀ value, WritesAs (Memory.writeLong address value space)
    (composed.writeLong address value space) address (bytesOfLong value) memory
  /-- A word that was written is read from then on. -/
  wordKept : ∀ value left,
    Memory.writeWord address value space memory = .ok () left →
      Memory.readWord address space left = .ok value left
  longKept : ∀ value left,
    Memory.writeLong address value space memory = .ok () left →
      Memory.readLong address space left = .ok value left
  load : ∀ image, Loads address image memory

/-- Flat memory reads and writes words and longs as a memory does that composes
them of its bytes, except that a refused write or load changes no byte. -/
theorem agreesWithComposed {memory : FlatMemory}
    (small : memory.size < 2 ^ 32) (address : UInt32) (space : FunctionCode) :
    memory.AgreesWithComposed address space where
  readWord := (Reads.readWord address).unique
    (Reads.readWordBytewise address) small
  readLong := (Reads.readLong address).unique
    (Reads.readLongWordwise address) small
  writeWord value := (Stores.writeWordBytewise address value).writesAs small
  writeLong value := (Stores.writeLongWordwise address value).writesAs small
  wordKept value left run := by
    obtain ⟨covered, rfl⟩ := writeRun_eq_ok_iff.mp run
    rw [List.length_map] at covered
    exact readWord_eq_ok_iff.mpr
      ⟨rfl, (replaced_overwrite covered).run? covered⟩
  longKept value left run := by
    obtain ⟨covered, rfl⟩ := writeRun_eq_ok_iff.mp run
    rw [List.length_map] at covered
    exact readLong_eq_ok_iff.mpr
      ⟨rfl, (replaced_overwrite covered).run? covered⟩
  load image := loads address image memory

/-- Two bytes are left at address one, too few for a long. -/
theorem agreesWithComposed_threeBytes :
    (ofSize 3).size < 2 ^ 32 ∧
      (ofSize 3).AgreesWithComposed 1 .supervisorData :=
  ⟨by decide, agreesWithComposed (by decide) 1 .supervisorData⟩

/-- The composed write of a long begins, the direct one does not. -/
example :
    (Memory.writeLong 1 0x11223344 .supervisorData (ofSize 3) =
        .error () (ofSize 3)) ∧
      composed.writeLong 1 0x11223344 .supervisorData (ofSize 3) =
        .error () ⟨#[0, 0x11, 0x22]⟩ :=
  ⟨rfl, rfl⟩

end FlatMemory

end M68k

import M68k.Proofs.FlatNumbers
import M68k.Proofs.StepPhases
import Mathlib.Data.List.Induction

/-!
# Alternate bytes

MOVEP moves a data register to or from every second byte of a run, as they are
wired to a device of half the width of the bus.  The run is accessed as one: if
a byte of it is missing, also one between those that are moved, nothing is
moved.
-/

namespace M68k

/-! ## Every second byte -/

namespace Execution

theorem getElem?_everySecond {α : Type} (list : List α) (place : Nat) :
    (everySecond list)[place]? = list[2 * place]? := by
  induction list using everySecond.induct generalizing place with
  | case1 first second rest induction =>
      cases place with
      | zero => rfl
      | succ place =>
          rw [everySecond, List.getElem?_cons_succ, induction]
          rfl
  | case2 rest short =>
      match rest, short with
      | [], _ => simp [everySecond]
      | [only], _ =>
          cases place with
          | zero => rfl
          | succ place => simp [everySecond, Nat.mul_succ]
      | first :: second :: rest, short =>
          exact absurd rfl (short first second rest)

theorem operandBytes_eq (size : OperandSize) (value : UInt32) :
    operandBytes size value = size.bytesOf value := by
  cases size <;> rfl

end Execution

/-! ## The value of bytes -/

theorem toNat_shiftLeft_or_byte (value : UInt32) (byte : UInt8) :
    ((value <<< 8) ||| byte.toUInt32).toNat =
      (value.toNat * 256 + byte.toNat) % 2 ^ 32 := by
  have bound := byte.toNat_lt
  have shifted : (value <<< 8).toNat = (value.toNat % 2 ^ 24) <<< 8 := by
    rw [UInt32.toNat_shiftLeft]
    show value.toNat <<< 8 % 2 ^ 32 = _
    rw [Nat.shiftLeft_eq, Nat.shiftLeft_eq]
    omega
  rw [UInt32.toNat_or, shifted, UInt8.toNat_toUInt32,
    ← Nat.shiftLeft_add_eq_or_of_lt (i := 8) bound, Nat.shiftLeft_eq]
  omega

theorem toNat_longOfBytes (bytes : List UInt8) :
    (longOfBytes bytes).toNat =
      Nat.ofDigits 256 (bytes.reverse.map UInt8.toNat) % 2 ^ 32 := by
  induction bytes using List.reverseRecOn with
  | nil => rfl
  | append_singleton bytes byte induction =>
      rw [longOfBytes, List.foldl_concat, ← longOfBytes,
        toNat_shiftLeft_or_byte, induction, List.reverse_concat,
        List.map_cons, Nat.ofDigits_cons]
      omega

theorem OperandSize.number_zeroExtend {size : OperandSize}
    (sized : size ≠ .unsized) (value : UInt32) :
    size.number (size.zeroExtend value) = size.number value := by
  rw [number, toNat_zeroExtend sized, number, Nat.mod_mod]

theorem OperandSize.longOfBytes_bytesOf {size : OperandSize}
    (sized : size ≠ .unsized) (value : UInt32) :
    longOfBytes (size.bytesOf value) = size.zeroExtend value := by
  apply UInt32.toNat_inj.1
  rw [toNat_longOfBytes, toNat_zeroExtend sized]
  have digits : Nat.ofDigits 256 ((size.bytesOf value).reverse.map
      UInt8.toNat) = size.number value := Numeration.numberOf_binary size value
  rw [digits]
  apply Nat.mod_eq_of_lt
  exact Nat.lt_of_le_of_lt (Nat.mod_le _ _) value.toNat_lt

/-! ## Alternate bytes of a memory -/

namespace FlatMemory

/-- Bytes have been stored at every second index from an address on, and nowhere
else. -/
structure StoresAlternate (before : FlatMemory) (address : UInt32)
    (bytes : List UInt8) (after : FlatMemory) : Prop where
  size : after.size = before.size
  stored : ∀ place < bytes.length,
    after.bytes[address.toNat + 2 * place]? = bytes[place]?
  kept : ∀ index,
    (∀ place < bytes.length, index ≠ address.toNat + 2 * place) →
      after.bytes[index]? = before.bytes[index]?

variable {memory after : FlatMemory} {address : UInt32} {bytes : List UInt8}

theorem storesAlternate_overwrite
    (covered : address.toNat + (2 * bytes.length - 1) ≤ memory.size) :
    memory.StoresAlternate address bytes
      (memory.overwrite address ((bytes.map some).intersperse none)) := by
  have length : ((bytes.map some).intersperse none).length =
      2 * bytes.length - 1 := by
    rw [List.length_intersperse, List.length_map]
  refine ⟨memory.size_overwrite _ _, ?_, ?_⟩
  · intro place inside
    have given : ((bytes.map some).intersperse none)[2 * place]? =
        some (some bytes[place]) := by
      rw [List.getElem?_intersperse_two_mul, List.getElem?_map,
        List.getElem?_eq_getElem inside]
      rfl
    rw [List.getElem?_eq_getElem inside]
    rw [← length] at covered
    exact memory.getElem?_overwrite_given address covered given
  · intro index elsewhere
    by_cases before : index < address.toNat
    · exact memory.getElem?_overwrite_outside address _ (.inl before)
    · obtain ⟨offset, rfl⟩ := Nat.exists_eq_add_of_le (Nat.le_of_not_lt before)
      apply memory.getElem?_overwrite_skipped
      intro byte given
      have inside : offset < 2 * bytes.length - 1 := by
        rw [← length]
        exact (List.getElem?_eq_some_iff.mp given).1
      -- An even offset is one of the places; between them nothing is given.
      obtain ⟨place, even | odd⟩ := offset.even_or_odd'
      · exact elsewhere place (by omega) (by omega)
      · rw [odd, List.getElem?_intersperse_two_mul_add_one
          (by rw [List.length_map]; omega)] at given
        cases given

/-- What is stored and what is kept is the whole memory. -/
theorem StoresAlternate.unique {other : FlatMemory}
    (stores : memory.StoresAlternate address bytes after)
    (others : memory.StoresAlternate address bytes other) : after = other := by
  have same : after.bytes = other.bytes := by
    refine Array.ext_getElem? fun index => ?_
    by_cases stored :
      ∃ place < bytes.length, index = address.toNat + 2 * place
    · obtain ⟨place, inside, rfl⟩ := stored
      rw [stores.stored place inside, others.stored place inside]
    · have elsewhere : ∀ place < bytes.length,
          index ≠ address.toNat + 2 * place :=
        fun place inside there => stored ⟨place, inside, there⟩
      rw [stores.kept index elsewhere, others.kept index elsewhere]
  exact congrArg FlatMemory.mk same

/-- The bytes that were stored are every second one of the run. -/
theorem StoresAlternate.everySecond
    (stores : memory.StoresAlternate address bytes after)
    {contents : List UInt8}
    (read : after.run? address (2 * bytes.length - 1) = some contents) :
    Execution.everySecond contents = bytes := by
  obtain ⟨-, length, found⟩ := run?_eq_some_iff.mp read
  apply List.ext_getElem?
  intro place
  rw [Execution.getElem?_everySecond]
  by_cases inside : place < bytes.length
  · rw [← found (2 * place) (by omega), stores.stored place inside]
  · rw [List.getElem?_eq_none (by omega), List.getElem?_eq_none (by omega)]

end FlatMemory

/-! ## The two instructions -/

namespace Instruction

/-- The opcode of MOVEP, to or from memory. -/
def alternateOpcode (stores : Bool) (size : OperandSize)
    (data address : Fin 8) : UInt16 :=
  (0x0108 : UInt16) ||| (UInt16.ofNat data.val <<< 9) |||
    UInt16.ofNat address.val ||| (if size = .long then 0x40 else 0) |||
      (if stores then 0x80 else 0)

theorem decode?_alternateOpcode {size : OperandSize}
    (sized : size = .word ∨ size = .long) (stores : Bool)
    (data address : Fin 8) :
    decode? (alternateOpcode stores size data address) =
      some (if stores then .movepStore size data address
        else .movepLoad size data address) := by
  obtain rfl | rfl := sized <;> cases stores <;> revert data address <;>
    decide +kernel

end Instruction

namespace Machine

/-- Where the bytes of MOVEP begin. -/
def alternateStart (machine : Machine FlatMemory) (address : Fin 8)
    (displacement : UInt16) : UInt32 :=
  machine.registers.get (.address address) + signExtendWord displacement

/-- The machine has passed an opcode of MOVEP, and its displacement comes
next. -/
structure ReachesAlternate (machine : Machine FlatMemory) (stores : Bool)
    (size : OperandSize) (data address : Fin 8) (displacement : UInt16) :
    Prop where
  sized : size = .word ∨ size = .long
  opcode : machine.opcode =
    Instruction.alternateOpcode stores size data address
  even : machine.registers.pc % 2 = 0
  present : machine.memory.run? machine.registers.pc 2 =
    some (bytesOfWord displacement)

namespace ReachesAlternate

variable {machine : Machine FlatMemory} {stores : Bool} {size : OperandSize}
  {data address : Fin 8} {displacement : UInt16}

theorem size_ne_unsized
    (reaches : machine.ReachesAlternate stores size data address
      displacement) : size ≠ .unsized := by
  rintro rfl
  rcases reaches.sized with wrong | wrong <;> cases wrong

theorem displacedAddress
    (reaches : machine.ReachesAlternate stores size data address
      displacement) :
    Execution.displacedAddress address machine =
      .ok (machine.alternateStart address displacement)
        (machine.withPc (machine.registers.pc + 2)) := by
  have fetched := Execution.fetchWord_flat reaches.even reaches.present
  simp only [Execution.displacedAddress, Execution.fetchDisplacement,
    Execution.bind_apply, fetched, Execution.pure_apply, Execution.register,
    Execution.observe]
  rfl

theorem executeOpcode_eq
    (reaches : machine.ReachesAlternate stores size data address
      displacement) :
    Execution.executeOpcode machine =
      if stores then Execution.movepStore size data address machine
      else Execution.movepLoad size data address machine := by
  have decoded := Instruction.decode?_alternateOpcode reaches.sized stores
    data address
  rw [← reaches.opcode] at decoded
  cases stores with
  | true =>
      exact Execution.executeOpcode_of_admitted
        (Instruction.admit_of_decode? decoded rfl rfl _ _)
  | false =>
      exact Execution.executeOpcode_of_admitted
        (Instruction.admit_of_decode? decoded rfl rfl _ _)

/-- The store of a data register to bytes that are all there. -/
theorem executeOpcode_store
    (reaches : machine.ReachesAlternate true size data address displacement)
    (covered : (machine.alternateStart address displacement).toNat +
      (2 * size.bytes - 1) ≤ machine.memory.size) :
    ∃ stored,
      Execution.executeOpcode machine =
        .ok () ({ machine with memory := stored }.withPc
          (machine.registers.pc + 2)) ∧
      machine.memory.StoresAlternate
        (machine.alternateStart address displacement)
        (size.bytesOf (machine.registers.get (.data data))) stored := by
  let bytes := size.bytesOf (machine.registers.get (.data data))
  have length : bytes.length = size.bytes := size.length_bytesOf _
  let start := machine.alternateStart address displacement
  let stored := machine.memory.overwrite start
    ((bytes.map some).intersperse none)
  have granted : FlatMemory.writeRun start
      ((bytes.map some).intersperse none) machine.memory =
        .ok () stored := by
    refine FlatMemory.writeRun_eq_ok_iff.mpr ⟨?_, rfl⟩
    rw [List.length_intersperse, List.length_map, length]
    exact covered
  refine ⟨stored, ?_,
    FlatMemory.storesAlternate_overwrite (length ▸ covered)⟩
  rw [reaches.executeOpcode_eq, if_pos rfl]
  simp only [Execution.movepStore, Execution.bind_apply,
    reaches.displacedAddress, Execution.register, Execution.dataSpace,
    Execution.observe, Execution.operandBytes_eq]
  exact Execution.onBus_ok granted

/-- The load of a data register from bytes that are all there. -/
theorem executeOpcode_load
    (reaches : machine.ReachesAlternate false size data address displacement)
    {contents : List UInt8}
    (read : machine.memory.run? (machine.alternateStart address displacement)
      (2 * size.bytes - 1) = some contents) :
    Execution.executeOpcode machine =
      .ok ()
        ({ machine with
          registers := machine.registers.set (.data data)
            (size.merge (machine.registers.get (.data data))
              (longOfBytes (Execution.everySecond contents))) }.withPc
          (machine.registers.pc + 2)) := by
  have granted : FlatMemory.readRun
      (machine.alternateStart address displacement) (2 * size.bytes - 1)
        machine.memory = .ok contents machine.memory := by
    rw [FlatMemory.readRun, read]
  have loaded : Execution.onBus
      (FlatMemory.readRun (machine.alternateStart address displacement)
        (2 * size.bytes - 1)) (machine.withPc (machine.registers.pc + 2)) =
          .ok contents (machine.withPc (machine.registers.pc + 2)) :=
    Execution.onBus_ok granted
  rw [reaches.executeOpcode_eq]
  simp only [Execution.movepLoad, Execution.bind_apply,
    reaches.displacedAddress, Execution.dataSpace, Execution.observe,
    Bool.false_eq_true, if_false]
  rw [show Execution.onBus (Memory.readRun _ _ _) _ = _ from loaded]
  rfl

/-- A byte that is missing is a bus error, in both directions. -/
theorem executeOpcode_unmapped
    (reaches : machine.ReachesAlternate stores size data address
      displacement)
    (uncovered : ¬(machine.alternateStart address displacement).toNat +
      (2 * size.bytes - 1) ≤ machine.memory.size) :
    Execution.executeOpcode machine =
      .error .busError (machine.withPc (machine.registers.pc + 2)) := by
  rw [reaches.executeOpcode_eq]
  cases stores with
  | true =>
      let bytes := size.bytesOf (machine.registers.get (.data data))
      have length : ((bytes.map some).intersperse none).length =
          2 * size.bytes - 1 := by
        rw [List.length_intersperse, List.length_map, size.length_bytesOf]
      have refused : FlatMemory.writeRun
          (machine.alternateStart address displacement)
          ((bytes.map some).intersperse none) machine.memory =
            .error () machine.memory := by
        simp only [FlatMemory.writeRun, FlatMemory.overwrite?,
          FlatMemory.covers, length, uncovered, decide_false,
          Bool.false_eq_true, if_false]
      simp only [if_true, Execution.movepStore, Execution.bind_apply,
        reaches.displacedAddress, Execution.register, Execution.dataSpace,
        Execution.observe, Execution.operandBytes_eq]
      exact Execution.onBus_refused refused
  | false =>
      have refused : FlatMemory.readRun
          (machine.alternateStart address displacement) (2 * size.bytes - 1)
            machine.memory = .error () machine.memory := by
        simp only [FlatMemory.readRun, FlatMemory.run?, FlatMemory.covers,
          uncovered, decide_false, Bool.false_eq_true, if_false]
      have failed : Execution.onBus
          (FlatMemory.readRun (machine.alternateStart address displacement)
            (2 * size.bytes - 1)) (machine.withPc (machine.registers.pc + 2)) =
              .error .busError (machine.withPc (machine.registers.pc + 2)) :=
        Execution.onBus_refused refused
      simp only [Bool.false_eq_true, if_false, Execution.movepLoad,
        Execution.bind_apply, reaches.displacedAddress, Execution.dataSpace,
        Execution.observe]
      rw [show Execution.onBus (Memory.readRun _ _ _) _ = _ from failed]

end ReachesAlternate

/-- A byte of the run that MOVEP accesses is not in the memory. -/
def LacksAlternate (machine : Machine FlatMemory) (start : UInt32)
    (size : OperandSize) : Prop :=
  ∃ offset < 2 * size.bytes - 1, machine.memory.size ≤ start.toNat + offset

theorem lacksAlternate_iff {machine : Machine FlatMemory} {start : UInt32}
    {size : OperandSize} (sized : size = .word ∨ size = .long) :
    machine.LacksAlternate start size ↔
      ¬start.toNat + (2 * size.bytes - 1) ≤ machine.memory.size := by
  have some : 0 < 2 * size.bytes - 1 := by
    rcases sized with rfl | rfl <;> decide
  constructor
  · rintro ⟨offset, inside, missing⟩
    omega
  · intro uncovered
    exact ⟨2 * size.bytes - 2, by omega, by omega⟩

end Machine

/-- MOVEP stores the bytes of a data register at every second byte of memory and
changes nothing else.  A load from there, by whatever registers, then gives the
stored bytes to a data register and keeps the bits above them.  Where a byte of
the run is missing, both directions end with a bus error that has only passed
the displacement. -/
theorem Execution.movep_transfers {machine : Machine FlatMemory}
    {stores : Bool} {size : OperandSize} {data address : Fin 8}
    {displacement : UInt16}
    (reaches : machine.ReachesAlternate stores size data address
      displacement) :
    (machine.LacksAlternate (machine.alternateStart address displacement)
        size →
      executeOpcode machine =
        .error .busError (machine.withPc (machine.registers.pc + 2))) ∧
    (stores = true →
      ¬machine.LacksAlternate (machine.alternateStart address displacement)
        size →
      ∃ stored,
        executeOpcode machine =
          .ok () ({ machine with memory := stored }.withPc
            (machine.registers.pc + 2)) ∧
        machine.memory.StoresAlternate
          (machine.alternateStart address displacement)
          (size.bytesOf (machine.registers.get (.data data))) stored ∧
        ∀ later other place distance, later.memory = stored →
          later.ReachesAlternate false size other place distance →
          later.alternateStart place distance =
            machine.alternateStart address displacement →
          ∃ value,
            executeOpcode later =
              .ok ()
                ({ later with
                  registers :=
                    later.registers.set (.data other) value }.withPc
                      (later.registers.pc + 2)) ∧
            size.number value =
              size.number (machine.registers.get (.data data)) ∧
            value.toNat / 2 ^ size.bits =
              (later.registers.get (.data other)).toNat / 2 ^ size.bits) := by
  have lacks : machine.LacksAlternate
      (machine.alternateStart address displacement) size ↔
        ¬(machine.alternateStart address displacement).toNat +
          (2 * size.bytes - 1) ≤ machine.memory.size :=
    Machine.lacksAlternate_iff reaches.sized
  constructor
  · intro missing
    exact reaches.executeOpcode_unmapped (lacks.mp missing)
  · rintro rfl present
    have covered := Decidable.not_not.mp (mt lacks.mpr present)
    obtain ⟨stored, storing, alternate⟩ := reaches.executeOpcode_store covered
    refine ⟨stored, storing, alternate, ?_⟩
    rintro later other place distance rfl loads same
    have mapped : (later.alternateStart place distance).toNat +
        (2 * size.bytes - 1) ≤ later.memory.size := by
      rw [same, alternate.size]
      exact covered
    obtain ⟨contents, read, -⟩ := FlatMemory.exists_run? mapped
    have bytes : everySecond contents =
        size.bytesOf (machine.registers.get (.data data)) := by
      apply alternate.everySecond
      rw [size.length_bytesOf, ← same]
      exact read
    have sized := reaches.size_ne_unsized
    refine ⟨_, loads.executeOpcode_load read, ?_, ?_⟩
    · rw [bytes, OperandSize.longOfBytes_bytesOf sized,
        OperandSize.number_merge sized, OperandSize.number_zeroExtend sized]
    · exact OperandSize.merge_div sized _ _

/-- A machine about to store a word at two odd addresses. -/
def storingOddBytes : Machine FlatMemory where
  model := .mc68000
  registers :=
    { data := #v[1, 6, 1, 0xDEADBEEF, 8, 0, 3, 3]
      address := #v[9, 8, 4, 8, 2, 0, 4, 5] }
  opcode := Instruction.alternateOpcode true .word 3 2
  memory := ⟨#[0xFF, 0xFF, 1, 2, 3, 4, 5, 6]⟩

/-- A machine about to load the word that is stored there to another register. -/
def loadingOddBytes : Machine FlatMemory where
  model := .mc68040
  registers :=
    { data := #v[0, 0, 0, 0, 0, 0x12345678, 0, 0]
      address := #v[0, 0, 0, 0, 0, 0, 4, 0] }
  opcode := Instruction.alternateOpcode false .word 5 6
  memory := ⟨#[0xFF, 0xFF, 1, 0xBE, 3, 0xEF, 5, 6]⟩

theorem storingOddBytes_stores :
    Execution.executeOpcode storingOddBytes =
        .ok ()
          ({ storingOddBytes with
            memory := loadingOddBytes.memory }.withPc 2) ∧
      Execution.executeOpcode loadingOddBytes =
        .ok ()
          ({ loadingOddBytes with
            registers := loadingOddBytes.registers.set (.data 5)
              0x1234BEEF }.withPc 2) := by
  have reaches : storingOddBytes.ReachesAlternate true .word 3 2 0xFFFF :=
    ⟨.inl rfl, rfl, by decide, by decide +kernel⟩
  have loads : loadingOddBytes.ReachesAlternate false .word 5 6 0xFFFF :=
    ⟨.inl rfl, rfl, by decide, by decide +kernel⟩
  have present : ¬storingOddBytes.LacksAlternate
      (storingOddBytes.alternateStart 2 0xFFFF) .word := by
    rw [Machine.lacksAlternate_iff reaches.sized]
    decide +kernel
  obtain ⟨stored, run, alternate, loaded⟩ :=
    (Execution.movep_transfers reaches).2 rfl present
  obtain rfl : stored = loadingOddBytes.memory :=
    (alternate.unique (FlatMemory.storesAlternate_overwrite
      (by decide +kernel))).trans (by decide +kernel)
  obtain ⟨value, loading, low, kept⟩ :=
    loaded loadingOddBytes 5 6 0xFFFF rfl loads (by decide +kernel)
  have low : value.toNat % 2 ^ 16 = 0xBEEF := low
  have kept : value.toNat / 2 ^ 16 = 0x1234 := kept
  have whole : value.toNat = (0x1234BEEF : UInt32).toNat := by
    show value.toNat = 0x1234BEEF
    omega
  rw [UInt32.toNat_inj.mp whole] at loading
  exact ⟨run, loading⟩

end M68k

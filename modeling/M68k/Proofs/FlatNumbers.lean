import M68k.Proofs.FlatMemoryBytes
import M68k.Proofs.SignRules
import Mathlib.Data.List.Basic
import Mathlib.Data.Nat.Digits.Defs

/-!
# Numbers in flat memory

A number ends just below an address and is as long as it needs to be, its most
significant byte first.  Reading an operand takes a part of it, and writing one
replaces a part.
-/

namespace M68k

/-! ## Numerations -/

/-- How the bytes of a number count. -/
inductive Numeration where
  | binary
  /-- Two decimal digits in a byte. -/
  | decimal
deriving DecidableEq, Repr, Inhabited

namespace Numeration

/-- How much more a byte counts than the next. -/
def base : Numeration → Nat
  | binary => 256
  | decimal => 100

def digit : Numeration → UInt8 → Nat
  | binary, byte => byte.toNat
  | decimal, byte => byte.toNat / 16 * 10 + byte.toNat % 16

def IsDigit : Numeration → UInt8 → Prop
  | binary, _ => True
  | decimal, byte => byte.toNat / 16 ≤ 9 ∧ byte.toNat % 16 ≤ 9

instance (numeration : Numeration) (byte : UInt8) :
    Decidable (numeration.IsDigit byte) :=
  match numeration with
  | binary => inferInstanceAs (Decidable True)
  | decimal => inferInstanceAs (Decidable (_ ∧ _))

theorem one_lt_base (numeration : Numeration) : 1 < numeration.base := by
  cases numeration <;> decide

theorem digit_lt {numeration : Numeration} {byte : UInt8}
    (isDigit : numeration.IsDigit byte) :
    numeration.digit byte < numeration.base := by
  cases numeration with
  | binary => exact byte.toNat_lt
  | decimal =>
      simp only [IsDigit, digit, base] at *
      omega

end Numeration

namespace FlatMemory

/-- The byte at an index, or zero past the end. -/
def byteAt (memory : FlatMemory) (index : Nat) : UInt8 :=
  memory.bytes[index]?.getD 0

variable (numeration : Numeration) (memory : FlatMemory)

/-- The number in so many bytes just below a place. -/
def numeral (top length : Nat) : Nat :=
  Nat.ofDigits numeration.base
    ((List.range length).map fun place =>
      numeration.digit (memory.byteAt (top - 1 - place)))

/-- Those bytes are digits. -/
def IsNumeral (top length : Nat) : Prop :=
  ∀ place < length, numeration.IsDigit (memory.byteAt (top - 1 - place))

instance (top length : Nat) :
    Decidable (memory.IsNumeral numeration top length) :=
  inferInstanceAs (Decidable (∀ place < length, _))

variable {numeration memory}

theorem numeral_lt {top length : Nat}
    (digits : memory.IsNumeral numeration top length) :
    memory.numeral numeration top length < numeration.base ^ length := by
  have bounded := Nat.ofDigits_lt_base_pow_length numeration.one_lt_base
    (l := (List.range length).map fun place =>
      numeration.digit (memory.byteAt (top - 1 - place))) (by
      intro digit member
      obtain ⟨place, inside, rfl⟩ := List.mem_map.mp member
      exact Numeration.digit_lt (digits place (List.mem_range.mp inside)))
  simpa [numeral] using bounded

/-- A number is its more significant part and the part below that. -/
theorem numeral_add (top low high : Nat) :
    memory.numeral numeration top (low + high) =
      memory.numeral numeration (top - low) high * numeration.base ^ low +
        memory.numeral numeration top low := by
  have shifted (place : Nat) : top - 1 - (low + place) =
      top - low - 1 - place := by omega
  simp only [numeral, List.range_add, List.map_append, Nat.ofDigits_append,
    List.map_map, Function.comp_def, shifted, List.length_map,
    List.length_range]
  rw [Nat.add_comm, Nat.mul_comm]

theorem isNumeral_add {top low high : Nat} :
    memory.IsNumeral numeration top (low + high) ↔
      memory.IsNumeral numeration (top - low) high ∧
        memory.IsNumeral numeration top low := by
  constructor
  · intro digits
    constructor
    · intro place inside
      have shifted : top - low - 1 - place = top - 1 - (low + place) := by
        omega
      rw [shifted]
      exact digits _ (by omega)
    · intro place inside
      exact digits place (by omega)
  · rintro ⟨above, below⟩ place inside
    by_cases early : place < low
    · exact below place early
    · have shifted : top - 1 - place = top - low - 1 - (place - low) := by
        omega
      rw [shifted]
      exact above _ (by omega)

theorem isNumeral_binary (memory : FlatMemory) (top length : Nat) :
    memory.IsNumeral .binary top length :=
  fun _ _ => trivial

/-! ## Memories that agree -/

section

variable {left right : FlatMemory} {start written top length : Nat}
  (agree : AgreeOutside start written left right)
  (apart : top ≤ start ∨ start + written + length ≤ top)

include agree apart

private theorem byteAt_eq_of_apart {place : Nat} (inside : place < length)
    (unwrapped : length ≤ top) :
    left.byteAt (top - 1 - place) = right.byteAt (top - 1 - place) := by
  rw [byteAt, byteAt, agree.2 _ (by omega)]

/-- Numbers outside of what was written are as they were. -/
theorem numeral_eq_of_apart (unwrapped : length ≤ top) :
    left.numeral numeration top length =
      right.numeral numeration top length := by
  rw [numeral, numeral]
  congr 1
  apply List.map_congr_left
  intro place inside
  rw [byteAt_eq_of_apart agree apart (List.mem_range.mp inside) unwrapped]

theorem isNumeral_iff_of_apart (unwrapped : length ≤ top) :
    left.IsNumeral numeration top length ↔
      right.IsNumeral numeration top length := by
  refine forall₂_congr fun place inside => ?_
  rw [byteAt_eq_of_apart agree apart inside unwrapped]

end

/-- What two memories agree on outside of a range, they agree on outside of a
larger one. -/
theorem AgreeOutside.mono {left right : FlatMemory}
    {start length wider longer : Nat}
    (agree : AgreeOutside start length left right)
    (lower : wider ≤ start) (upper : start + length ≤ wider + longer) :
    AgreeOutside wider longer left right :=
  ⟨agree.1, fun index outside => agree.2 index (by omega)⟩

theorem AgreeOutside.trans {left middle right : FlatMemory}
    {start length : Nat} (first : AgreeOutside start length left middle)
    (second : AgreeOutside start length middle right) :
    AgreeOutside start length left right :=
  ⟨first.1.trans second.1, fun index outside =>
    (first.2 index outside).trans (second.2 index outside)⟩

end FlatMemory

/-! ## Operands in memory -/

namespace OperandSize

/-- The bytes of an operand in memory. -/
def bytesOf : OperandSize → UInt32 → List UInt8
  | byte, value => [value.toUInt8]
  | word, value => bytesOfWord value.toUInt16
  | long, value => bytesOfLong value
  | unsized, _ => []

@[simp]
theorem length_bytesOf (size : OperandSize) (value : UInt32) :
    (size.bytesOf value).length = size.bytes := by
  cases size <;> rfl

/-- As many bytes as an operand has are an operand. -/
theorem exists_bytesOf {size : OperandSize} (sized : size ≠ .unsized)
    {contents : List UInt8} (length : contents.length = size.bytes) :
    ∃ value, size.zeroExtend value = value ∧
      size.bytesOf value = contents := by
  have whole {value : UInt32} (small : value.toNat < 2 ^ size.bits) :
      size.zeroExtend value = value := by
    apply UInt32.toNat_inj.1
    rw [toNat_zeroExtend sized, number, Nat.mod_eq_of_lt small]
  cases size with
  | byte =>
      obtain ⟨only, rfl⟩ := List.length_eq_one_iff.mp length
      exact ⟨only.toUInt32, whole (by simpa [bits, bytes] using only.toNat_lt),
        by simp [bytesOf]⟩
  | word =>
      obtain ⟨high, low, rfl⟩ := List.length_eq_two.mp length
      refine ⟨(joinBytes high low).toUInt32, whole ?_, ?_⟩
      · simpa [bits, bytes] using (joinBytes high low).toNat_lt
      · rw [bytesOf, UInt16.toUInt16_toUInt32, bytesOfWord_joinBytes]
  | long =>
      obtain ⟨first, rest, rfl⟩ := List.exists_cons_of_length_eq_add_one length
      obtain ⟨second, third, fourth, rfl⟩ :=
        List.length_eq_three.mp (Nat.succ.inj length)
      refine ⟨joinWords (joinBytes first second) (joinBytes third fourth),
        whole (UInt32.toNat_lt _), ?_⟩
      rw [bytesOf, bytesOfLong_joinWords, bytesOfWord_joinBytes,
        bytesOfWord_joinBytes]
      rfl
  | unsized => contradiction

theorem zeroExtend_zeroExtend (size : OperandSize) (value : UInt32) :
    size.zeroExtend (size.zeroExtend value) = size.zeroExtend value := by
  rw [zeroExtend, zeroExtend, UInt32.and_assoc, UInt32.and_self]

theorem zeroExtend_long (value : UInt32) : long.zeroExtend value = value := by
  apply UInt32.toNat_inj.1
  rw [toNat_zeroExtend (by decide)]
  exact Nat.mod_eq_of_lt value.toNat_lt

theorem toUInt8_zeroExtend_byte (value : UInt32) :
    (byte.zeroExtend value).toUInt8 = value.toUInt8 := by
  apply UInt8.toNat_inj.1
  rw [UInt32.toNat_toUInt8, toNat_zeroExtend (by decide), UInt32.toNat_toUInt8]
  exact Nat.mod_mod _ _

theorem toUInt16_zeroExtend_word (value : UInt32) :
    (word.zeroExtend value).toUInt16 = value.toUInt16 := by
  apply UInt16.toNat_inj.1
  rw [UInt32.toNat_toUInt16, toNat_zeroExtend (by decide),
    UInt32.toNat_toUInt16]
  exact Nat.mod_mod _ _

/-- Only the low bits of a value go to memory. -/
theorem bytesOf_zeroExtend (size : OperandSize) (value : UInt32) :
    size.bytesOf (size.zeroExtend value) = size.bytesOf value := by
  cases size with
  | byte => rw [bytesOf, toUInt8_zeroExtend_byte, bytesOf]
  | word => rw [bytesOf, toUInt16_zeroExtend_word, bytesOf]
  | long => rw [zeroExtend_long]
  | unsized => rfl

theorem signExtend_zeroExtend {size : OperandSize} (sized : size ≠ .unsized)
    (value : UInt32) :
    size.signExtend (size.zeroExtend value) = size.signExtend value := by
  cases size with
  | byte => rw [signExtend, toUInt8_zeroExtend_byte, signExtend]
  | word => rw [signExtend, toUInt16_zeroExtend_word, signExtend]
  | long => rw [zeroExtend_long]
  | unsized => contradiction

end OperandSize

namespace Numeration

/-- The number whose digits are the bytes of an operand. -/
def numberOf (numeration : Numeration) (size : OperandSize) (value : UInt32) :
    Nat :=
  Nat.ofDigits numeration.base
    ((size.bytesOf value).reverse.map numeration.digit)

theorem numberOf_binary (size : OperandSize) (value : UInt32) :
    binary.numberOf size value = size.number value := by
  have bound := value.toNat_lt
  cases size with
  | byte =>
      simp [numberOf, base, digit, OperandSize.bytesOf, OperandSize.number,
        OperandSize.bits, OperandSize.bytes]
  | word =>
      simp [numberOf, base, digit, OperandSize.bytesOf, OperandSize.number,
        OperandSize.bits, OperandSize.bytes, bytesOfWord, Nat.ofDigits_cons,
        toNat_highByte]
      omega
  | long =>
      simp [numberOf, base, digit, OperandSize.bytesOf, OperandSize.number,
        OperandSize.bits, OperandSize.bytes, bytesOfLong, bytesOfWord,
        Nat.ofDigits_cons, toNat_highByte, toNat_highWord]
      omega
  | unsized => exact (Nat.mod_one _).symm

theorem numberOf_byte (numeration : Numeration) (value : UInt32) :
    numeration.numberOf .byte value = numeration.digit value.toUInt8 :=
  Nat.ofDigits_singleton

end Numeration

namespace FlatMemory

/-- A run that lies in the memory has its bytes. -/
theorem exists_run? {memory : FlatMemory} {address : UInt32} {length : Nat}
    (mapped : address.toNat + length ≤ memory.size) :
    ∃ contents, memory.run? address length = some contents ∧
      contents.length = length := by
  have read : memory.run? address length =
      some (memory.run address length) := by
    rw [run?, covers, if_pos (by simpa using mapped)]
  exact ⟨_, read, (run?_eq_some_iff.1 read).2.1⟩

theorem byteAt_of_run? {memory : FlatMemory} {address : UInt32}
    {contents : List UInt8} {place : Nat}
    (read : memory.run? address contents.length = some contents)
    (inside : place < contents.length) :
    memory.byteAt (address.toNat + contents.length - 1 - place) =
      contents[contents.length - 1 - place] := by
  obtain ⟨-, -, found⟩ := run?_eq_some_iff.1 read
  have index : address.toNat + contents.length - 1 - place =
      address.toNat + (contents.length - 1 - place) := by omega
  rw [byteAt, index, found _ (by omega), List.getElem?_eq_getElem (by omega),
    Option.getD_some]

/-- The digits of an operand in memory are its bytes. -/
theorem numeral_of_operand {numeration : Numeration} {memory : FlatMemory}
    {address value : UInt32} {size : OperandSize} {top : Nat}
    (bytes : memory.run? address size.bytes = some (size.bytesOf value))
    (place : address.toNat + size.bytes = top) :
    memory.numeral numeration top size.bytes =
      numeration.numberOf size value := by
  have length := size.length_bytesOf value
  rw [← length] at bytes
  rw [numeral, Numeration.numberOf]
  congr 1
  apply List.ext_getElem
  · simp
  · intro index inside _
    have inside : index < (size.bytesOf value).length := by
      simpa using inside
    rw [List.getElem_map, List.getElem_map, List.getElem_range,
      List.getElem_reverse, ← byteAt_of_run? bytes inside, length, place]

theorem isNumeral_of_operand {numeration : Numeration} {memory : FlatMemory}
    {address value : UInt32} {size : OperandSize} {top : Nat}
    (bytes : memory.run? address size.bytes = some (size.bytesOf value))
    (place : address.toNat + size.bytes = top) :
    memory.IsNumeral numeration top size.bytes ↔
      ∀ byte ∈ size.bytesOf value, numeration.IsDigit byte := by
  have length := size.length_bytesOf value
  rw [← length] at bytes place ⊢
  subst place
  constructor
  · intro digits byte member
    obtain ⟨index, inside, rfl⟩ := List.getElem_of_mem member
    have digit := digits ((size.bytesOf value).length - 1 - index) (by omega)
    rw [byteAt_of_run? bytes (by omega)] at digit
    have back : (size.bytesOf value).length - 1 -
        ((size.bytesOf value).length - 1 - index) = index := by omega
    simpa only [back] using digit
  · intro digits index inside
    rw [byteAt_of_run? bytes inside]
    exact digits _ (List.getElem_mem _)

end FlatMemory

/-! ## Accesses -/

namespace Execution

variable {machine : Machine FlatMemory} {address : UInt32} {size : OperandSize}

theorem checkAlignment_sized
    (aligned : size ≠ .byte → machine.misaligned address = false) :
    checkAlignment address size machine = .ok () machine := by
  rw [checkAlignment_apply, if_neg]
  rintro ⟨wide, misaligned⟩
  rw [aligned wide] at misaligned
  cases misaligned

/-- Reading an operand gives the value that has its bytes. -/
theorem readData_flat {value : UInt32} (sized : size ≠ .unsized)
    (aligned : size ≠ .byte → machine.misaligned address = false)
    (whole : size.zeroExtend value = value)
    (bytes : machine.memory.run? address size.bytes =
      some (size.bytesOf value)) :
    readData address size machine = .ok value machine := by
  have small : value.toNat < 2 ^ size.bits := by
    rw [← whole, OperandSize.toNat_zeroExtend sized]
    exact size.number_lt value
  cases size with
  | byte =>
      have same : value.toUInt8.toUInt32 = value := by
        apply UInt32.toNat_inj.1
        simpa using (show value.toNat < 256 from small)
      have byte : machine.memory.bytes[address.toNat]? = some value.toUInt8 :=
        (FlatMemory.run?_eq_some_iff.1 bytes).2.2 0 Nat.zero_lt_one
      have read (space : FunctionCode) :
          onBus (Memory.readByte address space) machine =
            .ok value.toUInt8 machine := by
        apply onBus_ok
        show FlatMemory.readByte address machine.memory = _
        rw [FlatMemory.readByte, byte]
      simp only [readData, readIn, dataSpace, observe, bind_apply,
        checkAlignment_sized aligned, read, pure_apply, same]
  | word =>
      have same : value.toUInt16.toUInt32 = value := by
        apply UInt32.toNat_inj.1
        simpa using (show value.toNat < 65536 from small)
      rw [readData_word_flat (aligned (by decide)) bytes, same]
  | long => exact readData_long_flat (aligned (by decide)) bytes
  | unsized => contradiction

/-- What is read of a stored value are its low bits. -/
theorem readData_bytesOf {value : UInt32} (sized : size ≠ .unsized)
    (aligned : size ≠ .byte → machine.misaligned address = false)
    (bytes : machine.memory.run? address size.bytes =
      some (size.bytesOf value)) :
    readData address size machine = .ok (size.zeroExtend value) machine := by
  refine readData_flat sized aligned (size.zeroExtend_zeroExtend value) ?_
  rw [size.bytesOf_zeroExtend]
  exact bytes

/-- Writing an operand puts its bytes in place of what was there. -/
theorem writeData_flat {value : UInt32} (sized : size ≠ .unsized)
    (aligned : size ≠ .byte → machine.misaligned address = false)
    (mapped : address.toNat + size.bytes ≤ machine.memory.size) :
    writeData address size value machine =
      .ok ()
        { machine with
          memory := machine.memory.overwrite address
            ((size.bytesOf value).map some) } := by
  have written {transaction : Bus FlatMemory Unit} {contents : List UInt8}
      (run : transaction = FlatMemory.writeRun address (contents.map some))
      (length : contents.length = size.bytes) :
      onBus transaction machine =
        .ok ()
          { machine with
            memory := machine.memory.overwrite address
              (contents.map some) } := by
    apply onBus_ok
    rw [run, FlatMemory.writeRun_eq_ok_iff]
    exact ⟨by simpa [length] using mapped, rfl⟩
  cases size with
  | byte | word | long =>
      simp only [writeData, writeIn, dataSpace, observe, bind_apply,
        checkAlignment_sized aligned]
      exact written rfl (OperandSize.length_bytesOf _ _)
  | unsized => contradiction

end Execution

end M68k

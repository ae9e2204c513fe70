import M68k.Execution
import M68k.Proofs.DescendingOperands
import M68k.Proofs.StepPhases

/-!
# Register lists

A list of registers is saved below an address register, from the last register
down, and loaded again from there, from the first register up.  The mask of the
first instruction is that of the second with its bits reversed.  What is loaded
is what was saved, also if the address register is in the list itself: what is
loaded to it is replaced by the address after the last operand, which is the
address from before.
-/

namespace M68k

/-! ## Lists and their masks -/

/-- The mask with its bits in reverse order. -/
def reversedMask (mask : UInt16) : UInt16 :=
  UInt16.ofBitVec mask.toBitVec.reverse

namespace Execution

/-- A register is in the list of a mask if the bit at its index is set. -/
theorem mem_listAscending_iff (mask : UInt16) (register : Register) :
    register ∈ listAscending mask ↔ bitAt mask register.index = true := by
  simp only [listAscending, listedPositions, List.mem_map, List.mem_filter,
    List.mem_range]
  constructor
  · rintro ⟨position, ⟨inside, listed⟩, rfl⟩
    rw [Register.index_ofIndex inside]
    exact listed
  · intro listed
    exact ⟨register.index, ⟨register.index_lt, listed⟩,
      register.ofIndex_index⟩

/-- The list of a mask is in ascending order. -/
theorem pairwise_listAscending (mask : UInt16) :
    (listAscending mask).Pairwise fun first second =>
      first.index < second.index := by
  rw [listAscending, List.pairwise_map]
  refine (List.pairwise_lt_range.filter _).imp_of_mem ?_
  intro first second firstListed secondListed less
  rw [Register.index_ofIndex (List.mem_range.mp (List.mem_of_mem_filter
    firstListed)), Register.index_ofIndex (List.mem_range.mp
      (List.mem_of_mem_filter secondListed))]
  exact less

theorem bitAt_reversedMask (mask : UInt16) {position : Nat}
    (inside : position < 16) :
    bitAt (reversedMask mask) position = bitAt mask (15 - position) := by
  show mask.toBitVec.reverse.getLsbD position =
    mask.toBitVec.getLsbD (15 - position)
  rw [BitVec.getLsbD_reverse, BitVec.getMsbD, decide_eq_true inside,
    Bool.true_and]

/-- A reversed mask lists the same registers from the last one down. -/
theorem listDescending_reversedMask (mask : UInt16) :
    listDescending (reversedMask mask) = (listAscending mask).reverse := by
  have listed : listedPositions (reversedMask mask) =
      (List.range 16).filter (bitAt mask ∘ (15 - ·)) :=
    List.filter_congr fun position inside =>
      bitAt_reversedMask mask (List.mem_range.mp inside)
  have positions : (List.range 16).map (15 - ·) = (List.range 16).reverse := by
    decide
  have mirrored : (listedPositions (reversedMask mask)).map (15 - ·) =
      (listedPositions mask).reverse := by
    rw [listed, ← List.filter_map, positions, List.filter_reverse,
      listedPositions]
  rw [listAscending, ← List.map_reverse, ← mirrored, List.map_map]
  rfl

end Execution

/-! ## Registers set one after the other -/

namespace Registers

/-- The registers with those in a list set to values of their own. -/
def setAll (registers : Registers) (values : Register → UInt32)
    (list : List Register) : Registers :=
  list.foldl (fun registers register => registers.set register
    (values register)) registers

variable (registers : Registers)

theorem get_setAll (values : Register → UInt32) (list : List Register)
    (register : Register) :
    (registers.setAll values list).get register =
      if register ∈ list then values register
      else registers.get register := by
  induction list generalizing registers with
  | nil => rfl
  | cons first rest induction =>
      rw [setAll, List.foldl_cons, ← setAll, induction]
      by_cases later : register ∈ rest
      · rw [if_pos later, if_pos (List.mem_cons_of_mem first later)]
      · rw [if_neg later]
        by_cases now : register = first
        · subst now
          rw [get_set_self, if_pos List.mem_cons_self]
        · rw [get_set_of_ne _ _ now, if_neg]
          exact List.not_mem_cons_of_ne_of_not_mem now later

theorem setAll_get (list : List Register) :
    registers.setAll registers.get list = registers := by
  induction list with
  | nil => rfl
  | cons first rest induction =>
      rw [setAll, List.foldl_cons, set_get_self]
      exact induction

/-- What a register is set to does not matter if it is set again afterwards. -/
theorem set_setAll_congr {special : Register}
    {values others : Register → UInt32}
    (agree : ∀ register, register ≠ special → values register = others register)
    (value : UInt32) (list : List Register) {left right : Registers}
    (same : left.set special value = right.set special value) :
    (left.setAll values list).set special value =
      (right.setAll others list).set special value := by
  induction list generalizing left right with
  | nil => exact same
  | cons first rest induction =>
      refine induction ?_
      by_cases now : first = special
      · subst now
        rw [set_set_self, set_set_self, same]
      · rw [set_comm _ now, set_comm _ now, same, agree first now]

/-- The registers with those in a list sign-extended, but for one. -/
def extend (size : OperandSize) (kept : Register) (list : List Register) :
    Registers :=
  (registers.setAll (fun register => size.signExtend (registers.get register))
    list).set kept (registers.get kept)

theorem get_extend (size : OperandSize) (kept : Register)
    (list : List Register) (register : Register) :
    (registers.extend size kept list).get register =
      if register ∈ list ∧ register ≠ kept then
        size.signExtend (registers.get register)
      else registers.get register := by
  by_cases same : register = kept
  · subst same
    rw [extend, get_set_self, if_neg (fun both => both.2 rfl)]
  · rw [extend, get_set_of_ne _ _ same, get_setAll]
    simp only [ne_eq, same, not_false_eq_true, and_true]

theorem extend_long (kept : Register) (list : List Register) :
    registers.extend .long kept list = registers := by
  show (registers.setAll registers.get list).set kept _ = registers
  rw [setAll_get, set_get_self]

theorem below_sub (number : Fin 8) (first second : Nat) :
    registers.below number first - UInt32.ofNat second =
      registers.below number (first + second) := by
  rw [below, below, UInt32.ofNat_add]
  grind

end Registers

/-! ## Loops over lists -/

/-- The bytes of values that registers have, one after the other. -/
def OperandSize.imageOf (size : OperandSize) (values : Register → UInt32)
    (list : List Register) : List UInt8 :=
  list.flatMap fun register => size.bytesOf (values register)

namespace OperandSize

theorem length_imageOf (size : OperandSize) (values : Register → UInt32)
    (list : List Register) :
    (size.imageOf values list).length = size.bytes * list.length := by
  induction list with
  | nil => rfl
  | cons first rest induction =>
      rw [imageOf, List.flatMap_cons, ← imageOf, List.length_append, induction,
        length_bytesOf, List.length_cons]
      ring

theorem imageOf_concat (size : OperandSize) (values : Register → UInt32)
    (list : List Register) (last : Register) :
    size.imageOf values (list ++ [last]) =
      size.imageOf values list ++ size.bytesOf (values last) := by
  rw [imageOf, List.flatMap_append, List.flatMap_singleton, ← imageOf]

end OperandSize

namespace Execution

variable {machine : Machine FlatMemory} {size : OperandSize}

theorem storeDescending_cons {σ : Type} [Memory σ] (size : OperandSize)
    (special : Register) (specialValue address : UInt32) (first : Register)
    (rest : List Register) (machine : Machine σ) :
    storeDescending size special specialValue address (first :: rest) machine =
      (writeData (address - UInt32.ofNat size.bytes) size
          (if first = special then specialValue
            else machine.registers.get first) >>=
        fun _ => storeDescending size special specialValue
          (address - UInt32.ofNat size.bytes) rest) machine := by
  by_cases same : first = special
  · simp only [storeDescending, same, if_true]
    rfl
  · simp only [storeDescending, same, if_false]
    rfl

/-- Registers that are stored downwards lie in memory in the opposite order. -/
theorem storeDescending_flat {number : Fin 8} {length : Nat}
    (sized : size ≠ .unsized) (special : Register) (specialValue : UInt32)
    {list : List Register} {stored : Nat}
    (points : list ≠ [] → machine.PointsAbove number size length)
    (even : size ≠ .byte → stored % 2 = 0)
    (within : stored + size.bytes * list.length ≤ length) :
    storeDescending size special specialValue
        (machine.registers.below number stored) list machine =
      let address := machine.registers.below number
        (stored + size.bytes * list.length)
      let values register :=
        if register = special then specialValue
        else machine.registers.get register
      .ok address
        { machine with
          memory := machine.memory.overwrite address
            ((size.imageOf values list.reverse).map some) } := by
  -- Each operand goes in front of those that are stored already; the registers
  -- stay as they are, so that the induction is over machines that differ in
  -- memory only.
  induction list generalizing machine stored with
  | nil => rfl
  | cons first rest induction =>
      have points := points (List.cons_ne_nil first rest)
      have total : stored + size.bytes + size.bytes * rest.length =
          stored + size.bytes * (first :: rest).length := by
        rw [List.length_cons]
        ring
      rw [← total] at within ⊢
      have inside : stored + size.bytes ≤ length := by omega
      have stillEven (wide : size ≠ .byte) :
          (stored + size.bytes) % 2 = 0 := by
        have := even wide
        have := OperandSize.even_bytes wide
        omega
      have mapped : (machine.registers.below number
          (stored + size.bytes)).toNat + size.bytes ≤ machine.memory.size := by
        have ends := Machine.toNat_below_add
          (inside.trans points.unwrapped)
        have := points.mapped
        omega
      let written : Machine FlatMemory :=
        { machine with
          memory := machine.memory.overwrite
            (machine.registers.below number (stored + size.bytes))
            ((size.bytesOf (if first = special then specialValue
              else machine.registers.get first)).map some) }
      have still : written.PointsAbove number size length :=
        points.below 0 rfl (by omega) (fun _ => rfl)
          (FlatMemory.size_overwrite _ _ _) rfl
      rw [storeDescending_cons, Registers.below_sub, bind_apply,
        writeData_flat sized (points.aligned_below inside stillEven) mapped]
      refine (induction (fun _ => still) stillEven within).trans ?_
      have adjacent := Machine.toNat_below_add
        (within.trans points.unwrapped)
      have above := Machine.toNat_below_add (inside.trans points.unwrapped)
      dsimp only [written]
      rw [FlatMemory.overwrite_overwrite_before, ← List.map_append,
        ← OperandSize.imageOf_concat, List.reverse_cons]
      rw [List.length_map, OperandSize.length_imageOf, List.length_reverse]
      omega

/-- Registers are loaded upwards with what lies in memory in their order. -/
theorem loadAscending_flat (sized : size ≠ .unsized)
    {values : Register → UInt32} {list : List Register} {address : UInt32}
    (unwrapped : address.toNat + size.bytes * list.length < 2 ^ 32)
    (aligned : list ≠ [] → size ≠ .byte → machine.misaligned address = false)
    (image : list ≠ [] →
      machine.memory.run? address (size.bytes * list.length) =
        some (size.imageOf values list)) :
    loadAscending size address list machine =
      .ok (address + UInt32.ofNat (size.bytes * list.length))
        { machine with
          registers := machine.registers.setAll
            (fun register => size.signExtend (values register)) list } := by
  -- The registers change on the way, the address register of the list with
  -- them, but not the address and the memory that is read.
  induction list generalizing machine address with
  | nil =>
      have stays : address + UInt32.ofNat (size.bytes * 0) = address :=
        UInt32.add_zero address
      rw [List.length_nil, stays]
      rfl
  | cons first rest induction =>
      have image := image (List.cons_ne_nil first rest)
      have aligned := aligned (List.cons_ne_nil first rest)
      have total : size.bytes * (first :: rest).length =
          size.bytes + size.bytes * rest.length := by
        rw [List.length_cons]
        ring
      rw [total] at unwrapped image ⊢
      have small : (UInt32.ofNat size.bytes).toNat = size.bytes :=
        UInt32.toNat_ofNat_of_lt' (by simp only [UInt32.size]; omega)
      have next : (address + UInt32.ofNat size.bytes).toNat =
          address.toNat + size.bytes := by
        rw [UInt32.toNat_add, small, Nat.mod_eq_of_lt (by omega)]
      have count := size.length_bytesOf (values first)
      have lead : size.imageOf values (first :: rest) =
          size.bytesOf (values first) ++ size.imageOf values rest := rfl
      have front : machine.memory.run? address size.bytes =
          some (size.bytesOf (values first)) := by
        have part := FlatMemory.run?_part image 0 (Nat.le_trans
          (Nat.le_of_eq (Nat.zero_add size.bytes)) (Nat.le_add_right _ _))
          address.toNat_lt
        rw [UInt32.add_zero, lead] at part
        exact part.trans (congrArg some (List.take_left' count))
      let loaded : Machine FlatMemory :=
        { machine with
          registers := machine.registers.set first
            (size.signExtend (values first)) }
      have back : loaded.memory.run? (address + UInt32.ofNat size.bytes)
          (size.bytes * rest.length) = some (size.imageOf values rest) := by
        rw [FlatMemory.run?_part image _ (by omega) (by omega), small, lead,
          List.drop_left' count, ← size.length_imageOf values rest,
          List.take_length]
      have run := readData_bytesOf sized aligned front
      simp only [loadAscending, bind_apply, run, setRegister, update]
      rw [OperandSize.signExtend_zeroExtend sized]
      refine (induction ?_ ?_ fun _ => back).trans ?_
      · omega
      · intro _ wide
        have even : (UInt32.ofNat size.bytes).toNat % 2 = 0 := by
          rw [small]
          exact OperandSize.even_bytes wide
        exact (machine.misaligned_add_even address even).trans (aligned wide)
      · rw [UInt32.add_assoc, ← UInt32.ofNat_add]
        rfl

theorem storedPointer_apply {σ : Type} (size : OperandSize)
    (initial : UInt32) (count : Nat) (machine : Machine σ) :
    storedPointer size initial count machine =
      .ok
        (if machine.model.storesFinalPointer then
          initial - UInt32.ofNat (size.bytes * count)
        else initial) machine := by
  simp only [storedPointer, supports, observe, bind_apply, ite_apply,
    pure_apply]
  split <;> rfl

/-- Fetches the next opcode and executes it. -/
def executeNext {σ : Type} [Memory σ] : Execution σ Unit := do
  prefetch
  setPc ((← pc) + 2)
  executeOpcode

theorem executeNext_apply {σ : Type} [Memory σ] {machine fetched : Machine σ}
    (run : prefetch machine = .ok () fetched) :
    executeNext machine =
      executeOpcode (fetched.withPc (fetched.registers.pc + 2)) := by
  simp only [executeNext, bind_apply, run, pc, observe, setPc, update]

end Execution

/-! ## Saving a list and loading it again -/

theorem even_add_two {address : UInt32} (even : address % 2 = 0) :
    (address + 2) % 2 = 0 := by
  have start := congrArg UInt32.toNat even
  apply UInt32.toNat_inj.1
  rw [UInt32.toNat_mod] at start ⊢
  rw [UInt32.toNat_add]
  simp only [UInt32.reduceToNat] at start ⊢
  omega

namespace Instruction

/-- What tells longs from words in the opcodes of MOVEM. -/
def listSizeBit : OperandSize → UInt16
  | .long => 0x40
  | _ => 0

/-- The opcode of MOVEM to below an address register. -/
def saveOpcode (size : OperandSize) (number : Fin 8) : UInt16 :=
  0x48A0 ||| listSizeBit size ||| UInt16.ofNat number.val

/-- The opcode of MOVEM from an address register up. -/
def loadOpcode (size : OperandSize) (number : Fin 8) : UInt16 :=
  0x4C98 ||| listSizeBit size ||| UInt16.ofNat number.val

variable {size : OperandSize}

theorem decode?_saveOpcode (sized : size = .word ∨ size = .long)
    (number : Fin 8) :
    decode? (saveOpcode size number) =
      some (.movemStore size (.predecrement number)) := by
  obtain rfl | rfl := sized <;> revert number <;> decide +kernel

theorem decode?_loadOpcode (sized : size = .word ∨ size = .long)
    (number : Fin 8) :
    decode? (loadOpcode size number) =
      some (.movemLoad size (.postincrement number)) := by
  obtain rfl | rfl := sized <;> revert number <;> decide +kernel

end Instruction

/-- A word lies in a memory, and no byte of it within a range of indices. -/
structure FlatMemory.HoldsApart (memory : FlatMemory) (address : UInt32)
    (word : UInt16) (start stop : Nat) : Prop where
  present : memory.run? address 2 = some (bytesOfWord word)
  apart : ∀ offset < 2,
    address.toNat + offset < start ∨ stop ≤ address.toNat + offset

/-- How many bytes the registers in a list take. -/
def listBytes (size : OperandSize) (mask : UInt16) : Nat :=
  size.bytes * (Execution.listAscending mask).length

namespace Machine

/-- What is stored of a register: its value, but from the 68020 on the final one
of the register that is lowered. -/
def storedValue {σ : Type} (machine : Machine σ) (number : Fin 8)
    (length : Nat) (register : Register) : UInt32 :=
  if register = .address number ∧ .mc68020 ≤ machine.model then
    machine.registers.below number length
  else machine.registers.get register

section

variable (machine : Machine FlatMemory) (size : OperandSize) (number : Fin 8)
  (mask : UInt16)

/-- Where a list that is saved below an address register begins. -/
def listStart : UInt32 :=
  machine.registers.below number (listBytes size mask)

/-- The bytes of a list that is saved below an address register. -/
def listImage : List UInt8 :=
  size.imageOf (machine.storedValue number (listBytes size mask))
    (Execution.listAscending mask)

/-- A list is about to be saved below an address register and loaded again. -/
structure SavesAndLoads : Prop where
  sized : size = .word ∨ size = .long
  opcode : machine.opcode = Instruction.saveOpcode size number
  even : machine.registers.pc % 2 = 0
  code : ∀ part ∈ [(0, reversedMask mask),
      (2, Instruction.loadOpcode size number), (4, mask)],
    machine.memory.HoldsApart (machine.registers.pc + part.1) part.2
      (machine.listStart size number mask).toNat (machine.endOf number)
  points : Execution.listAscending mask ≠ [] →
    machine.PointsAbove number size (listBytes size mask)

/-- The machine after the first of the two instructions. -/
def afterSaving : Machine FlatMemory :=
  { machine.lower number (listBytes size mask) with
    memory := machine.memory.overwrite (machine.listStart size number mask)
      ((machine.listImage size number mask).map some)
    }.withPc (machine.registers.pc + 2)

/-- The machine after both instructions. -/
def afterLoading : Machine FlatMemory :=
  let passed := machine.withPc (machine.registers.pc + 6)
  { passed with
    registers := passed.registers.extend size (.address number)
      (Execution.listAscending mask)
    opcode := Instruction.loadOpcode size number
    memory := (machine.afterSaving size number mask).memory }

end

variable {machine : Machine FlatMemory} {size : OperandSize} {number : Fin 8}
  {mask : UInt16}

theorem storedValue_eq {σ : Type} (machine : Machine σ) (number : Fin 8)
    (length : Nat) :
    machine.storedValue number length = fun register =>
      if register = .address number then
        if machine.model.storesFinalPointer then
          machine.registers.get (.address number) - UInt32.ofNat length
        else machine.registers.get (.address number)
      else machine.registers.get register := by
  funext register
  by_cases same : register = .address number
  · subst same
    simp only [storedValue, Model.storesFinalPointer, Registers.below,
      true_and, if_true, decide_eq_true_eq]
  · simp only [storedValue, same, false_and, if_false]

theorem SavesAndLoads.size_ne_unsized
    (saves : machine.SavesAndLoads size number mask) : size ≠ .unsized := by
  obtain rfl | rfl := saves.sized <;> exact OperandSize.noConfusion

/-- Saving a list lowers the address register to the start of what is stored. -/
theorem movemStore_flat {passed : Machine FlatMemory}
    (sized : size ≠ .unsized)
    (fetched : Execution.fetchWord machine =
      .ok (reversedMask mask) passed)
    (points : Execution.listAscending mask ≠ [] →
      passed.PointsAbove number size (listBytes size mask)) :
    Execution.movemStore size (.predecrement number) machine =
      .ok ()
        { passed.lower number (listBytes size mask) with
          memory := passed.memory.overwrite
            (passed.listStart size number mask)
            ((passed.listImage size number mask).map some) } := by
  have top : passed.registers.get (.address number) =
      passed.registers.below number 0 :=
    (UInt32.sub_zero _).symm
  have count : 0 + size.bytes * (Execution.listAscending mask).reverse.length =
      listBytes size mask := by
    rw [Nat.zero_add, List.length_reverse, listBytes]
  have points (some : (Execution.listAscending mask).reverse ≠ []) :
      passed.PointsAbove number size (listBytes size mask) :=
    points (by simpa using some)
  have stored (pointer : UInt32) :=
    Execution.storeDescending_flat sized (.address number) pointer points
      (fun _ => rfl) (Nat.le_of_eq count)
  simp only [count, List.reverse_reverse, ← top] at stored
  simp only [Execution.movemStore, Execution.bind_apply, fetched,
    Execution.listDescending_reversedMask, List.length_reverse,
    Execution.register, Execution.observe, Execution.storedPointer_apply,
    stored, Execution.setRegister, Execution.update]
  rw [listImage, storedValue_eq]
  rfl

/-- Loading a list from its start sign-extends what was stored, but not the
address register, which is raised over the list. -/
theorem executeNext_load {values : Register → UInt32}
    (sized : size = .word ∨ size = .long)
    (even : machine.registers.pc % 2 = 0)
    (found : machine.memory.run? machine.registers.pc 2 =
      some (bytesOfWord (Instruction.loadOpcode size number)))
    (listed : machine.memory.run? (machine.registers.pc + 2) 2 =
      some (bytesOfWord mask))
    (unwrapped : machine.endOf number + listBytes size mask < 2 ^ 32)
    (aligned : Execution.listAscending mask ≠ [] →
      machine.misaligned (machine.registers.get (.address number)) = false)
    (image : Execution.listAscending mask ≠ [] →
      machine.memory.run? (machine.registers.get (.address number))
        (listBytes size mask) =
          some (size.imageOf values (Execution.listAscending mask))) :
    Execution.executeNext machine =
      let passed :=
        { machine with opcode := Instruction.loadOpcode size number }.withPc
          (machine.registers.pc + 2 + 2)
      .ok ()
        { passed with
          registers :=
            (passed.registers.setAll
              (fun register => size.signExtend (values register))
              (Execution.listAscending mask)).set (.address number)
                (machine.registers.get (.address number) +
                  UInt32.ofNat (listBytes size mask)) } := by
  have prefetched : Execution.prefetch machine =
      .ok ()
        { machine with opcode := Instruction.loadOpcode size number } :=
    Execution.prefetch_flat.mpr ⟨even, _, found, rfl⟩
  let ready :=
    { machine with opcode := Instruction.loadOpcode size number }.withPc
      (machine.registers.pc + 2)
  have fetched : Execution.fetchWord ready =
      .ok mask (ready.withPc (machine.registers.pc + 2 + 2)) :=
    Execution.fetchWord_flat (even_add_two even) listed
  have real : size ≠ .unsized := by
    obtain rfl | rfl := sized <;> exact OperandSize.noConfusion
  have loaded : Execution.loadAscending size
      (machine.registers.get (.address number)) (Execution.listAscending mask)
      (ready.withPc (machine.registers.pc + 2 + 2)) = _ :=
    Execution.loadAscending_flat real unwrapped (fun some _ => aligned some)
      image
  have decoded : Instruction.decode? ready.opcode =
      some (.movemLoad size (.postincrement number)) :=
    Instruction.decode?_loadOpcode sized number
  have admitted : Instruction.admit ready.opcode ready.model
      ready.isSupervisor = .ok (.movemLoad size (.postincrement number)) :=
    Instruction.admit_of_decode? decoded rfl rfl _ _
  have top : (ready.withPc (machine.registers.pc + 2 + 2)).registers.get
      (.address number) = machine.registers.get (.address number) := rfl
  rw [Execution.executeNext_apply prefetched]
  refine (Execution.executeOpcode_of_admitted admitted).trans ?_
  show Execution.movemLoad size (.postincrement number) ready = _
  simp only [Execution.movemLoad, Execution.bind_apply, fetched,
    Execution.register, Execution.observe, top, loaded, Execution.setRegister,
    Execution.update]
  rfl

/-- The first instruction saves the list. -/
theorem executeOpcode_saves (saves : machine.SavesAndLoads size number mask) :
    Execution.executeOpcode machine =
      .ok () (machine.afterSaving size number mask) := by
  have decoded := saves.opcode ▸
    Instruction.decode?_saveOpcode saves.sized number
  have listed := (saves.code _ List.mem_cons_self).present
  rw [UInt32.add_zero] at listed
  rw [Execution.executeOpcode_of_admitted
    (Instruction.admit_of_decode? decoded rfl rfl _ _)]
  refine (movemStore_flat saves.size_ne_unsized
    (Execution.fetchWord_flat saves.even listed) fun some => ?_).trans rfl
  exact (saves.points some).below 0 rfl (by omega) (fun _ => rfl) rfl rfl

theorem SavesAndLoads.room (saves : machine.SavesAndLoads size number mask) :
    listBytes size mask ≤ machine.endOf number := by
  by_cases empty : Execution.listAscending mask = []
  · rw [listBytes, empty]
    exact Nat.zero_le _
  · exact (saves.points empty).unwrapped

theorem length_listImage (machine : Machine FlatMemory) (size : OperandSize)
    (number : Fin 8) (mask : UInt16) :
    (machine.listImage size number mask).length = listBytes size mask :=
  size.length_imageOf _ _

/-- Saving changes no byte outside of the list. -/
theorem agreeOutside_afterSaving (machine : Machine FlatMemory)
    (size : OperandSize) (number : Fin 8) (mask : UInt16) :
    FlatMemory.AgreeOutside (machine.listStart size number mask).toNat
      (listBytes size mask) (machine.afterSaving size number mask).memory
        machine.memory := by
  have outside := machine.memory.agreeOutside_overwrite
    (machine.listStart size number mask)
      ((machine.listImage size number mask).map some)
  rwa [List.length_map, length_listImage] at outside

/-- What is saved is found where the address register points afterwards. -/
theorem SavesAndLoads.image (saves : machine.SavesAndLoads size number mask)
    (some : Execution.listAscending mask ≠ []) :
    (machine.afterSaving size number mask).memory.run?
        (machine.listStart size number mask) (listBytes size mask) =
      .some (machine.listImage size number mask) := by
  have length := machine.length_listImage size number mask
  have ends := toNat_below_add saves.room
  have mapped := (saves.points some).mapped
  rw [← length]
  refine FlatMemory.run?_overwrite_self _ _ _ ?_
  rw [length, listStart]
  omega

/-- Saving leaves the instructions alone. -/
theorem SavesAndLoads.code_afterSaving
    (saves : machine.SavesAndLoads size number mask)
    (part : UInt32 × UInt16) (member : part ∈ [(0, reversedMask mask),
      (2, Instruction.loadOpcode size number), (4, mask)]) :
    (machine.afterSaving size number mask).memory.run?
        (machine.registers.pc + part.1) 2 =
      some (bytesOfWord part.2) := by
  have outside := machine.agreeOutside_afterSaving size number mask
  have holds := saves.code part member
  have ends : (machine.listStart size number mask).toNat +
      listBytes size mask = machine.endOf number :=
    toNat_below_add saves.room
  refine FlatMemory.run?_congr outside.1.symm ?_ holds.present
  intro offset inside
  have apart := holds.apart offset inside
  exact (outside.2 _ (by omega)).symm

/-- What is loaded to the address register is replaced by what it was. -/
theorem registers_afterLoading (machine : Machine FlatMemory)
    (size : OperandSize) (number : Fin 8) (mask : UInt16) (pc : UInt32) :
    let lowered :=
      ((machine.lower number (listBytes size mask)).withPc pc).registers
    (lowered.setAll
      (fun register => size.signExtend
        (machine.storedValue number (listBytes size mask) register))
      (Execution.listAscending mask)).set (.address number)
        (machine.listStart size number mask +
          UInt32.ofNat (listBytes size mask)) =
      (machine.withPc pc).registers.extend size (.address number)
        (Execution.listAscending mask) := by
  have back : machine.listStart size number mask +
      UInt32.ofNat (listBytes size mask) =
        machine.registers.get (.address number) := by
    rw [listStart, Registers.below, UInt32.sub_add_cancel]
  rw [back]
  refine Registers.set_setAll_congr ?_ _ _ ?_
  · intro register other
    rw [storedValue, if_neg fun both => other both.1]
    cases register <;> rfl
  · exact Registers.set_set_self (machine.withPc pc).registers
      (.address number) _ _

/-- The second instruction loads the list. -/
theorem executeNext_loads (saves : machine.SavesAndLoads size number mask) :
    Execution.executeNext (machine.afterSaving size number mask) =
      .ok () (machine.afterLoading size number mask) := by
  have pointer :
      (machine.afterSaving size number mask).registers.get (.address number) =
        machine.listStart size number mask :=
    machine.registers.get_lower_self number _
  have counter : (machine.afterSaving size number mask).registers.pc =
      machine.registers.pc + 2 := rfl
  have second : machine.registers.pc + 2 + 2 = machine.registers.pc + 4 :=
    UInt32.add_assoc _ 2 2
  have third : machine.registers.pc + 4 + 2 = machine.registers.pc + 6 :=
    UInt32.add_assoc _ 4 2
  have found := saves.code_afterSaving (2, Instruction.loadOpcode size number)
    (List.mem_cons_of_mem _ List.mem_cons_self)
  have listed : (machine.afterSaving size number mask).memory.run?
      ((machine.afterSaving size number mask).registers.pc + 2) 2 =
        some (bytesOfWord mask) := by
    rw [counter, second]
    exact saves.code_afterSaving (4, mask)
      (List.mem_cons_of_mem _ (List.mem_cons_of_mem _ List.mem_cons_self))
  have unwrapped : (machine.afterSaving size number mask).endOf number +
      listBytes size mask < 2 ^ 32 := by
    have ends : (machine.listStart size number mask).toNat +
        listBytes size mask = machine.endOf number :=
      toNat_below_add saves.room
    rw [endOf, pointer, ends]
    exact (machine.registers.get (.address number)).toNat_lt
  have aligned (some : Execution.listAscending mask ≠ []) :
      (machine.afterSaving size number mask).misaligned
        ((machine.afterSaving size number mask).registers.get
          (.address number)) = false := by
    have wide : size ≠ .byte := by
      obtain rfl | rfl := saves.sized <;> exact OperandSize.noConfusion
    have even : listBytes size mask % 2 = 0 := by
      rw [listBytes, Nat.mul_mod, OperandSize.even_bytes wide, Nat.zero_mul,
        Nat.zero_mod]
    rw [pointer]
    exact (saves.points some).aligned_below (Nat.le_refl _) (fun _ => even)
      wide
  rw [executeNext_load saves.sized (even_add_two saves.even) found listed
    unwrapped aligned (pointer.symm ▸ saves.image), counter, second, third,
    pointer]
  have registers := registers_afterLoading machine size number mask
    (machine.registers.pc + 6)
  exact congrArg (fun registers => EStateM.Result.ok ()
    { machine.withPc (machine.registers.pc + 6) with
      registers
      opcode := Instruction.loadOpcode size number
      memory := (machine.afterSaving size number mask).memory }) registers

section

variable (machine) (size) (number) (mask)

/-- A list is saved: it lies below where the address register was, and nothing
else has changed but that register and the program counter. -/
structure HasSaved (saved : Machine FlatMemory) : Prop where
  image : Execution.listAscending mask ≠ [] →
    saved.memory.run? (machine.listStart size number mask)
      (listBytes size mask) = some (machine.listImage size number mask)
  outside : FlatMemory.AgreeOutside (machine.listStart size number mask).toNat
    (listBytes size mask) saved.memory machine.memory
  state : saved =
    { machine.lower number (listBytes size mask) with
      memory := saved.memory }.withPc (machine.registers.pc + 2)

/-- A saved list is loaded: its registers are sign-extended, and all others and
the address register are as before it was saved. -/
structure HasLoaded (saved restored : Machine FlatMemory) : Prop where
  general : ∀ register,
    restored.registers.get register =
      if register ∈ Execution.listAscending mask ∧
          register ≠ .address number then
        size.signExtend (machine.registers.get register)
      else machine.registers.get register
  long : size = .long →
    restored =
      { machine.withPc (machine.registers.pc + 6) with
        opcode := Instruction.loadOpcode size number
        memory := saved.memory }
  state :
    let passed := machine.withPc (machine.registers.pc + 6)
    restored =
      { passed with
        registers := passed.registers.extend size (.address number)
          (Execution.listAscending mask)
        opcode := Instruction.loadOpcode size number
        memory := saved.memory }

end

theorem hasSaved_afterSaving (saves : machine.SavesAndLoads size number mask) :
    machine.HasSaved size number mask
      (machine.afterSaving size number mask) where
  image := saves.image
  outside := machine.agreeOutside_afterSaving size number mask
  state := rfl

theorem hasLoaded_afterLoading (machine : Machine FlatMemory)
    (size : OperandSize) (number : Fin 8) (mask : UInt16) :
    machine.HasLoaded size number mask
      (machine.afterSaving size number mask)
      (machine.afterLoading size number mask) where
  general register := by
    refine (Registers.get_extend _ size (.address number) _ register).trans ?_
    cases register <;> rfl
  long long := by
    subst long
    rw [afterLoading, Registers.extend_long]
  state := rfl

end Machine

/-- A list of registers is saved below an address register and loaded again with
the same list.  In between, it lies in ascending order below where the address
register was, which is lowered to it; afterwards longs are as before and words
are sign-extended. -/
theorem Execution.registerList_restored {machine : Machine FlatMemory}
    {size : OperandSize} {number : Fin 8} {mask : UInt16}
    (saves : machine.SavesAndLoads size number mask) :
    ∃ saved restored,
      executeOpcode machine = .ok () saved ∧
        machine.HasSaved size number mask saved ∧
        executeNext saved = .ok () restored ∧
        machine.HasLoaded size number mask saved restored :=
  ⟨_, _, Machine.executeOpcode_saves saves, Machine.hasSaved_afterSaving saves,
    Machine.executeNext_loads saves,
    machine.hasLoaded_afterLoading size number mask⟩

namespace Machine

/-- A machine about to execute MOVEM.L D0/A0,-(A0) and MOVEM.L (A0)+,D0/A0. -/
def savingOwnPointer : Machine FlatMemory where
  model := .mc68020
  opcode := 0x48E0
  registers :=
    { data := #v[0x12345678, 0, 0, 0, 0, 0, 0, 0]
      address := #v[16, 0, 0, 0, 0, 0, 0, 0]
      pc := 2 }
  memory :=
    ⟨#[0x48, 0xE0, 0x80, 0x80, 0x4C, 0xD8, 0x01, 0x01, 0, 0, 0, 0, 0, 0, 0, 0]⟩

theorem savingOwnPointer_saves :
    savingOwnPointer.SavesAndLoads .long 0 0x0101 where
  sized := .inr rfl
  opcode := by decide
  even := by decide
  code := by
    simp only [List.forall_mem_cons, List.not_mem_nil, false_implies,
      implies_true, and_true]
    exact ⟨⟨by decide, by decide⟩, ⟨by decide, by decide⟩, by decide,
      by decide⟩
  points _ := ⟨by decide, by decide, fun _ _ => by decide, nofun⟩

theorem savingOwnPointer_restored :
    ∃ saved restored,
      Execution.executeOpcode savingOwnPointer = .ok () saved ∧
        savingOwnPointer.HasSaved .long 0 0x0101 saved ∧
        Execution.executeNext saved = .ok () restored ∧
        savingOwnPointer.HasLoaded .long 0 0x0101 saved restored :=
  Execution.registerList_restored savingOwnPointer_saves

/-- The pointer is stored as it is afterwards. -/
example :
    savingOwnPointer.listImage .long 0 0x0101 =
      [0x12, 0x34, 0x56, 0x78, 0, 0, 0, 8] := by
  decide

end Machine

end M68k

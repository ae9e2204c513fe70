import M68k.Operand
import M68k.Proofs.FlatNumbers

/-!
# Operands below an address register

A predecremented operand lies just below its address register, which is lowered
to it.  An address register that points above a number in memory goes through
the operands of the number that way, from its end to its front.
-/

namespace M68k

/-! ## Address registers -/

namespace Registers

theorem set_set_self (registers : Registers) (register : Register)
    (first second : UInt32) :
    (registers.set register first).set register second =
      registers.set register second := by
  cases register <;> simp [set]

theorem set_comm (registers : Registers) {first second : Register}
    (different : first ≠ second) (firstValue secondValue : UInt32) :
    (registers.set first firstValue).set second secondValue =
      (registers.set second secondValue).set first firstValue := by
  cases first <;> cases second <;> simp only [set]
  all_goals
    rw [Vector.set_comm]
    intro same
    exact different (by simp [Fin.ext_iff, same])

/-- The address so many bytes below an address register. -/
def below (registers : Registers) (number : Fin 8) (amount : Nat) : UInt32 :=
  registers.get (.address number) - UInt32.ofNat amount

/-- The registers with an address register lowered. -/
def lower (registers : Registers) (number : Fin 8) (amount : Nat) :
    Registers :=
  registers.set (.address number) (registers.below number amount)

theorem get_lower_self (registers : Registers) (number : Fin 8)
    (amount : Nat) :
    (registers.lower number amount).get (.address number) =
      registers.below number amount :=
  registers.get_set_self _ _

theorem get_lower_of_ne (registers : Registers) {number other : Fin 8}
    (different : other ≠ number) (amount : Nat) :
    (registers.lower number amount).get (.address other) =
      registers.get (.address other) :=
  registers.get_set_of_ne _ (by simpa using different)

theorem below_lower_of_ne (registers : Registers) {number other : Fin 8}
    (different : other ≠ number) (amount length : Nat) :
    (registers.lower number amount).below other length =
      registers.below other length := by
  rw [below, get_lower_of_ne _ different, below]

theorem lower_zero (registers : Registers) (number : Fin 8) :
    registers.lower number 0 = registers := by
  simp [lower, below, set, get]

theorem lower_lower (registers : Registers) (number : Fin 8)
    (first second : Nat) :
    (registers.lower number first).lower number second =
      registers.lower number (first + second) := by
  rw [lower, below, get_lower_self, lower, set_set_self, lower, below, below,
    UInt32.ofNat_add]
  congr 1
  grind

theorem lower_lower_of_ne (registers : Registers) {first second : Fin 8}
    (different : second ≠ first) (firstAmount secondAmount : Nat) :
    (registers.lower first firstAmount).lower second secondAmount =
      (registers.set (.address first) (registers.below first firstAmount)).set
        (.address second) (registers.below second secondAmount) := by
  rw [lower, below_lower_of_ne _ different, lower]

theorem lower_comm (registers : Registers) {first second : Fin 8}
    (different : first ≠ second) (firstAmount secondAmount : Nat) :
    (registers.lower first firstAmount).lower second secondAmount =
      (registers.lower second secondAmount).lower first firstAmount := by
  rw [lower_lower_of_ne _ different.symm, set_comm _ (by simpa using different),
    lower_lower_of_ne _ different]

end Registers

namespace Machine

variable {machine : Machine FlatMemory} {number : Fin 8} {size : OperandSize}

/-- Where the number below an address register ends. -/
def endOf (machine : Machine FlatMemory) (number : Fin 8) : Nat :=
  (machine.registers.get (.address number)).toNat

/-- An address register points just above a number of so many bytes that lies
in memory and can be accessed operand by operand. -/
structure PointsAbove (machine : Machine FlatMemory) (number : Fin 8)
    (size : OperandSize) (length : Nat) : Prop where
  unwrapped : length ≤ machine.endOf number
  mapped : machine.endOf number ≤ machine.memory.size
  aligned : size ≠ .byte → machine.model.needsAlignedData = true →
    machine.endOf number % 2 = 0
  /-- The stack pointer does not move by single bytes. -/
  notStack : size = .byte → number ≠ 7

/-- An address register that points above a number still does when it is lowered
into it. -/
theorem PointsAbove.below {other : Machine FlatMemory}
    {length rest : Nat} (points : machine.PointsAbove number size length)
    (offset : Nat)
    (place : other.endOf number = machine.endOf number - offset)
    (within : offset + rest ≤ length)
    (even : size ≠ .byte → offset % 2 = 0)
    (sized : other.memory.size = machine.memory.size)
    (model : other.model = machine.model) :
    other.PointsAbove number size rest where
  unwrapped := by
    have := points.unwrapped
    omega
  mapped := by
    have := points.mapped
    omega
  aligned wide needed := by
    have := points.aligned wide (model ▸ needed)
    have := points.unwrapped
    have := even wide
    omega
  notStack := points.notStack

/-- What points above a number points above the end of it. -/
theorem PointsAbove.mono {length rest : Nat}
    (points : machine.PointsAbove number size length)
    (within : rest ≤ length) : machine.PointsAbove number size rest :=
  points.below 0 rfl (by omega) (fun _ => rfl) rfl rfl

/-- The machine with an address register lowered. -/
def lower (machine : Machine FlatMemory) (number : Fin 8) (amount : Nat) :
    Machine FlatMemory :=
  { machine with registers := machine.registers.lower number amount }

theorem endOf_lower_of_ne {other : Fin 8} (different : other ≠ number)
    (amount : Nat) :
    (machine.lower number amount).endOf other = machine.endOf other := by
  rw [endOf, lower, Registers.get_lower_of_ne _ different, endOf]

theorem toNat_below {amount : Nat} (within : amount ≤ machine.endOf number) :
    (machine.registers.below number amount).toNat =
      machine.endOf number - amount := by
  have bound : machine.endOf number < UInt32.size :=
    (machine.registers.get (.address number)).toNat_lt_size
  have small : (UInt32.ofNat amount).toNat = amount :=
    UInt32.toNat_ofNat_of_lt' (by omega)
  have ordered :
      UInt32.ofNat amount ≤ machine.registers.get (.address number) :=
    UInt32.le_iff_toNat_le.mpr (by rw [small]; exact within)
  rw [Registers.below, UInt32.toNat_sub_of_le _ _ ordered, small, endOf]

theorem toNat_below_add {amount : Nat}
    (within : amount ≤ machine.endOf number) :
    (machine.registers.below number amount).toNat + amount =
      machine.endOf number := by
  rw [toNat_below within, Nat.sub_add_cancel within]

/-- The operand below an address register is aligned. -/
theorem PointsAbove.aligned_below {length amount : Nat}
    (points : machine.PointsAbove number size length)
    (within : amount ≤ length) (even : size ≠ .byte → amount % 2 = 0)
    (wide : size ≠ .byte) :
    machine.misaligned (machine.registers.below number amount) = false := by
  have place := toNat_below (Nat.le_trans within points.unwrapped)
  have unwrapped := points.unwrapped
  rw [misaligned]
  cases needed : machine.model.needsAlignedData with
  | false => rfl
  | true =>
      have aligned := points.aligned wide needed
      have amountEven := even wide
      have zero : machine.registers.below number amount % 2 = 0 := by
        apply UInt32.toNat_inj.1
        rw [UInt32.toNat_mod, place]
        show (machine.endOf number - amount) % 2 = 0
        omega
      rw [zero]
      rfl

end Machine

theorem OperandSize.bytes_pos {size : OperandSize} (sized : size ≠ .unsized) :
    0 < size.bytes := by
  cases size <;> first | decide | contradiction

theorem OperandSize.even_bytes {size : OperandSize} (wide : size ≠ .byte) :
    size.bytes % 2 = 0 := by
  cases size <;> first | rfl | contradiction

/-! ## Predecremented operands -/

/-- An operand is fetched from just below its address register, which is lowered
to it. -/
theorem AddressingMode.fetch_predecrement {machine : Machine FlatMemory}
    {number : Fin 8} {size : OperandSize} (sized : size ≠ .unsized)
    (points : machine.PointsAbove number size size.bytes) :
    ∃ value, size.zeroExtend value = value ∧
      machine.memory.run? (machine.registers.below number size.bytes)
          size.bytes = some (size.bytesOf value) ∧
        (AddressingMode.predecrement number).fetch size machine =
          .ok (.memory (machine.registers.below number size.bytes), value)
            (machine.lower number size.bytes) := by
  have mapped : (machine.registers.below number size.bytes).toNat +
      size.bytes ≤ machine.memory.size := by
    rw [Machine.toNat_below_add points.unwrapped]
    exact points.mapped
  obtain ⟨contents, bytes, length⟩ := FlatMemory.exists_run? mapped
  obtain ⟨value, whole, rfl⟩ := OperandSize.exists_bytesOf sized length
  refine ⟨value, whole, bytes, ?_⟩
  have step : AddressingMode.step number size = UInt32.ofNat size.bytes := by
    rw [AddressingMode.step, if_neg]
    rintro ⟨stack, byte⟩
    exact points.notStack byte stack
  have aligned := points.aligned_below (Nat.le_refl _) OperandSize.even_bytes
  have read : Execution.readData (machine.registers.below number size.bytes)
      size (machine.lower number size.bytes) =
        .ok value (machine.lower number size.bytes) :=
    Execution.readData_flat sized aligned whole bytes
  simp only [AddressingMode.fetch, AddressingMode.resolve, Location.read,
    Execution.register, Execution.setRegister, Execution.observe,
    Execution.update, Execution.bind_apply, Execution.pure_apply, step]
  rw [← Registers.below, ← Registers.lower, ← Machine.lower, read]
  simp only [whole]

end M68k

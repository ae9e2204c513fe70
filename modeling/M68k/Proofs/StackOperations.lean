import M68k.Execution.Flow
import M68k.Proofs.DescendingOperands

/-!
# Stack operations on a flat memory

What pushes, calls and frames leave if the stack has room for them, and what
pops, returns and closed frames leave if the stack holds what these take.  The
latter are stated about the registers that are restored.
-/

namespace M68k

/-! ## Registers of a stack frame -/

namespace Registers

/-- An address register that was lowered and is raised again is as it was. -/
theorem raise_lower (registers : Registers) (number : Fin 8) (amount : Nat) :
    (registers.lower number amount).set (.address number)
      (registers.below number amount + UInt32.ofNat amount) = registers := by
  rw [lower, set_set_self, below, UInt32.sub_add_cancel, set_get_self]

/-- The registers once an address register points to a frame on the stack, and
the stack pointer has moved on. -/
def framed (registers : Registers) (number : Fin 8) (displacement : UInt32) :
    Registers :=
  ((registers.lower 7 4).set (.address number)
    (registers.below 7 4)).set .stackPointer
      (registers.below 7 4 + displacement)

theorem stackPointer_framed (registers : Registers) (number : Fin 8)
    (displacement : UInt32) :
    (registers.framed number displacement).get (.address 7) =
      registers.below 7 4 + displacement :=
  get_set_self _ (.address 7) _

section

variable (registers : Registers) {number : Fin 8} (different : number ≠ 7)

include different

theorem below_set_of_ne (value : UInt32) (amount : Nat) :
    (registers.set (.address number) value).below 7 amount =
      registers.below 7 amount := by
  rw [below, get_set_of_ne _ _ (by simpa using different.symm), below]

theorem get_framed (displacement : UInt32) :
    (registers.framed number displacement).get (.address number) =
      registers.below 7 4 := by
  rw [framed, get_set_of_ne _ _ (by simpa [Register.stackPointer]),
    get_set_self]

/-- With the stack pointer back at the frame, the stack has only the saved
register more than before. -/
theorem framed_set_stackPointer (displacement : UInt32) :
    (registers.framed number displacement).set .stackPointer
        (registers.below 7 4) =
      (registers.set (.address number) (registers.below 7 4)).lower 7 4 := by
  have swapped := registers.set_comm
    (show Register.address 7 ≠ .address number by simpa using different.symm)
    (registers.below 7 4) (registers.below 7 4)
  rw [framed, set_set_self, lower, lower, below_set_of_ne _ different, swapped]
  exact set_set_self _ (.address 7) _ _

end

end Registers

/-! ## Single operations -/

namespace Execution

variable {machine : Machine FlatMemory} {size : OperandSize} {value : UInt32}

theorem push_flat (sized : size ≠ .unsized) (wide : size ≠ .byte)
    (points : machine.PointsAbove 7 .long size.bytes) :
    push size value machine =
      .ok ()
        { machine with
          registers := machine.registers.lower 7 size.bytes
          memory := machine.memory.overwrite
            (machine.registers.below 7 size.bytes)
            ((size.bytesOf value).map some) } := by
  have aligned := points.aligned_below (Nat.le_refl _)
    (fun _ => OperandSize.even_bytes wide) (by decide)
  have mapped : (machine.registers.below 7 size.bytes).toNat + size.bytes ≤
      machine.memory.size := by
    rw [Machine.toNat_below_add points.unwrapped]
    exact points.mapped
  have written : writeData (machine.registers.below 7 size.bytes) size value
      machine = _ := writeData_flat sized (fun _ => aligned) mapped
  rw [Registers.below] at written
  simp only [push, register, setRegister, observe, update, bind_apply,
    Register.stackPointer, written]
  rfl

/-- What lies on the stack is popped, and the stack pointer raised. -/
theorem pop_flat (registers : Registers) (value : UInt32)
    (sized : size ≠ .unsized)
    (lowered : machine.registers = registers.lower 7 size.bytes)
    (aligned : machine.misaligned (registers.below 7 size.bytes) = false)
    (holds : machine.memory.run? (registers.below 7 size.bytes) size.bytes =
      some (size.bytesOf value)) :
    pop size machine =
      .ok (size.zeroExtend value) { machine with registers } := by
  have pointer : machine.registers.get .stackPointer =
      registers.below 7 size.bytes := by
    rw [lowered]
    exact registers.get_lower_self _ _
  have read := readData_bytesOf sized (fun _ => aligned) holds
  have raised := registers.raise_lower 7 size.bytes
  rw [← lowered] at raised
  simp only [pop, register, setRegister, observe, update, bind_apply,
    pure_apply, pointer, read]
  rw [Register.stackPointer, raised]

theorem linkBy_flat (number : Fin 8) (displacement : UInt32)
    (points : machine.PointsAbove 7 .long 4) :
    linkBy number displacement machine =
      .ok ()
        { machine with
          registers := machine.registers.framed number displacement
          memory := machine.memory.overwrite (machine.registers.below 7 4)
            ((bytesOfLong (machine.registers.get (.address number))).map
              some) } := by
  have pushed : push .long (machine.registers.get (.address number)) machine =
      _ := push_flat (by decide) (by decide) points
  have pointer : ((machine.registers.lower 7 4).set (.address number)
      (machine.registers.below 7 4)).get .stackPointer =
        machine.registers.below 7 4 := by
    by_cases same : Register.stackPointer = .address number
    · rw [← same, Registers.get_set_self]
    · rw [Registers.get_set_of_ne _ _ same]
      exact Registers.get_lower_self _ _ _
  have below : (machine.registers.lower 7 4).get .stackPointer =
      machine.registers.below 7 4 := Registers.get_lower_self _ _ _
  simp only [linkBy, register, setRegister, observe, update, bind_apply, pushed,
    OperandSize.bytes, OperandSize.bytesOf, below, pointer, Registers.framed]

/-- Closing a frame undoes what opening it did to the registers. -/
theorem unlk_flat (registers : Registers) {number : Fin 8}
    {displacement : UInt32} (different : number ≠ 7)
    (framed : machine.registers = registers.framed number displacement)
    (aligned : machine.misaligned (registers.below 7 4) = false)
    (holds : machine.memory.run? (registers.below 7 4) 4 =
      some (bytesOfLong (registers.get (.address number)))) :
    unlk number machine = .ok () { machine with registers } := by
  have below := registers.below_set_of_ne different (registers.below 7 4) 4
  have lowered : machine.registers.set .stackPointer
      (machine.registers.get (.address number)) =
        (registers.set (.address number) (registers.below 7 4)).lower 7 4 := by
    rw [framed, registers.get_framed different,
      registers.framed_set_stackPointer different]
  rw [← below] at aligned holds
  have popped : pop .long { machine with
      registers := machine.registers.set .stackPointer
        (machine.registers.get (.address number)) } = _ :=
    pop_flat _ (registers.get (.address number)) (by decide) lowered aligned
      holds
  simp only [unlk, register, setRegister, observe, update, bind_apply, popped,
    OperandSize.zeroExtend_long, Registers.set_set_self,
    Registers.set_get_self]

theorem rts_flat (registers : Registers) (back : UInt32)
    (lowered : machine.registers = registers.lower 7 4)
    (aligned : machine.misaligned (registers.below 7 4) = false)
    (holds : machine.memory.run? (registers.below 7 4) 4 =
      some (bytesOfLong back)) :
    rts machine =
      .ok () { machine with registers := { registers with pc := back } } := by
  have popped : pop .long machine = _ :=
    pop_flat registers back (by decide) lowered aligned holds
  simp only [rts, setPc, update, bind_apply, popped,
    OperandSize.zeroExtend_long]
  rfl

theorem callSubroutine_flat (target : UInt32)
    (points : machine.PointsAbove 7 .long 4) :
    callSubroutine target machine =
      .ok ()
        { machine with
          registers := { machine.registers.lower 7 4 with pc := target }
          memory := machine.memory.overwrite (machine.registers.below 7 4)
            ((bytesOfLong machine.registers.pc).map some) } := by
  have pushed : push .long machine.registers.pc machine = _ :=
    push_flat (by decide) (by decide) points
  simp only [callSubroutine, pc, setPc, observe, update, bind_apply, pushed]
  rfl

end Execution

end M68k

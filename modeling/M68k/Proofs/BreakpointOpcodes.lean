import M68k.Proofs.DecodedModes

/-!
# The opcodes of breakpoints

Eight opcodes are breakpoints, and no line of the instruction set but the fourth
has one.
-/

namespace M68k.Instruction

open Opcode

/-- A word does not stand for a breakpoint. -/
def NoBreakpoint (decoded : Option Instruction) : Prop :=
  ∀ vector, decoded ≠ some (.bkpt vector)

theorem NoBreakpoint.bind {α : Type} {first : Option α}
    {next : α → Option Instruction}
    (ordinary : ∀ value, NoBreakpoint (next value)) :
    NoBreakpoint (first >>= next) := by
  intro vector decoded
  obtain ⟨value, -, decoded⟩ := Option.bind_eq_some_iff.mp decoded
  exact ordinary value vector decoded

section Lines

variable (word : UInt16)

theorem noBreakpoint_leaOrChk (mode : AddressingMode) :
    NoBreakpoint (decodeLeaOrChk word mode) := by
  intro vector decoded
  grind [decodeLeaOrChk]

theorem noBreakpoint_oneOperand (mode : AddressingMode) :
    NoBreakpoint (decodeOneOperand word mode) := by
  intro vector decoded
  simp only [decodeOneOperand] at decoded
  split at decoded <;> simp [Option.bind_eq_some_iff] at decoded

end Lines

/-- In line 4 the words that name no addressing mode decide. -/
theorem decodeLine4_eq_bkpt {word : UInt16} {vector : Fin 8}
    (decoded : decodeLine4 word = some (.bkpt vector)) :
    word &&& 0xFFF8 = 0x4848 ∧ lowerRegister word = vector := by
  simp only [decodeLine4] at decoded
  split at decoded
  · rename_i instruction fixed
    cases decoded
    simp only [decodeLine4Fixed] at fixed
    split at fixed <;> try cases fixed
    split at fixed <;> cases fixed
    rename_i field
    exact ⟨field, rfl⟩
  · refine absurd decoded (NoBreakpoint.bind (fun mode => ?_) vector)
    split
    · exact noBreakpoint_leaOrChk word mode
    · exact noBreakpoint_oneOperand word mode

/-- The thirteen high bits and the three low ones make up a word. -/
theorem eq_of_fields {word : UInt16} (field : word &&& 0xFFF8 = 0x4848) :
    word = 0x4848 + UInt16.ofNat (lowerRegister word).val := by
  have high : word.toNat / 8 = 0x909 := by
    have bits : (word.toNat &&& 0xFFF8) >>> 3 = 0x4848 >>> 3 :=
      congrArg (fun value => value.toNat >>> 3) field
    have range := word.toNat_lt
    rw [Nat.shiftRight_and_distrib] at bits
    have masked : word.toNat >>> 3 &&& (0xFFF8 >>> 3) =
        word.toNat >>> 3 % 2 ^ 13 := Nat.and_two_pow_sub_one_eq_mod _ 13
    have quotient : word.toNat >>> 3 = word.toNat / 8 :=
      Nat.shiftRight_eq_div_pow _ _
    rw [masked, quotient, Nat.mod_eq_of_lt (by omega)] at bits
    exact bits
  have low : (lowerRegister word).val = word.toNat % 8 := rfl
  apply UInt16.toNat_inj.1
  rw [UInt16.toNat_add, UInt16.toNat_ofNat, low]
  show word.toNat = (0x4848 + word.toNat % 8 % 65536) % 65536
  omega

/-- A word decodes as a breakpoint exactly if it is the breakpoint's opcode. -/
theorem decode?_eq_bkpt_iff {word : UInt16} {vector : Fin 8} :
    decode? word = some (.bkpt vector) ↔
      word = 0x4848 + UInt16.ofNat vector.val := by
  constructor
  · intro decoded
    obtain ⟨field, rfl⟩ :=
      decodeLine4_eq_bkpt (decodeLine4_of_decode? decoded id)
    exact eq_of_fields field
  · rintro rfl
    revert vector
    decide

end M68k.Instruction

import M68k.Memory.Flat
import M68k.Proofs.StackBanks
import Mathlib.Data.Nat.Bitwise
import Mathlib.Tactic.IntervalCases

/-!
# Paths and their answers

A path leads to the probe that has it and to no other, so the listed paths are
exactly those that are answered.  The answers about the status register agree
with one another, and with the bank that the stack pointer in use stands for.
-/

namespace M68k

/-! ## Single bits -/

private theorem and_two_pow_eq_zero_iff (value position : Nat) :
    value &&& 2 ^ position = 0 ↔ value.testBit position = false := by
  rw [Nat.and_two_pow]
  cases value.testBit position <;> simp

/-- A word has a bit in common with a mask of one bit if it has that bit. -/
theorem and_bne_zero_eq_bitAt (word : UInt16) {mask : UInt16} {position : Nat}
    (single : mask.toNat = 2 ^ position) :
    (word &&& mask != 0) = bitAt word position := by
  have absent := and_two_pow_eq_zero_iff word.toNat position
  rw [← single, ← UInt16.toNat_and, ← UInt16.toNat_zero, UInt16.toNat_inj]
    at absent
  rw [bitAt, Bool.eq_iff_iff, bne_iff_ne, Ne, absent, Bool.not_eq_false]

theorem and_bne_zero_eq_testBit (byte : UInt8) {mask : UInt8} {position : Nat}
    (single : mask.toNat = 2 ^ position) :
    (byte &&& mask != 0) = byte.toNat.testBit position := by
  have absent := and_two_pow_eq_zero_iff byte.toNat position
  rw [← single, ← UInt8.toNat_and, ← UInt8.toNat_zero, UInt8.toNat_inj]
    at absent
  rw [Bool.eq_iff_iff, bne_iff_ne, Ne, absent, Bool.not_eq_false]

/-- The condition codes are the low byte of the status word. -/
theorem StatusRegister.toUInt8_toWord (status : StatusRegister) :
    status.toWord.toUInt8 = status.codes.toByte := by
  apply UInt8.toBitVec_inj.1
  apply BitVec.eq_of_getLsbD_eq
  intro position inside
  interval_cases position <;> simp [toWord, ConditionCodes.toByte]

/-! ## Paths -/

namespace Probe

theorem mem_all (probe : Probe) : probe ∈ all := by
  cases probe with
  | general register =>
      cases register with
      | data number => revert number; decide
      | address number => revert number; decide
  | stack bank => cases bank <;> decide
  | _ => decide

/-- The path of a probe leads back to it. -/
theorem ofPath?_path (probe : Probe) : ofPath? probe.path = some probe := by
  cases probe with
  | general register =>
      cases register with
      | data number => revert number; decide
      | address number => revert number; decide
  | stack bank => cases bank <;> decide
  | _ => decide

theorem eq_of_registerNumber? {digits : List Char} {number : Fin 8}
    (found : registerNumber? digits = some number) :
    digits = (toString number.val).toList := by
  unfold registerNumber? at found
  split at found
  · rename_i digit
    split at found
    · rename_i range
      obtain ⟨lower, upper⟩ : 48 ≤ digit.toNat ∧ digit.toNat ≤ 55 := range
      have same := digit.ofNat_toNat
      generalize digit.toNat = code at lower upper found same
      subst same
      cases found
      interval_cases code <;> rfl
    · cases found
  · cases found

/-- A path that names a register by its number is the register's path. -/
theorem path_of_registerOfPath? {path : String} {register : Register}
    (found : registerOfPath? path = some register) :
    (general register).path = path := by
  unfold registerOfPath? at found
  rw [← String.toList_inj]
  split at found
  · rename_i number letters
    obtain ⟨value, read, rfl⟩ := Option.map_eq_some_iff.mp found
    rw [letters, eq_of_registerNumber? read]
    exact String.toList_append
  · rename_i number letters
    obtain ⟨value, read, rfl⟩ := Option.map_eq_some_iff.mp found
    rw [letters, eq_of_registerNumber? read]
    exact String.toList_append
  · cases found

theorem path_of_ofName? {path : String} {probe : Probe}
    (found : ofName? path = some probe) : probe.path = path := by
  unfold ofName? at found
  split at found
  case h_19 => cases found
  all_goals
    cases found
    rfl

/-- Nothing but its path leads to a probe. -/
theorem ofPath?_eq_some_iff {path : String} {probe : Probe} :
    ofPath? path = some probe ↔ probe.path = path := by
  constructor
  · intro found
    unfold ofPath? at found
    split at found
    · rename_i register numbered
      cases found
      exact path_of_registerOfPath? numbered
    · exact path_of_ofName? found
  · rintro rfl
    exact probe.ofPath?_path

end Probe

/-! ## Answers -/

/-- The bank that the supervisor and master bits of a status word select. -/
def StackBank.ofStatusWord (word : UInt16) : StackBank :=
  if bitAt word 13 then
    if bitAt word 12 then .master else .interrupt
  else .user

theorem StackBank.isSelected_iff_ofStatusWord (bank : StackBank)
    (status : StatusRegister) :
    bank.isSelected status = true ↔ bank = ofStatusWord status.toWord := by
  have supervisor : status.supervisor = bitAt status.toWord 13 :=
    and_bne_zero_eq_bitAt _ rfl
  have master : status.master = bitAt status.toWord 12 :=
    and_bne_zero_eq_bitAt _ rfl
  unfold isSelected ofStatusWord
  rw [supervisor, master]
  cases bank <;> cases bitAt status.toWord 13 <;>
    cases bitAt status.toWord 12 <;> decide

namespace Emulator

variable {σ : Type}

/-- The answers about the status register, given its word. -/
structure AnswersStatus (emulator : Emulator σ) (word : UInt16) : Prop where
  sr : emulator.query "sr" = some (.word word)
  ccr : emulator.query "ccr" = some (.byte word.toUInt8)
  flags : ∀ path position,
    (path, position) ∈ [("flags.x", 4), ("flags.n", 3), ("flags.z", 2),
      ("flags.v", 1), ("flags.c", 0)] →
      emulator.query path =
        some (.bool (word.toUInt8.toNat.testBit position))
  /-- The stack pointer in use is the selected one of the three. -/
  pointer : emulator.query "a7" =
    emulator.query (Probe.stack (.ofStatusWord word)).path
  /-- A word that the model can have selects the bank that the machine loads and
  saves when its status word is written. -/
  active : emulator.machine.StatusFits →
    StackBank.ofStatusWord word = emulator.machine.activeBank

theorem query_path (emulator : Emulator σ) (probe : Probe) :
    emulator.query probe.path = some (emulator.inspect probe) := by
  rw [query, probe.ofPath?_path, Option.map_some]

theorem query_isSome_iff (emulator : Emulator σ) (path : String) :
    (emulator.query path).isSome = true ↔ path ∈ queryPaths := by
  rw [query, Option.isSome_map, Option.isSome_iff_exists, queryPaths,
    List.mem_map]
  constructor
  · rintro ⟨probe, found⟩
    exact ⟨probe, probe.mem_all, Probe.ofPath?_eq_some_iff.mp found⟩
  · rintro ⟨probe, -, same⟩
    exact ⟨probe, Probe.ofPath?_eq_some_iff.mpr same⟩

theorem answersStatus (emulator : Emulator σ) :
    emulator.AnswersStatus emulator.machine.status.toWord := by
  have low := emulator.machine.status.toUInt8_toWord
  have flag {mask : UInt8} {position : Nat}
      (single : mask.toNat = 2 ^ position) :
      Value.bool (emulator.machine.status.codes.toByte &&& mask != 0) =
        .bool (emulator.machine.status.toWord.toUInt8.toNat.testBit
          position) := by
    rw [low, and_bne_zero_eq_testBit _ single]
  have selected := fun bank : StackBank =>
    bank.isSelected_iff_ofStatusWord emulator.machine.status
  constructor
  case sr => exact emulator.query_path .sr
  case ccr =>
    rw [low]
    exact emulator.query_path .ccr
  case flags =>
    intro path position listed
    simp only [List.mem_cons, Prod.mk.injEq, List.not_mem_nil, or_false]
      at listed
    rcases listed with ⟨rfl, rfl⟩ | ⟨rfl, rfl⟩ | ⟨rfl, rfl⟩ | ⟨rfl, rfl⟩ |
      ⟨rfl, rfl⟩
    · exact (emulator.query_path .extend).trans (congrArg some (flag rfl))
    · exact (emulator.query_path .negative).trans (congrArg some (flag rfl))
    · exact (emulator.query_path .zero).trans (congrArg some (flag rfl))
    · exact (emulator.query_path .overflow).trans (congrArg some (flag rfl))
    · exact (emulator.query_path .carry).trans (congrArg some (flag rfl))
  case pointer =>
    refine (emulator.query_path (.general .stackPointer)).trans ?_
    rw [query_path, inspect, inspect, Machine.logicalStackPointer,
      if_pos ((selected _).mpr rfl)]
    rfl
  case active =>
    intro fits
    exact (fits.masterFits.isSelected_iff _).mp ((selected _).mpr rfl)

/-- A path is answered exactly if it is listed, whatever the state, and the
answers about the status register agree with one another. -/
theorem queries_agree (emulator : Emulator σ) :
    (∀ path, (emulator.query path).isSome = true ↔ path ∈ queryPaths) ∧
      ∃ word, emulator.AnswersStatus word :=
  ⟨emulator.query_isSome_iff, _, emulator.answersStatus⟩

/-- An emulator that uses the master stack, with the extend and carry flags
set. -/
def onMasterStack : Emulator FlatMemory where
  machine :=
    { model := .mc68020
      status := .ofWord 0x3011
      registers :=
        { address := #v[0, 0, 0, 0, 0, 0, 0, 0x7800]
          isp := 0x8000
          msp := 0x1000 }
      memory := ⟨#[]⟩ }

theorem onMasterStack_agrees :
    onMasterStack.machine.StatusFits ∧
      onMasterStack.machine.activeBank = .master ∧
      onMasterStack.query "a7" = onMasterStack.query "msp" ∧
      onMasterStack.query "flags.c" = some (.bool true) ∧
      (onMasterStack.query "dfc").isSome = true ∧
      (onMasterStack.query "d8").isSome = false := by
  obtain ⟨listed, word, answers⟩ := onMasterStack.queries_agree
  have fits : onMasterStack.machine.StatusFits := by decide
  have sr : onMasterStack.query "sr" = some (.word 0x3011) := by decide
  obtain rfl : 0x3011 = word := by
    have same := sr.symm.trans answers.sr
    cases same
    rfl
  refine ⟨fits, (answers.active fits).symm, answers.pointer,
    answers.flags _ 0 (by decide), (listed _).mpr (by decide), ?_⟩
  rw [Bool.eq_false_iff, Ne, listed]
  decide

end Emulator

end M68k

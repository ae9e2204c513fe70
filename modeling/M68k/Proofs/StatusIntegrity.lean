import M68k.Proofs.MachineInvariant

/-!
# Integrity of the status register

The groups of the status register are stored as bytes, and composing the status
word does not mask them.  They never hold more than their bits of the word, and
never a bit that the model lacks, so that taking the word apart gives the
register back.
-/

namespace M68k

theorem Model.statusMask_cases (model : Model) :
    model.statusMask = 0xF71F ∨ model.statusMask = 0xA71F := by
  cases model <;> decide

namespace StatusRegister

/-- Each group fits in its bits of the status word, and these bits are among
those of the model. -/
structure ValidOn (status : StatusRegister) (model : Model) : Prop where
  mode : status.mode &&& (model.statusMask >>> 12).toUInt8 = status.mode
  interruptMask : status.interruptMask &&& 7 = status.interruptMask
  codes : status.codes.InRange

theorem validOn_ofWord (word : UInt16) (model : Model) :
    (ofWord (word &&& model.statusMask)).ValidOn model := by
  constructor
  · apply UInt8.toBitVec_inj.1
    apply BitVec.eq_of_getLsbD_eq
    intro position inside
    simp only [ofWord]
    rcases model.statusMask_cases with mask | mask <;> rw [mask] <;>
      interval_cases position <;> simp [-UInt16.toUInt16_toUInt8]
  · exact interruptMask_ofWord _
  · constructor
    · apply UInt8.le_iff_toNat_le.mpr
      simp only [ofWord, UInt16.toNat_toUInt8, UInt16.toNat_and]
      exact Nat.le_trans (Nat.mod_le _ _) Nat.and_le_right
    · apply UInt8.le_iff_toNat_le.mpr
      simp only [ofWord, UInt16.toNat_toUInt8, UInt16.toNat_and]
      exact Nat.le_trans (Nat.mod_le _ _) Nat.and_le_right

theorem validOn_zero (model : Model) :
    ({} : StatusRegister).ValidOn model := by
  constructor
  · exact UInt8.zero_and
  · rfl
  · constructor <;> decide

variable {status : StatusRegister} {model : Model}

/-- The register without what its groups cannot hold on a model. -/
def trim (status : StatusRegister) (model : Model) : StatusRegister where
  mode := status.mode &&& (model.statusMask >>> 12).toUInt8
  interruptMask := status.interruptMask &&& 7
  codes := ⟨status.codes.extend &&& 1, status.codes.flags &&& 0xF⟩

theorem ValidOn.trim_eq (valid : status.ValidOn model) :
    status.trim model = status := by
  have extend : status.codes.extend &&& 1 = status.codes.extend := by
    have range := UInt8.le_iff_toNat_le.mp valid.codes.extend
    apply UInt8.toNat_inj.1
    rw [UInt8.toNat_and]
    exact (Nat.and_two_pow_sub_one_eq_mod _ 1).trans
      (Nat.mod_eq_of_lt (Nat.lt_succ_of_le range))
  have flags : status.codes.flags &&& 0xF = status.codes.flags := by
    have range := UInt8.le_iff_toNat_le.mp valid.codes.flags
    apply UInt8.toNat_inj.1
    rw [UInt8.toNat_and]
    exact (Nat.and_two_pow_sub_one_eq_mod _ 4).trans
      (Nat.mod_eq_of_lt (Nat.lt_succ_of_le range))
  rw [trim, valid.mode, valid.interruptMask, extend, flags]

theorem ValidOn.toWord_and_statusMask (valid : status.ValidOn model) :
    status.toWord &&& model.statusMask = status.toWord := by
  rw [← valid.trim_eq]
  apply UInt16.toBitVec_inj.1
  apply BitVec.eq_of_getLsbD_eq
  intro position inside
  simp only [toWord, trim]
  rcases model.statusMask_cases with mask | mask <;> rw [mask] <;>
    interval_cases position <;> simp

theorem ValidOn.ofWord_toWord (valid : status.ValidOn model) :
    ofWord status.toWord = status := by
  rw [← valid.trim_eq]
  have mode : ((status.trim model).toWord >>> 12).toUInt8 =
      (status.trim model).mode := by
    apply UInt8.toBitVec_inj.1
    apply BitVec.eq_of_getLsbD_eq
    intro position inside
    simp only [toWord, trim]
    rcases model.statusMask_cases with mask | mask <;> rw [mask] <;>
      interval_cases position <;> simp [-UInt16.toUInt16_toUInt8]
  have interruptMask : (((status.trim model).toWord >>> 8) &&& 7).toUInt8 =
      (status.trim model).interruptMask := by
    apply UInt8.toBitVec_inj.1
    apply BitVec.eq_of_getLsbD_eq
    intro position inside
    interval_cases position <;> simp [-UInt16.toUInt16_toUInt8, toWord, trim]
  have extend : (((status.trim model).toWord >>> 4) &&& 1).toUInt8 =
      (status.trim model).codes.extend := by
    apply UInt8.toBitVec_inj.1
    apply BitVec.eq_of_getLsbD_eq
    intro position inside
    interval_cases position <;> simp [-UInt16.toUInt16_toUInt8, toWord, trim]
  have flags : ((status.trim model).toWord &&& 0xF).toUInt8 =
      (status.trim model).codes.flags := by
    apply UInt8.toBitVec_inj.1
    apply BitVec.eq_of_getLsbD_eq
    intro position inside
    interval_cases position <;> simp [-UInt16.toUInt16_toUInt8, toWord, trim]
  rw [ofWord, mode, interruptMask, extend, flags]

theorem ValidOn.inRange (valid : status.ValidOn model) :
    status.mode ≤ 15 ∧ status.interruptMask ≤ 7 ∧ status.codes.InRange := by
  have mode : status.mode &&& 15 = status.mode := by
    rw [← valid.mode, UInt8.and_assoc]
    rcases model.statusMask_cases with mask | mask <;> rw [mask] <;> rfl
  refine ⟨?_, ?_, valid.codes⟩
  · rw [← mode, UInt8.le_iff_toNat_le, UInt8.toNat_and]
    exact Nat.and_le_right
  · rw [← valid.interruptMask, UInt8.le_iff_toNat_le, UInt8.toNat_and]
    exact Nat.and_le_right

end StatusRegister

namespace Machine

variable {σ : Type}

/-- A machine of a model with a valid status register. -/
structure HasValidStatus (model : Model) (machine : Machine σ) : Prop where
  status : machine.status.ValidOn model
  model : machine.model = model

variable {model : Model} {machine : Machine σ}

theorem HasValidStatus.setStatusWord (valid : machine.HasValidStatus model)
    (word : UInt16) : (machine.setStatusWord word).HasValidStatus model := by
  constructor
  · rw [← valid.model]
    exact StatusRegister.validOn_ofWord word machine.model
  · exact valid.model

/-- Condition codes replace condition codes only. -/
theorem HasValidStatus.setConditionCodes
    (valid : machine.HasValidStatus model) {codes : ConditionCodes}
    (inRange : codes.InRange) :
    (machine.setConditionCodes codes).HasValidStatus model := by
  constructor
  · exact ⟨valid.status.mode, valid.status.interruptMask, inRange⟩
  · exact valid.model

/-- An accepted interrupt writes the interrupt mask beside the status word. -/
theorem HasValidStatus.withInterruptMask
    (valid : machine.HasValidStatus model) (level : UInt8) :
    (machine.withInterruptMask (level &&& 7)).HasValidStatus model := by
  constructor
  · constructor
    · exact valid.status.mode
    · show level &&& 7 &&& 7 = level &&& 7
      rw [UInt8.and_assoc]
      rfl
    · exact valid.status.codes
  · exact valid.model

theorem hasValidStatus_invariant [Memory σ] (model : Model) :
    MachineInvariant fun machine : Machine σ =>
      machine.HasValidStatus model where
  writeGeneral valid _ _ := ⟨valid.status, valid.model⟩
  writeCounter valid _ := ⟨valid.status, valid.model⟩
  writeCodes valid _ inRange :=
    valid.setConditionCodes (inRange valid.status.codes)
  access valid _ _ _ _ := ⟨valid.status, valid.model⟩
  writeControl valid _ _ := ⟨valid.status, valid.model⟩
  saveStackPointer valid := ⟨valid.status, valid.model⟩
  loadStackPointer valid := ⟨valid.status, valid.model⟩
  writeStatus valid word := valid.setStatusWord word
  writeCondition valid _ := ⟨valid.status, valid.model⟩
  resetDevices valid := ⟨valid.status, valid.model⟩
  accessAny valid _ _ _ := ⟨valid.status, valid.model⟩
  writeOpcode valid _ := ⟨valid.status, valid.model⟩
  attach valid _ := ⟨valid.status, valid.model⟩
  recordVisit valid _ := ⟨valid.status, valid.model⟩
  raiseMask valid level := valid.withInterruptMask level
  clear valid := ⟨StatusRegister.validOn_zero model, valid.model⟩

end Machine

/-- Whatever a host does with a new emulator, and whatever handlers it attaches
on the way, the status register stays in range, has no bit that the model lacks,
and is the one that its status word stands for.  A host that attaches a handler
before every step can choose it by what it finds. -/
theorem Emulator.status_valid {σ : Type} [Memory σ] (model : Model)
    (memory : σ) (limit : Option UInt64) (commands : List HostCommand) :
    let machine := ((new model memory limit).afterCommands commands).machine
    machine.model = model ∧
      (machine.status.mode ≤ 15 ∧ machine.status.interruptMask ≤ 7 ∧
        machine.status.codes.InRange) ∧
      machine.status.toWord &&& model.statusMask = machine.status.toWord ∧
      StatusRegister.ofWord machine.status.toWord = machine.status := by
  intro machine
  have new : (new model memory limit).machine.HasValidStatus model := by
    constructor
    · exact StatusRegister.validOn_zero model
    · rfl
  have valid : machine.HasValidStatus model :=
    (Machine.hasValidStatus_invariant model).afterCommands new commands
  constructor
  · exact valid.model
  · constructor
    · exact valid.status.inRange
    · constructor
      · exact valid.status.toWord_and_statusMask
      · exact valid.status.ofWord_toWord

end M68k

import M68k.Machine
import Mathlib.Tactic.IntervalCases

/-!
# Status words

Composing a status word and taking it apart again keeps exactly the bits that
some model has.  The supervisor, master and trace bits come from the system half
of the register, so no condition code reaches them.
-/

namespace M68k

namespace StatusRegister

theorem toWord_ofWord (word : UInt16) :
    (ofWord word).toWord = word &&& 0xF71F := by
  apply UInt16.toBitVec_inj.1
  apply BitVec.eq_of_getLsbD_eq
  intro position inside
  interval_cases position <;>
    simp [-UInt16.toUInt16_toUInt8, ofWord, toWord]

private theorem toWord_and_eq_of_codes (status : StatusRegister)
    (codes : ConditionCodes) (bit : UInt16)
    (high : bit = StatusBit.supervisor ∨ bit = StatusBit.master ∨
      bit = StatusBit.trace) :
    { status with codes }.toWord &&& bit = status.toWord &&& bit := by
  apply UInt16.toBitVec_inj.1
  apply BitVec.eq_of_getLsbD_eq
  intro position inside
  rcases high with rfl | rfl | rfl <;> interval_cases position <;>
    simp [toWord, StatusBit.supervisor, StatusBit.master, StatusBit.trace]

@[simp]
theorem supervisor_withCodes (status : StatusRegister)
    (codes : ConditionCodes) :
    { status with codes }.supervisor = status.supervisor := by
  simp only [supervisor]
  rw [toWord_and_eq_of_codes _ _ _ (.inl rfl)]

@[simp]
theorem master_withCodes (status : StatusRegister) (codes : ConditionCodes) :
    { status with codes }.master = status.master := by
  simp only [master]
  rw [toWord_and_eq_of_codes _ _ _ (.inr (.inl rfl))]

private theorem toWord_and_eq_of_mask (status : StatusRegister)
    (level : UInt8) {bits : UInt16} (apart : bits &&& 0x0700 = 0) :
    { status with interruptMask := level &&& 7 }.toWord &&& bits =
      { status with interruptMask := 0 }.toWord &&& bits := by
  have clear (position : Nat) (inside : position < 16)
      (masked : (0x0700#16).getLsbD position = true) :
      bits.toBitVec[position] = false := by
    have zero := congrArg (·.toBitVec.getLsbD position) apart
    rw [← BitVec.getLsbD_eq_getElem]
    simpa [masked] using zero
  apply UInt16.toBitVec_inj.1
  apply BitVec.eq_of_getLsbD_eq
  intro position inside
  interval_cases position <;>
    simp [toWord, clear 8 (by decide) rfl, clear 9 (by decide) rfl,
      clear 10 (by decide) rfl]

/-- The bits beside the interrupt mask do not depend on its level, as long as
the level fits in the three bits of the mask. -/
theorem toWord_and_withMask {status : StatusRegister} (level : UInt8)
    {bits : UInt16}
    (fits : status.interruptMask &&& 7 = status.interruptMask)
    (apart : bits &&& 0x0700 = 0) :
    { status with interruptMask := level &&& 7 }.toWord &&& bits =
      status.toWord &&& bits := by
  have same := toWord_and_eq_of_mask status status.interruptMask apart
  rw [fits] at same
  rw [toWord_and_eq_of_mask status level apart]
  exact same.symm

theorem interruptMask_ofWord (word : UInt16) :
    (ofWord word).interruptMask &&& 7 = (ofWord word).interruptMask := by
  apply UInt8.toBitVec_inj.1
  apply BitVec.eq_of_getLsbD_eq
  intro position inside
  interval_cases position <;> simp [-UInt16.toUInt16_toUInt8, ofWord]

end StatusRegister

namespace Model

/-- The bits of a model's status word are among those that are stored. -/
theorem statusMask_and_stored (model : Model) :
    model.statusMask &&& 0xF71F = model.statusMask := by
  cases model <;> decide

theorem statusMask_and_supervisor (model : Model) :
    model.statusMask &&& StatusBit.supervisor = StatusBit.supervisor := by
  cases model <;> decide

/-- The master bit is in a model's status word exactly when the model has the
master stack. -/
theorem statusMask_and_master (model : Model) :
    model.statusMask &&& StatusBit.master =
      if model.hasMasterStack then StatusBit.master else 0 := by
  cases model <;> decide

end Model

/-- The status word of an exception handler: supervisor mode with tracing
off. -/
def handlerStatus (status : UInt16) : UInt16 :=
  (status &&& 0x3FFF) ||| StatusBit.supervisor

theorem handlerStatus_and_supervisor (status : UInt16) :
    handlerStatus status &&& StatusBit.supervisor = StatusBit.supervisor := by
  apply UInt16.toBitVec_inj.1
  apply BitVec.eq_of_getLsbD_eq
  intro position inside
  interval_cases position <;> simp [handlerStatus, StatusBit.supervisor]

theorem handlerStatus_and_master (status : UInt16) :
    handlerStatus status &&& StatusBit.master =
      status &&& StatusBit.master := by
  apply UInt16.toBitVec_inj.1
  apply BitVec.eq_of_getLsbD_eq
  intro position inside
  interval_cases position <;>
    simp [handlerStatus, StatusBit.supervisor, StatusBit.master]

theorem handlerStatus_and_trace (status : UInt16) :
    handlerStatus status &&& StatusBit.trace = 0 := by
  apply UInt16.toBitVec_inj.1
  apply BitVec.eq_of_getLsbD_eq
  intro position inside
  interval_cases position <;>
    simp [handlerStatus, StatusBit.supervisor, StatusBit.trace]

private theorem and_eq_self_of_and_not {word mask : UInt16}
    (rest : word &&& ~~~mask = 0) : word &&& mask = word := by
  apply UInt16.toBitVec_inj.1
  apply BitVec.eq_of_getLsbD_eq
  intro position inside
  have clear := congrArg (·.toBitVec.getLsbD position) rest
  simpa [inside] using clear

namespace Machine

variable {σ : Type} (machine : Machine σ)

/-- The status word has no bit that the model lacks, as after every write of
it. -/
def StatusFits : Prop :=
  machine.status.toWord &&& machine.model.statusMask = machine.status.toWord

instance : Decidable machine.StatusFits :=
  inferInstanceAs (Decidable (_ = _))

theorem toWord_setStatusWord (word : UInt16) :
    (machine.setStatusWord word).status.toWord =
      word &&& machine.model.statusMask := by
  have stored :=
    StatusRegister.toWord_ofWord (word &&& machine.model.statusMask)
  rw [UInt16.and_assoc, Model.statusMask_and_stored] at stored
  exact stored

/-- Whatever word is written, only bits that the model has are kept. -/
theorem statusFits_setStatusWord (word : UInt16) :
    (machine.setStatusWord word).StatusFits := by
  have model : (machine.setStatusWord word).model = machine.model := rfl
  rw [StatusFits, toWord_setStatusWord, model, UInt16.and_assoc,
    UInt16.and_self]

/-- The machine with another interrupt mask. -/
def withInterruptMask (level : UInt8) : Machine σ :=
  { machine with status := { machine.status with interruptMask := level } }

theorem supervisor_withInterruptMask {machine : Machine σ} (level : UInt8)
    (masked : machine.status.interruptMask &&& 7 =
      machine.status.interruptMask) :
    (machine.withInterruptMask (level &&& 7)).status.supervisor =
      machine.status.supervisor := by
  simp only [StatusRegister.supervisor]
  rw [withInterruptMask,
    StatusRegister.toWord_and_withMask level masked (by decide)]

theorem master_withInterruptMask {machine : Machine σ} (level : UInt8)
    (masked : machine.status.interruptMask &&& 7 =
      machine.status.interruptMask) :
    (machine.withInterruptMask (level &&& 7)).status.master =
      machine.status.master := by
  simp only [StatusRegister.master]
  rw [withInterruptMask,
    StatusRegister.toWord_and_withMask level masked (by decide)]

theorem trace_withInterruptMask {machine : Machine σ} (level : UInt8)
    (masked : machine.status.interruptMask &&& 7 =
      machine.status.interruptMask) :
    (machine.withInterruptMask (level &&& 7)).status.trace =
      machine.status.trace := by
  simp only [StatusRegister.trace]
  rw [withInterruptMask,
    StatusRegister.toWord_and_withMask level masked (by decide)]

theorem StatusFits.withInterruptMask {machine : Machine σ}
    (fits : machine.StatusFits) (level : UInt8)
    (masked : machine.status.interruptMask &&& 7 =
      machine.status.interruptMask) :
    (machine.withInterruptMask (level &&& 7)).StatusFits := by
  have lacking : (machine.withInterruptMask (level &&& 7)).status.toWord &&&
      ~~~machine.model.statusMask =
        machine.status.toWord &&& ~~~machine.model.statusMask := by
    refine StatusRegister.toWord_and_withMask level masked ?_
    cases machine.model <;> decide
  have none : machine.status.toWord &&& ~~~machine.model.statusMask = 0 := by
    rw [← fits, UInt16.and_assoc, UInt16.and_not_self, UInt16.and_zero]
  exact and_eq_self_of_and_not (lacking.trans none)

end Machine

end M68k

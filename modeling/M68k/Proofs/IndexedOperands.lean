import M68k.Memory.Flat
import M68k.Operand
import M68k.Proofs.FetchExecutions
import M68k.Proofs.LongIntegers

/-!
# Indexed operands

The extension words of an indexed mode say where its operand is: a base, an
index and displacements are added up modulo 2^32, and a pointer may be read on
the way.  What the bits of the words mean is told here in numbers, apart from
how they are fetched.
-/

namespace M68k

/-- The number in some bits of a word. -/
def bitsOf (word : UInt16) (low count : Nat) : Nat :=
  word.toNat / 2 ^ low % 2 ^ count

theorem bitsOf_lt (word : UInt16) (low count : Nat) :
    bitsOf word low count < 2 ^ count :=
  Nat.mod_lt _ (Nat.two_pow_pos count)

theorem bitsOf_one (word : UInt16) (position : Nat) :
    bitsOf word position 1 = 0 ∨ bitsOf word position 1 = 1 :=
  Nat.mod_two_eq_zero_or_one _

/-! ## What extension words say -/

/-- A displacement by the size that two bits name: nothing, a signed word or a
long. -/
inductive IsDisplacement : Nat → List UInt16 → Int → Prop where
  | nothing {size : Nat} (small : size < 2) : IsDisplacement size [] 0
  | word (word : UInt16) :
      IsDisplacement 2 [word] (Signedness.signed.read 16 word.toNat)
  | long (high low : UInt16) :
      IsDisplacement 3 [high, low] (high.toNat * 2 ^ 16 + low.toNat)

/-- Where an indexed operand is. -/
inductive IndexedOperand where
  /-- Nowhere, because no model defines the extension word. -/
  | undefined
  | direct (address : Int)
  /-- At a distance from where a pointer in data space points. -/
  | indirect (pointer distance : Int)
deriving DecidableEq, Repr

namespace IndexedOperand

/-- The register that an extension word names as index. -/
def indexRegister (word : UInt16) : Register :=
  if bitsOf word 15 1 = 0 then .data (Fin.ofNat 8 (bitsOf word 12 3))
  else .address (Fin.ofNat 8 (bitsOf word 12 3))

/-- The index register, whole or its signed low word, and scaled on the models
that scale. -/
def index (model : Model) (registers : Registers) (word : UInt16) : Int :=
  let value := (registers.get (indexRegister word)).toNat
  let index := if bitsOf word 11 1 = 0 then Signedness.signed.read 16 value
    else (value : Int)
  if .mc68020 ≤ model then index * 2 ^ bitsOf word 9 2 else index

/-- Selections that mean nothing, on their own or without an index. -/
def IsReserved (word : UInt16) : Prop :=
  bitsOf word 0 3 = 4 ∨ 4 ≤ bitsOf word 0 3 ∧ bitsOf word 6 1 = 1

instance (word : UInt16) : Decidable (IsReserved word) :=
  inferInstanceAs (Decidable (_ ∨ _))

/-- Where the extension words of a model place an operand. -/
inductive IsPlaced (model : Model) (registers : Registers) (base : Int) :
    List UInt16 → IndexedOperand → Prop where
  | brief {word : UInt16} (short : model < .mc68020 ∨ bitsOf word 8 1 = 0) :
      IsPlaced model registers base [word]
        (direct (base + Signedness.signed.read 8 word.toNat +
          index model registers word))
  /-- A full extension word that does not say how long the base displacement
  is. -/
  | unsized {word : UInt16} (recent : .mc68020 ≤ model)
      (full : bitsOf word 8 1 = 1) (missing : bitsOf word 4 2 = 0) :
      IsPlaced model registers base [word] undefined
  | reserved {word : UInt16} {words : List UInt16} {displacement : Int}
      (recent : .mc68020 ≤ model) (full : bitsOf word 8 1 = 1)
      (present : bitsOf word 4 2 ≠ 0)
      (displaced : IsDisplacement (bitsOf word 4 2) words displacement)
      (selected : IsReserved word) :
      IsPlaced model registers base (word :: words) undefined
  | full {word : UInt16} {words outerWords : List UInt16}
      {displacement outer : Int} (recent : .mc68020 ≤ model)
      (full : bitsOf word 8 1 = 1) (present : bitsOf word 4 2 ≠ 0)
      (displaced : IsDisplacement (bitsOf word 4 2) words displacement)
      (selected : ¬IsReserved word)
      (outerDisplaced : IsDisplacement (bitsOf word 0 2) outerWords outer) :
      IsPlaced model registers base (word :: (words ++ outerWords))
        (let base := if bitsOf word 7 1 = 1 then 0 else base
        let index :=
          if bitsOf word 6 1 = 1 then 0 else index model registers word
        if bitsOf word 0 3 = 0 then direct (base + displacement + index)
        else if bitsOf word 0 3 < 4 then
          indirect (base + displacement + index) outer
        else indirect (base + displacement) (index + outer))

variable {σ : Type} [Memory σ]

/-- How finding an operand ends, once the extension words are passed. -/
def outcome {α : Type} (operand : IndexedOperand) (place : UInt32 → α)
    (passed : Machine σ) : EStateM.Result Fault (Machine σ) α :=
  match operand with
  | undefined => .error .illegalInstruction passed
  | direct address => .ok (place (.ofInt address)) passed
  | indirect pointer distance =>
      match Execution.readData (.ofInt pointer) .long passed with
      | .ok value left => .ok (place (.ofInt (value.toNat + distance))) left
      | .error fault left => .error fault left

end IndexedOperand

theorem IsDisplacement.exists_of_le {size : Nat} (bounded : size < 4)
    {words : List UInt16} (enough : 2 ≤ words.length) :
    ∃ first rest displacement, words = first ++ rest ∧ first.length ≤ 2 ∧
      IsDisplacement size first displacement := by
  match words, enough with
  | high :: low :: rest, _ =>
      obtain small | rfl | rfl : size < 2 ∨ size = 2 ∨ size = 3 := by omega
      · exact ⟨[], _, _, rfl, Nat.zero_le 2, .nothing small⟩
      · exact ⟨[high], _, _, rfl, Nat.le_succ 1, .word high⟩
      · exact ⟨[high, low], _, _, rfl, Nat.le_refl 2, .long high low⟩

/-- No extension is longer than five words. -/
theorem IndexedOperand.exists_isPlaced {model : Model} {registers : Registers}
    {base : Int} {words : List UInt16} (enough : 5 ≤ words.length) :
    ∃ first rest operand,
      words = first ++ rest ∧ IsPlaced model registers base first operand := by
  match words, enough with
  | word :: words, enough =>
    rw [List.length_cons] at enough
    by_cases short : model < .mc68020 ∨ bitsOf word 8 1 = 0
    · exact ⟨[word], words, _, rfl, .brief short⟩
    obtain ⟨new, notBrief⟩ := not_or.mp short
    have recent : .mc68020 ≤ model := Nat.le_of_not_lt new
    have full : bitsOf word 8 1 = 1 := (bitsOf_one word 8).resolve_left notBrief
    by_cases missing : bitsOf word 4 2 = 0
    · exact ⟨[word], words, _, rfl, .unsized recent full missing⟩
    have two : 2 ≤ words.length := by omega
    obtain ⟨first, rest, displacement, rfl, few, displaced⟩ :=
      IsDisplacement.exists_of_le (bitsOf_lt word 4 2) two
    by_cases reserved : IsReserved word
    · exact ⟨word :: first, rest, _, rfl,
        .reserved recent full missing displaced reserved⟩
    rw [List.length_append] at enough
    have twoMore : 2 ≤ rest.length := by omega
    obtain ⟨second, rest, outer, rfl, -, outerDisplaced⟩ :=
      IsDisplacement.exists_of_le (bitsOf_lt word 0 2) twoMore
    refine ⟨word :: (first ++ second), rest, _, ?_,
      .full recent full missing displaced reserved outerDisplaced⟩
    rw [List.cons_append, List.append_assoc]

/-! ## Words in the instruction -/

section

variable {σ : Type} [Memory σ]

/-- Fetching words one after the other gives the words of a list. -/
inductive Machine.Supplies : Machine σ → List UInt16 → Machine σ → Prop where
  | nil (machine : Machine σ) : Supplies machine [] machine
  | cons {machine next passed : Machine σ} {word : UInt16}
      {words : List UInt16}
      (fetched : Execution.fetchWord machine = .ok word next)
      (supplies : Supplies next words passed) :
      Supplies machine (word :: words) passed

namespace Machine.Supplies

variable {machine passed : Machine σ} {words first second : List UInt16}

theorem append (supplied : machine.Supplies (first ++ second) passed) :
    ∃ middle, machine.Supplies first middle ∧
      middle.Supplies second passed := by
  induction first generalizing machine with
  | nil => exact ⟨machine, .nil machine, supplied⟩
  | cons word words induction =>
      cases supplied with
      | cons fetched supplies =>
          obtain ⟨middle, before, after⟩ := induction supplies
          exact ⟨middle, .cons fetched before, after⟩

/-- A machine that has passed words has changed no further. -/
theorem passes (supplied : machine.Supplies words passed) :
    OnlyMemoryRead
      (machine.withPc
        (machine.registers.pc + UInt32.ofNat (2 * words.length))) passed := by
  induction supplied with
  | nil machine =>
      rw [List.length_nil, Nat.mul_zero]
      show OnlyMemoryRead (machine.withPc (machine.registers.pc + 0)) machine
      rw [UInt32.add_zero]
      exact .refl machine
  | @cons machine next passed word words fetched supplies induction =>
      obtain ⟨memory, granted, rfl⟩ := Execution.fetchWord_eq_ok fetched
      have read : OnlyMemoryRead machine { machine with memory } := by
        refine .ofLeaves machine machine.programSpace
          (show (Access.fetchWord machine.registers.pc).isRead from rfl) ?_
        simp only [Access.ask, Bus.leaves, granted]
      have further : machine.registers.pc + 2 +
          UInt32.ofNat (2 * words.length) =
            machine.registers.pc + UInt32.ofNat (2 * (words.length + 1)) := by
        rw [UInt32.add_assoc, Nat.mul_add, Nat.add_comm, UInt32.ofNat_add]
        rfl
      rw [List.length_cons, ← further]
      exact (read.withPc _).trans induction

end Machine.Supplies

end

/-! ## Words as they are fetched -/

theorem bitAt_eq (word : UInt16) (position : Nat) :
    bitAt word position = decide (bitsOf word position 1 = 1) := by
  rw [bitAt, Nat.testBit_eq_decide_div_mod_eq, bitsOf, pow_one]

theorem val_pairAt (word : UInt16) (position : Nat) :
    (pairAt word position).val = bitsOf word position 2 := by
  rw [bitsOf, ← Nat.shiftRight_eq_div_pow]
  rfl

theorem val_fieldAt (word : UInt16) (position : Nat) :
    (fieldAt word position).val = bitsOf word position 3 := by
  rw [bitsOf, ← Nat.shiftRight_eq_div_pow]
  rfl

/-- What a bit of a word leaves out. -/
theorem suppress_eq (word : UInt16) (position : Nat) (value : Int) :
    (if bitAt word position then 0 else UInt32.ofInt value) =
      UInt32.ofInt (if bitsOf word position 1 = 1 then 0 else value) := by
  rw [bitAt_eq]
  simp only [decide_eq_true_eq]
  split <;> rfl

theorem IndexWord.register_eq (word : UInt16) :
    (IndexWord.mk word).register = IndexedOperand.indexRegister word := by
  have top : (word >>> 12).toNat = word.toNat / 2 ^ 12 := by
    rw [UInt16.toNat_shiftRight, Nat.shiftRight_eq_div_pow]
    rfl
  have number : Fin.ofNat 8 (word.toNat / 2 ^ 12) =
      Fin.ofNat 8 (bitsOf word 12 3) := by
    rw [Fin.ext_iff]
    exact (Nat.mod_mod _ 8).symm
  have kind : word.toNat / 2 ^ 12 % 16 < 8 ↔ bitsOf word 15 1 = 0 := by
    rw [bitsOf]
    omega
  rw [register, top, Register.ofIndex, IndexedOperand.indexRegister, number]
  simp only [kind]

theorem IndexWord.index_eq (word : UInt16) (registers : Registers)
    (model : Model) :
    (IndexWord.mk word).index
        (registers.get (IndexedOperand.indexRegister word))
        model.hasFullExtensions =
      UInt32.ofInt (IndexedOperand.index model registers word) := by
  let value := registers.get (IndexedOperand.indexRegister word)
  let number : Int := if bitsOf word 11 1 = 0 then
    Signedness.signed.read 16 value.toNat else value.toNat
  have unscaled : (if (IndexWord.mk word).isLong then value
      else OperandSize.word.signExtend value) = UInt32.ofInt number := by
    rw [isLong, bitAt_eq]
    obtain clear | set := bitsOf_one word 11
    · have low : OperandSize.word.signExtend value =
          UInt32.ofInt (Signedness.signed.read 16 value.toNat) := by
        rw [← Signedness.read_mod, ← UInt32.toNat_toUInt16]
        exact signExtendWord_eq _
      simp only [number, clear, low, if_true]
      rfl
    · simp only [number, set, decide_true, if_true, one_ne_zero, if_false]
      exact (ofInt_toNat value).symm
  have places : bitsOf word 9 2 < 32 :=
    (bitsOf_lt word 9 2).trans (by decide)
  rw [index, IndexedOperand.index, unscaled, scale, val_pairAt,
    ofInt_shiftLeft _ places]
  simp only [Model.hasFullExtensions, decide_eq_true_eq]
  split <;> rfl

theorem IndexWord.displacement_eq (word : UInt16) :
    (IndexWord.mk word).displacement =
      UInt32.ofInt (Signedness.signed.read 8 word.toNat) := by
  rw [displacement, signExtendByte_eq, UInt16.toNat_toUInt8,
    Signedness.read_mod]

theorem IndexWord.selection_eq_iff (word : UInt16) (number : Fin 8) :
    (IndexWord.mk word).selection = number ↔ bitsOf word 0 3 = number.val := by
  rw [Fin.ext_iff, selection, val_fieldAt]

theorem IndexWord.baseDisplacementSize_eq_zero_iff (word : UInt16) :
    (IndexWord.mk word).baseDisplacementSize = 0 ↔ bitsOf word 4 2 = 0 := by
  rw [Fin.ext_iff, baseDisplacementSize, val_pairAt]
  rfl

theorem IndexWord.isReserved_iff (word : UInt16) :
    (IndexWord.mk word).isReserved = true ↔
      IndexedOperand.IsReserved word := by
  have above : 4 < (IndexWord.mk word).selection ↔ 4 < bitsOf word 0 3 := by
    rw [Fin.lt_def, selection, val_fieldAt]
    rfl
  have four : (IndexWord.mk word).selection = 4 ↔ bitsOf word 0 3 = 4 :=
    selection_eq_iff word 4
  have suppressed : (IndexWord.mk word).suppressesIndex =
      decide (bitsOf word 6 1 = 1) := bitAt_eq word 6
  rw [isReserved, suppressed]
  simp only [Bool.or_eq_true, Bool.and_eq_true, beq_iff_eq, four,
    decide_eq_true_eq, above, IndexedOperand.IsReserved]
  omega

namespace Execution

variable {σ : Type} [Memory σ] {machine passed : Machine σ}
  {words : List UInt16}

theorem fetchSizedDisplacement_eq {word : UInt16} {position : Nat}
    {displacement : Int}
    (displaced : IsDisplacement (bitsOf word position 2) words displacement)
    (supplied : machine.Supplies words passed) :
    fetchSizedDisplacement (pairAt word position) machine =
      .ok (UInt32.ofInt displacement) passed := by
  -- The fetch looks at the field itself, the words at its number.
  have named := val_pairAt word position
  generalize pairAt word position = size at named
  generalize bitsOf word position 2 = bits at named displaced
  cases displaced with
  | nothing small =>
      cases supplied
      obtain rfl | rfl : size = 0 ∨ size = 1 := by omega
      · rfl
      · rfl
  | word word =>
      obtain rfl : size = 2 := Fin.ext named
      cases supplied with
      | cons fetched supplies =>
          cases supplies
          simp only [fetchSizedDisplacement, fetchDisplacement, bind_apply,
            fetched, pure_apply, signExtendWord_eq]
  | long high low =>
      obtain rfl : size = 3 := Fin.ext named
      cases supplied with
      | cons highFetched supplies =>
          cases supplies with
          | cons lowFetched supplies =>
              cases supplies
              simp only [fetchSizedDisplacement, fetchLong, bind_apply,
                highFetched, lowFetched, pure_apply, joinWords_eq]

/-- After the first extension word, the index is known. -/
theorem indexedAddress_apply {next : Machine σ} {word : UInt16}
    (fetched : fetchWord machine = .ok word next) (base : UInt32) :
    indexedAddress base machine =
      if .mc68020 ≤ machine.model ∧ bitsOf word 8 1 = 1 then
        fullIndexedAddress ⟨word⟩ base
          (.ofInt (IndexedOperand.index machine.model machine.registers word))
          next
      else
        .ok (.ofInt (base.toNat + Signedness.signed.read 8 word.toNat +
          IndexedOperand.index machine.model machine.registers word))
          next := by
  obtain ⟨memory, granted, passed⟩ := fetchWord_eq_ok fetched
  have model : next.model = machine.model := by
    rw [passed]
    rfl
  have kept (number : Register) :
      next.registers.get number = machine.registers.get number := by
    rw [passed]
    cases number <;> rfl
  have index := IndexWord.index_eq word machine.registers machine.model
  have full : (IndexWord.mk word).isFull =
      decide (bitsOf word 8 1 = 1) := bitAt_eq word 8
  rw [Model.hasFullExtensions] at index
  simp only [indexedAddress, bind_apply, fetched, supports, register, observe,
    full, model, kept, IndexWord.register_eq, index, ite_apply, pure_apply,
    IndexWord.displacement_eq, UInt32.ofInt_add, ofInt_toNat,
    Model.hasFullExtensions, Bool.and_eq_true, decide_eq_true_eq]

/-- The distance from a pointer is added after the pointer is read. -/
theorem readData_pointer (pointer distance : Int) (machine : Machine σ) :
    (do return (← readData (.ofInt pointer) .long) + UInt32.ofInt distance)
        machine =
      (IndexedOperand.indirect pointer distance).outcome id machine := by
  rw [bind_apply, IndexedOperand.outcome]
  cases readData (UInt32.ofInt pointer) .long machine with
  | ok value left =>
      show EStateM.Result.ok (value + UInt32.ofInt distance) left =
        .ok (UInt32.ofInt (value.toNat + distance)) left
      rw [UInt32.ofInt_add, ofInt_toNat]
  | error fault left => rfl

section

variable {next : Machine σ} {word : UInt16}

theorem fullIndexedAddress_of_unsized {base index : UInt32}
    (missing : bitsOf word 4 2 = 0) :
    fullIndexedAddress ⟨word⟩ base index next =
      .error .illegalInstruction next := by
  have size := (IndexWord.baseDisplacementSize_eq_zero_iff word).mpr missing
  simp only [fullIndexedAddress, size, if_true, bind_apply, throw_apply]

variable {displacement : Int} (present : bitsOf word 4 2 ≠ 0)
  (displaced : IsDisplacement (bitsOf word 4 2) words displacement)

include present displaced

theorem fullIndexedAddress_of_reserved {base index : UInt32}
    (supplied : next.Supplies words passed)
    (selected : IndexedOperand.IsReserved word) :
    fullIndexedAddress ⟨word⟩ base index next =
      .error .illegalInstruction passed := by
  have size := (IndexWord.baseDisplacementSize_eq_zero_iff word).not.mpr present
  have fetched : fetchSizedDisplacement
      (IndexWord.mk word).baseDisplacementSize next =
        .ok (UInt32.ofInt displacement) passed :=
    fetchSizedDisplacement_eq displaced supplied
  have reserved := (IndexWord.isReserved_iff word).mpr selected
  simp only [fullIndexedAddress, size, if_false, bind_apply, fetched, reserved,
    if_true, throw_apply]

theorem fullIndexedAddress_of_full {outerWords : List UInt16} {outer : Int}
    (selected : ¬IndexedOperand.IsReserved word)
    (outerDisplaced : IsDisplacement (bitsOf word 0 2) outerWords outer)
    (supplied : next.Supplies (words ++ outerWords) passed)
    (base : UInt32) (index : Int) :
    fullIndexedAddress ⟨word⟩ base (.ofInt index) next =
      IndexedOperand.outcome
        (let base : Int := if bitsOf word 7 1 = 1 then 0 else base.toNat
        let index := if bitsOf word 6 1 = 1 then 0 else index
        if bitsOf word 0 3 = 0 then .direct (base + displacement + index)
        else if bitsOf word 0 3 < 4 then
          .indirect (base + displacement + index) outer
        else .indirect (base + displacement) (index + outer)) id passed := by
  obtain ⟨middle, first, second⟩ := supplied.append
  have size := (IndexWord.baseDisplacementSize_eq_zero_iff word).not.mpr present
  have fetched : fetchSizedDisplacement
      (IndexWord.mk word).baseDisplacementSize next =
        .ok (UInt32.ofInt displacement) middle :=
    fetchSizedDisplacement_eq displaced first
  have outerFetched : fetchSizedDisplacement (pairAt word 0) middle =
      .ok (UInt32.ofInt outer) passed :=
    fetchSizedDisplacement_eq outerDisplaced second
  have reserved := (IndexWord.isReserved_iff word).not.mpr selected
  have direct : (IndexWord.mk word).selection = 0 ↔ bitsOf word 0 3 = 0 :=
    IndexWord.selection_eq_iff word 0
  have before : (IndexWord.mk word).selection < 4 ↔ bitsOf word 0 3 < 4 := by
    rw [Fin.lt_def, IndexWord.selection, val_fieldAt]
    rfl
  have baseKept : (if (IndexWord.mk word).suppressesBase then 0 else base) =
      UInt32.ofInt (if bitsOf word 7 1 = 1 then 0 else base.toNat) := by
    rw [← suppress_eq, ofInt_toNat]
    rfl
  have indexKept :
      (if (IndexWord.mk word).suppressesIndex then 0
        else UInt32.ofInt index) =
        UInt32.ofInt (if bitsOf word 6 1 = 1 then 0 else index) :=
    suppress_eq word 6 index
  -- All that is added up is the long of an integer, so every sum is as well.
  simp only [fullIndexedAddress, size, if_false, bind_apply, fetched, reserved,
    Bool.false_eq_true, outerFetched, baseKept, indexKept, direct, before,
    UInt32.add_assoc, ← UInt32.ofInt_add, Int.add_assoc]
  split
  · rfl
  · split
    · exact readData_pointer _ outer passed
    · exact readData_pointer _ _ passed

end

/-- An indexed operand is where its extension words place it. -/
theorem indexedAddress_eq {base : UInt32} {operand : IndexedOperand}
    (placed : IndexedOperand.IsPlaced machine.model machine.registers
      base.toNat words operand)
    (supplied : machine.Supplies words passed) :
    indexedAddress base machine = operand.outcome id passed := by
  cases supplied with
  | nil => cases placed
  | cons fetched supplies =>
      rw [indexedAddress_apply fetched]
      cases placed with
      | brief short =>
          cases supplies
          rw [if_neg]
          · rfl
          · rintro ⟨recent, full⟩
            exact short.elim (fun old => Nat.not_le_of_lt old recent) (by omega)
      | unsized recent full missing =>
          cases supplies
          rw [if_pos ⟨recent, full⟩]
          exact fullIndexedAddress_of_unsized missing
      | reserved recent full present displaced selected =>
          rw [if_pos ⟨recent, full⟩]
          exact fullIndexedAddress_of_reserved present displaced supplies
            selected
      | full recent full present displaced selected outerDisplaced =>
          rw [if_pos ⟨recent, full⟩]
          exact fullIndexedAddress_of_full present displaced selected
            outerDisplaced supplies base _

end Execution

/-! ## Operands of a mode -/

/-- What the extension words of an indexed mode are added to, and in which
space the operand is. -/
inductive AddressingMode.IsIndexed (registers : Registers) :
    AddressingMode → UInt32 → (UInt32 → Location) → Prop where
  | register (number : Fin 8) :
      IsIndexed registers (.indexed number)
        (registers.get (.address number)) .memory
  /-- Relative to the first extension word. -/
  | counter : IsIndexed registers .pcIndexed registers.pc .program

section

variable {σ : Type} [Memory σ] {machine passed : Machine σ}
  {words : List UInt16}

theorem IndexedOperand.outcome_bind {operand : IndexedOperand}
    {execution : Execution σ UInt32}
    (found : execution machine = operand.outcome id passed)
    (place : UInt32 → Location) :
    (do return place (← execution)) machine = operand.outcome place passed := by
  rw [Execution.bind_apply, found]
  cases operand with
  | undefined | direct => rfl
  | indirect pointer distance =>
      simp only [outcome]
      cases Execution.readData (UInt32.ofInt pointer) .long passed <;> rfl

/-- Past the extension words, at most a pointer is read. -/
theorem IndexedOperand.ends_outcome {α : Type} (operand : IndexedOperand)
    (place : UInt32 → α) (machine : Machine σ) :
    Ends (OnlyMemoryRead machine) (operand.outcome place machine) := by
  cases operand with
  | undefined | direct => exact .refl machine
  | indirect pointer distance =>
      have read : Ends (OnlyMemoryRead machine)
          (Execution.readData (.ofInt pointer) .long machine) :=
        ends_readIn_onlyMemoryRead machine.dataSpace _ _ machine
      simp only [outcome]
      generalize Execution.readData (.ofInt pointer) .long machine = result
        at read
      cases result with
      | ok value left => exact read
      | error fault left => exact read

namespace AddressingMode

theorem resolve_eq {mode : AddressingMode} {base : UInt32}
    {place : UInt32 → Location} {operand : IndexedOperand}
    (indexed : mode.IsIndexed machine.registers base place)
    (placed : IndexedOperand.IsPlaced machine.model machine.registers
      base.toNat words operand)
    (supplied : machine.Supplies words passed) (size : OperandSize) :
    mode.resolve size machine = operand.outcome place passed := by
  have address := Execution.indexedAddress_eq placed supplied
  cases indexed with
  | register number =>
      show (do return Location.memory (← Execution.indexedAddress
        (machine.registers.get (.address number)))) machine = _
      exact IndexedOperand.outcome_bind address .memory
  | counter =>
      show (do return Location.program (← Execution.indexedAddress
        machine.registers.pc)) machine = _
      exact IndexedOperand.outcome_bind address .program

/-- The address of an indexed operand is the sum that its extension words say,
modulo 2^32.  Whatever these words are, they say one or that there is none, and
resolving the mode passes them and changes nothing else, if reads leave the
memory alone. -/
theorem resolve_indexed {mode : AddressingMode} {base : UInt32}
    {place : UInt32 → Location}
    (indexed : mode.IsIndexed machine.registers base place)
    (size : OperandSize) :
    (∀ words : List UInt16, 5 ≤ words.length → ∃ first rest operand,
      words = first ++ rest ∧
        IndexedOperand.IsPlaced machine.model machine.registers base.toNat
          first operand) ∧
    ∀ words operand passed,
      IndexedOperand.IsPlaced machine.model machine.registers base.toNat
        words operand →
      machine.Supplies words passed →
      let advanced := machine.withPc
        (machine.registers.pc + UInt32.ofNat (2 * words.length))
      mode.resolve size machine = operand.outcome place passed ∧
        Ends (OnlyMemoryRead advanced) (mode.resolve size machine) ∧
        (Memory.IsQuiet σ →
          Ends (· = advanced) (mode.resolve size machine)) := by
  refine ⟨fun words => IndexedOperand.exists_isPlaced, ?_⟩
  intro words operand passed placed supplied advanced
  have found := resolve_eq indexed placed supplied size
  have ends : Ends (OnlyMemoryRead advanced) (mode.resolve size machine) := by
    rw [found]
    exact (operand.ends_outcome place passed).mono fun _ =>
      supplied.passes.trans
  exact ⟨found, ends, fun quiet =>
    ends.mono fun _ => OnlyMemoryRead.eq_of_quiet quiet⟩

end AddressingMode

end

/-- A machine before the extension words of an operand that a pointer and an
index place. -/
def Machine.followingPointer : Machine FlatMemory where
  model := .mc68020
  registers := { address := #v[0x10, 0x1FFFF, 0, 0, 0, 0, 0, 0] }
  memory := ⟨#[0x95, 0x26, 0xFF, 0xFE, 0x80, 0, 0, 0, 0, 0, 0, 0, 0, 0,
    0, 0, 0, 3]⟩

theorem Machine.followingPointer_resolves :
    ∃ passed, (AddressingMode.indexed 0).resolve .byte followingPointer =
        .ok (.memory 0xFFFF7FFF) passed ∧
      passed = followingPointer.withPc 6 := by
  have displaced : IsDisplacement (bitsOf 0x9526 4 2) [0xFFFE] (-2) :=
    .word 0xFFFE
  have outerDisplaced :
      IsDisplacement (bitsOf 0x9526 0 2) [0x8000] (-32768) := .word 0x8000
  have placed : IndexedOperand.IsPlaced followingPointer.model
      followingPointer.registers (0x10 : UInt32).toNat
      [0x9526, 0xFFFE, 0x8000] (.indirect 14 (-4 - 32768)) :=
    .full (by decide) (by decide) (by decide) displaced (by decide)
      outerDisplaced
  have supplied : followingPointer.Supplies [0x9526, 0xFFFE, 0x8000]
      (followingPointer.withPc 6) :=
    .cons rfl (.cons rfl (.cons rfl (.nil _)))
  have indexed : (AddressingMode.indexed 0).IsIndexed
      followingPointer.registers 0x10 .memory := .register 0
  have resolves := (AddressingMode.resolve_indexed indexed .byte).2 _ _ _
    placed supplied
  exact ⟨_, resolves.1, resolves.2.2 FlatMemory.isQuiet⟩

end M68k

import M68k.Execution
import M68k.Proofs.ConditionCodeRange
import M68k.Proofs.OrdinaryFaults

/-!
# Faults of instructions

No instruction finds a reason to refuse itself while it executes, except for
what its extension words say: a control register that the model lacks, or an
indexed operand that no model defines.  Where an instruction needs an address or
a place to write to, the addressing modes that it takes provide one.
-/

namespace M68k

/-! ## Data instructions -/

/-- Whether a result can be written to a destination. -/
def Destination.isAlterable : Destination → Bool
  | none => false
  | operand mode | store mode => mode.isAlterable
  | dataRegister _ | addressRegister _ => true

theorem Destination.isAlterable_of_fetch {σ : Type} [Memory σ]
    {destination : Destination} (alterable : destination.isAlterable = true)
    {size : OperandSize} {machine left : Machine σ}
    {location : Option Location} {value : UInt32}
    (run : destination.fetch size machine = .ok (location, value) left) :
    ∃ place, location = some place ∧ place.isAlterable = true := by
  cases destination with
  | none => cases alterable
  | dataRegister number | addressRegister number =>
      cases run
      exact ⟨_, rfl, rfl⟩
  | operand mode =>
      obtain ⟨found, middle, fetched, returned⟩ := Execution.bind_eq_ok run
      cases returned
      obtain ⟨place, after, resolved, rest⟩ := Execution.bind_eq_ok fetched
      obtain ⟨read, last, -, returned⟩ := Execution.bind_eq_ok rest
      cases returned
      exact ⟨_, rfl, AddressingMode.isAlterable_of_resolve alterable resolved⟩
  | store mode =>
      obtain ⟨place, middle, resolved, returned⟩ := Execution.bind_eq_ok run
      cases returned
      exact ⟨_, rfl, AddressingMode.isAlterable_of_resolve alterable resolved⟩

namespace DataInstruction

theorem IsFormed.isAlterable {instruction : DataInstruction}
    (formed : instruction.IsFormed)
    (writes : instruction.operation.writes = true) :
    instruction.destination.isAlterable = true := by
  cases formed with
  | immediate operates sized alterable | unary operates sized alterable
  | unaryByte operates alterable | clear sized alterable
  | storeStatus operates alterable | storeCondition alterable
  | move sized readable alterable | quick operates sized counts alterable
  | eor number sized alterable =>
      exact AddressingMode.isAlterable_of_isDataAlterable alterable
  | toMemory number operates sized alterable | shiftMemory alterable =>
      exact AddressingMode.isAlterable_of_isMemoryAlterable alterable
  | bit counts accepted =>
      rename_i operation number mode
      cases operation with
      | keep => cases writes
      | change | clear | set =>
          exact AddressingMode.isAlterable_of_isDataAlterable accepted
  | compareImmediate | test | compareMemory => cases writes
  | _ => rfl

variable {σ : Type} [Memory σ] {instruction : DataInstruction}

theorem ordinary_finish {location : Option Location}
    (alterable : instruction.operation.writes = true →
      ∃ place, location = some place ∧ place.isAlterable = true)
    (operands : Operands) (value : UInt32) (size : OperandSize) :
    Execution.Ordinary (σ := σ)
      (instruction.finish location operands value size) := by
  have sets : Execution.Ordinary (σ := σ) (do
      let codes := (← Execution.status).codes
      Execution.setConditionCodes
        (instruction.flagRule.apply size operands.source operands.destination
          value codes)) :=
    (Execution.Ordinary.observe _).bind fun _ => .update _
  unfold finish
  split
  · rename_i writes
    obtain ⟨place, rfl, writable⟩ := alterable writes
    exact (place.ordinary_write writable size value).bind fun _ => sets
  · exact sets

/-- A data instruction is illegal only because of its operands: what it does
with them afterwards never refuses it. -/
theorem illegalBy_execute (formed : instruction.IsFormed) :
    Execution.IllegalBy (σ := σ) instruction.FindsUndefined
      instruction.execute := by
  intro machine fault left run refuses
  cases fetches : instruction.fetchOperands machine with
  | error stopped after =>
      rw [execute_of_unfetched fetches] at run
      cases run
      exact instruction.illegalBy_fetchOperands fetches refuses
  | ok found fetched =>
      obtain ⟨source, location, destination⟩ := found
      obtain ⟨middle, sourceRun, destinationRun⟩ := fetchOperands_eq_ok fetches
      cases computed : instruction.operation.compute fetched.status
          instruction.workingSize
          (instruction.operands source destination) with
      | trap trapped codes =>
          rw [execute_of_trap sourceRun destinationRun computed] at run
          cases run
          obtain rfl | rfl := DataOperation.fault_of_compute_eq_trap computed
          · cases refuses
          · cases refuses
      | discard =>
          rw [execute_of_discard sourceRun destinationRun computed] at run
          cases run
      | result value size codes =>
          rw [execute_of_result sourceRun destinationRun computed] at run
          have alterable (writes : instruction.operation.writes = true) :=
            Destination.isAlterable_of_fetch (formed.isAlterable writes)
              destinationRun
          rw [ordinary_finish alterable _ _ _ run] at refuses
          cases refuses

end DataInstruction

/-! ## Other instructions -/

namespace Execution

variable {σ : Type} [Memory σ]

namespace Ordinary

theorem branchTarget (displacement : UInt8) :
    Ordinary (σ := σ) (Execution.branchTarget displacement) := by
  refine (observe _).bind fun base => .ite ?_ ?_
  · exact fetchDisplacement.bind fun _ => .pure _
  · refine (observe _).bind fun long => .ite ?_ (.pure _)
    exact fetchLong.bind fun _ => .pure _

theorem bcc (condition : Condition) (displacement : UInt8) :
    Ordinary (σ := σ) (Execution.bcc condition displacement) :=
  (branchTarget displacement).bind fun _ => (observe _).bind fun _ =>
    .ite (update _) (.pure ())

theorem callSubroutine (target : UInt32) :
    Ordinary (σ := σ) (Execution.callSubroutine target) :=
  (observe _).bind fun _ => (push _ _).bind fun _ => update _

theorem dbcc (condition : Condition) (counter : Fin 8) :
    Ordinary (σ := σ) (Execution.dbcc condition counter) := by
  refine (observe _).bind fun base => fetchDisplacement.bind fun _ =>
    (observe _).bind fun _ => .ite (.pure ()) ?_
  exact (observe _).bind fun _ => (update _).bind fun _ =>
    .ite (update _) (.pure ())

theorem rts : Ordinary (σ := σ) Execution.rts :=
  (pop _).bind fun _ => update _

theorem rtr : Ordinary (σ := σ) Execution.rtr :=
  (pop _).bind fun _ => (update _).bind fun _ => (pop _).bind fun _ => update _

theorem rtd : Ordinary (σ := σ) Execution.rtd :=
  fetchDisplacement.bind fun _ => (pop _).bind fun _ => (update _).bind fun _ =>
    (observe _).bind fun _ => update _

theorem rte : Ordinary (σ := σ) Execution.rte := by
  refine (observe _).bind fun pointer => (readData _ _).bind fun format => ?_
  cases frameSize? (format.toUInt16 >>> 12) with
  | none => exact .throw rfl
  | some size =>
      exact (readData _ _).bind fun _ => (readData _ _).bind fun _ =>
        (update _).bind fun _ => (update _).bind fun _ => update _

theorem linkBy (number : Fin 8) (displacement : UInt32) :
    Ordinary (σ := σ) (Execution.linkBy number displacement) :=
  (observe _).bind fun _ => (push _ _).bind fun _ => (observe _).bind fun _ =>
    (update _).bind fun _ => (observe _).bind fun _ => update _

theorem unlk (number : Fin 8) :
    Ordinary (σ := σ) (Execution.unlk number) :=
  (observe _).bind fun _ => (update _).bind fun _ => (pop _).bind fun _ =>
    update _

theorem storeAscending (size : OperandSize) (address : UInt32)
    (registers : List Register) :
    Ordinary (σ := σ) (Execution.storeAscending size address registers) := by
  induction registers generalizing address with
  | nil => exact .pure ()
  | cons first rest induction =>
      exact (observe _).bind fun _ => (writeData _ _ _).bind fun _ =>
        induction _

theorem storeDescending (size : OperandSize) (special : Register)
    (specialValue address : UInt32) (registers : List Register) :
    Ordinary (σ := σ)
      (Execution.storeDescending size special specialValue address
        registers) := by
  induction registers generalizing address with
  | nil => exact .pure address
  | cons first rest induction =>
      refine .ite ?_ ?_
      · exact (pure specialValue).bind fun _ => (writeData _ _ _).bind fun _ =>
          induction _
      · exact (observe _).bind fun _ => (writeData _ _ _).bind fun _ =>
          induction _

theorem loadAscending (size : OperandSize) (address : UInt32)
    (registers : List Register) :
    Ordinary (σ := σ) (Execution.loadAscending size address registers) := by
  induction registers generalizing address with
  | nil => exact .pure address
  | cons first rest induction =>
      exact (readData _ _).bind fun _ => (update _).bind fun _ => induction _

theorem displacedAddress (number : Fin 8) :
    Ordinary (σ := σ) (Execution.displacedAddress number) :=
  fetchDisplacement.bind fun _ => (observe _).bind fun _ => .pure _

theorem movepStore (size : OperandSize) (data address : Fin 8) :
    Ordinary (σ := σ) (Execution.movepStore size data address) :=
  (displacedAddress address).bind fun _ => (observe _).bind fun _ =>
    (observe _).bind fun _ => onBus _

theorem movepLoad (size : OperandSize) (data address : Fin 8) :
    Ordinary (σ := σ) (Execution.movepLoad size data address) :=
  (displacedAddress address).bind fun _ => (observe _).bind fun _ =>
    (onBus _).bind fun _ => Location.ordinary_write rfl _ _

omit [Memory σ] in
theorem trapIf (condition : Condition) :
    Ordinary (σ := σ) (Execution.trapIf condition) :=
  (observe _).bind fun _ => .ite (.throw rfl) (.pure ())

theorem skipWords (count : Nat) :
    Ordinary (σ := σ) (Execution.skipWords count) := by
  induction count with
  | zero => exact .pure ()
  | succ count induction => exact fetchWord.bind fun _ => induction

omit [Memory σ] in
theorem bkpt (vector : Fin 8) :
    Ordinary (σ := σ) (Execution.bkpt vector) := by
  have asks : Ordinary (σ := σ) (askHandler vector) := by
    intro machine fault left run
    cases run
  refine (observe _).bind fun base => (update _).bind fun _ =>
    (update _).bind fun _ => asks.bind fun reply => ?_
  cases reply with
  | none => exact (pure ()).bind fun _ => .throw rfl
  | some opcode => exact (update _).bind fun _ => .throw rfl

theorem stop : Ordinary (σ := σ) Execution.stop :=
  fetchWord.bind fun _ => .ite (update _)
    ((update _).bind fun _ => update _)

omit [Memory σ] in
theorem setResultFlags (negative zero overflow : Bool) :
    Ordinary (σ := σ) (Execution.setResultFlags negative zero overflow) :=
  (observe _).bind fun _ => update _

end Ordinary

/-- The extension word names a control register that the model lacks. -/
def NamesNoControl (machine : Machine σ) : Prop :=
  ∃ word passed, fetchWord machine = .ok word passed ∧
    ControlRegister.forModel? (word &&& 0xFFF) machine.model = none

theorem illegalBy_fetchControl :
    IllegalBy (σ := σ) NamesNoControl fetchControl := by
  intro machine fault left run refuses
  obtain failed | ⟨word, passed, fetched, rest⟩ := bind_eq_error run
  · rw [Ordinary.fetchWord failed] at refuses
    cases refuses
  · have model := Fetches.fetchWord.model_eq fetched
    simp only [controlFor?, observe, bind_apply, model] at rest
    cases named : ControlRegister.forModel? (word &&& 0xFFF)
        machine.model with
    | some control =>
        rw [named] at rest
        cases rest
    | none =>
        rw [named] at rest
        cases rest
        exact ⟨rfl, word, passed, fetched, named⟩

end Execution

namespace Instruction

section

variable {σ : Type} [Memory σ]

/-- An operand of the instruction has an undefined extension word.  Some
instructions have a word of their own before those of the operand. -/
def FindsUndefined (instruction : Instruction) (machine : Machine σ) : Prop :=
  match instruction with
  | data instruction => instruction.FindsUndefined machine
  | lea mode _ | pea mode | jmp mode | jsr mode | moveToCcr mode
  | moveToSr mode => mode.FindsUndefined machine
  | movemStore _ mode | movemLoad _ mode | moves _ mode | mull mode
  | divl mode =>
      ∃ word middle, Execution.fetchWord machine = .ok word middle ∧
        mode.FindsUndefined middle
  | _ => False

/-- Why an instruction that the machine may execute is illegal nevertheless. -/
def IsUndefined (instruction : Instruction) (machine : Machine σ) : Prop :=
  match instruction with
  | illegal => True
  | movecStore | movecLoad => Execution.NamesNoControl machine
  | instruction => instruction.FindsUndefined machine

open Execution

theorem illegalBy_movemStore {size : OperandSize} {mode : AddressingMode}
    (takes : (mode.isControlAlterable || mode.isPredecrement) = true) :
    IllegalBy (σ := σ) (FindsUndefined (movemStore size mode))
      (Execution.movemStore size mode) := by
  refine Ordinary.fetchWord.bind_illegalBy fun mask => ?_
  cases mode with
  | predecrement number =>
      refine Ordinary.illegalBy ((Ordinary.observe _).bind fun initial =>
        .bind ?_ fun stored => (Ordinary.storeDescending _ _ _ _ _).bind
          fun _ => .update _) _
      exact (Ordinary.observe _).bind fun _ => .ite (.pure _) (.pure _)
  | dataRegister number | addressRegister number | postincrement number
  | pcDisplacement | pcIndexed | immediate => cases takes
  | _ =>
      exact (AddressingMode.illegalBy_resolveAddress rfl size).bind fun _ =>
        .storeAscending _ _ _

theorem illegalBy_movemLoad {size : OperandSize} {mode : AddressingMode}
    (takes : (mode.isControl || mode.isPostincrement) = true) :
    IllegalBy (σ := σ) (FindsUndefined (movemLoad size mode))
      (Execution.movemLoad size mode) := by
  refine Ordinary.fetchWord.bind_illegalBy fun mask => ?_
  cases mode with
  | postincrement number =>
      exact Ordinary.illegalBy ((Ordinary.observe _).bind fun initial =>
        (Ordinary.loadAscending _ _ _).bind fun _ => .update _) _
  | dataRegister number | addressRegister number | predecrement number
  | immediate => cases takes
  | _ =>
      exact (AddressingMode.illegalBy_resolveAddress rfl size).bind fun _ =>
        (Ordinary.loadAscending _ _ _).bind fun _ => .pure _

theorem illegalBy_moves {size : OperandSize} {mode : AddressingMode}
    (takes : mode.isMemoryAlterable = true) :
    IllegalBy (σ := σ) (FindsUndefined (moves size mode))
      (Execution.moves size mode) := by
  have addressed := AddressingMode.hasAddress_of_isMemoryAlterable takes
  refine Ordinary.fetchWord.bind_illegalBy fun extension =>
    (AddressingMode.illegalBy_resolveAddress addressed size).bind
      fun address => .ite ?_ ?_
  · exact (Ordinary.observe _).bind fun _ => (Ordinary.observe _).bind
      fun _ => .writeIn _ _ _ _
  · refine (Ordinary.observe _).bind fun _ => (Ordinary.readIn _ _ _).bind
      fun value => Location.ordinary_write ?_ size value
    cases Register.ofIndex (extension >>> 12).toNat <;> rfl

theorem illegalBy_fetchLongOperands (mode : AddressingMode) :
    IllegalBy (σ := σ)
      (fun machine => ∃ word middle,
        fetchWord machine = .ok word middle ∧ mode.FindsUndefined middle)
      (fetchLongOperands mode) :=
  Ordinary.fetchWord.bind_illegalBy fun _ =>
    (mode.illegalBy_fetch .long).bind fun _ => .pure _

theorem illegalBy_mull (mode : AddressingMode) :
    IllegalBy (σ := σ) (FindsUndefined (mull mode)) (Execution.mull mode) := by
  refine (illegalBy_fetchLongOperands mode).bind fun operands =>
    (Ordinary.observe _).bind fun _ => .ite ?_ ?_
  · exact (Ordinary.update _).bind fun _ => (Ordinary.update _).bind fun _ =>
      .setResultFlags _ _ _
  · exact (Ordinary.update _).bind fun _ => .setResultFlags _ _ _

theorem illegalBy_divl (mode : AddressingMode) :
    IllegalBy (σ := σ) (FindsUndefined (divl mode)) (Execution.divl mode) := by
  refine (illegalBy_fetchLongOperands mode).bind fun operands =>
    Ordinary.throwIf rfl ((Ordinary.observe _).bind fun low =>
      (Ordinary.observe _).bind fun high => ?_)
  cases divideLongs? operands.1 high low operands.2 with
  | none => exact .pure ()
  | some division =>
      exact (Ordinary.update _).bind fun _ => (Ordinary.update _).bind
        fun _ => .setResultFlags _ _ _

/-- An admitted instruction is illegal only if its words are undefined. -/
theorem illegalBy_execute {instruction : Instruction}
    (formed : instruction.IsFormed) :
    IllegalBy (σ := σ) instruction.IsUndefined instruction.execute := by
  cases instruction with
  | data instruction => exact DataInstruction.illegalBy_execute formed
  | lea mode number =>
      exact (AddressingMode.illegalBy_resolveAddress
        (AddressingMode.hasAddress_of_isControl formed) .long).bind
          fun _ => .update _
  | pea mode =>
      exact (AddressingMode.illegalBy_resolveAddress
        (AddressingMode.hasAddress_of_isControl formed) .long).bind
          fun _ => .push _ _
  | jmp mode =>
      exact (AddressingMode.illegalBy_resolveAddress
        (AddressingMode.hasAddress_of_isControl formed) .long).bind
          fun _ => .update _
  | jsr mode =>
      exact (AddressingMode.illegalBy_resolveAddress
        (AddressingMode.hasAddress_of_isControl formed) .long).bind
          fun _ => .callSubroutine _
  | moveToCcr mode =>
      exact (mode.illegalBy_fetch .word).bind fun _ => .update _
  | moveToSr mode =>
      exact (mode.illegalBy_fetch .word).bind fun _ => .update _
  | movemStore size mode => exact illegalBy_movemStore formed
  | movemLoad size mode => exact illegalBy_movemLoad formed
  | moves size mode => exact illegalBy_moves formed
  | mull mode => exact illegalBy_mull mode
  | divl mode => exact illegalBy_divl mode
  | movecStore =>
      exact illegalBy_fetchControl.bind fun _ => (Ordinary.observe _).bind
        fun _ => (Ordinary.update _).bind fun _ => (Ordinary.update _).bind
          fun _ => .update _
  | movecLoad =>
      exact illegalBy_fetchControl.bind fun _ => (Ordinary.update _).bind
        fun _ => (Ordinary.observe _).bind fun _ => .update _
  | illegal =>
      intro machine fault left run refuses
      cases run
      exact ⟨rfl, trivial⟩
  | logicToCcr operation =>
      exact Ordinary.illegalBy (Ordinary.fetchWord.bind fun _ =>
        (Ordinary.observe _).bind fun _ => .update _) _
  | logicToSr operation =>
      exact Ordinary.illegalBy (Ordinary.fetchWord.bind fun _ =>
        (Ordinary.observe _).bind fun _ => .update _) _
  | moveToUsp number | moveFromUsp number =>
      exact Ordinary.illegalBy ((Ordinary.observe _).bind fun _ => .update _) _
  | exg first second =>
      exact Ordinary.illegalBy ((Ordinary.observe _).bind fun _ =>
        (Ordinary.observe _).bind fun _ => (Ordinary.update _).bind
          fun _ => .update _) _
  | movepStore size data address =>
      exact Ordinary.illegalBy (.movepStore size data address) _
  | movepLoad size data address =>
      exact Ordinary.illegalBy (.movepLoad size data address) _
  | link number =>
      exact Ordinary.illegalBy (Ordinary.fetchDisplacement.bind fun _ =>
        .linkBy _ _) _
  | linkLong number =>
      exact Ordinary.illegalBy (Ordinary.fetchLong.bind fun _ =>
        .linkBy _ _) _
  | unlk number => exact Ordinary.illegalBy (.unlk number) _
  | bcc condition displacement =>
      exact Ordinary.illegalBy (.bcc condition displacement) _
  | bsr displacement =>
      exact Ordinary.illegalBy ((Ordinary.branchTarget displacement).bind
        fun _ => .callSubroutine _) _
  | dbcc condition counter =>
      exact Ordinary.illegalBy (.dbcc condition counter) _
  | rts => exact Ordinary.illegalBy .rts _
  | rtr => exact Ordinary.illegalBy .rtr _
  | rtd => exact Ordinary.illegalBy .rtd _
  | rte => exact Ordinary.illegalBy .rte _
  | trap number => exact Ordinary.illegalBy (.throw rfl) _
  | trapv => exact Ordinary.illegalBy (.trapIf _) _
  | trapcc condition words =>
      exact Ordinary.illegalBy ((Ordinary.skipWords words).bind
        fun _ => .trapIf _) _
  | bkpt vector => exact Ordinary.illegalBy (.bkpt vector) _
  | stop => exact Ordinary.illegalBy .stop _
  | reset => exact Ordinary.illegalBy (.update _) _
  | nop => exact Ordinary.illegalBy (.pure ()) _
  | lineA | lineF => exact Ordinary.illegalBy (.throw rfl) _

end

end Instruction

end M68k

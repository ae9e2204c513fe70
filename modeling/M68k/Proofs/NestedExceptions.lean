import M68k.Inspection
import M68k.Proofs.ExceptionReturn
import M68k.Proofs.InstructionLimit
import Mathlib.Logic.Function.Iterate

/-!
# Nested exceptions

Exceptions are delivered one after another, each in the handler of the one
before, and every handler begins with RTE.  As many steps as there were
deliveries lead back to the processor that was interrupted first.
-/

namespace M68k

open Execution

/-- Something that makes the processor enter a handler. -/
inductive ExceptionRequest where
  | interrupt (level : UInt8)
  | exception (frame : ExceptionFrame) (vectorOffset : UInt16)
deriving DecidableEq, Repr

namespace ExceptionRequest

/-- The frame that is stacked. -/
def frame : ExceptionRequest → ExceptionFrame
  | interrupt _ => .short
  | exception frame _ => frame

/-- The distance of the handler's entry in the vector table. -/
def vectorOffset : ExceptionRequest → UInt16
  | interrupt level => vectorTableOffset (autovectorBase + (level &&& 7))
  | exception _ offset => offset

/-- Whether a stopped processor accepts the request. -/
def wakes : ExceptionRequest → Bool
  | interrupt _ => true
  | exception _ _ => false

/-- The vector is one of the table's.  The vectors of interrupts always are. -/
def InTable : ExceptionRequest → Prop
  | interrupt _ => True
  | exception _ offset => offset < 0x1000

theorem InTable.vectorOffset_lt {request : ExceptionRequest}
    (inTable : request.InTable) : request.vectorOffset < 0x1000 := by
  cases request with
  | exception frame offset => exact inTable
  | interrupt level =>
      show (vectorTableOffset _).toNat < 4096
      have bound := (autovectorBase + (level &&& 7)).toNat_lt
      rw [vectorTableOffset, UInt16.toNat_mul, UInt8.toNat_toUInt16]
      simp only [UInt16.reduceToNat]
      omega

end ExceptionRequest

/-- The emulator after a request, if its handler was entered. -/
def Emulator.accept? {σ : Type} [Memory σ] (emulator : Emulator σ) :
    ExceptionRequest → Option (Emulator σ)
  | .interrupt level =>
      match emulator.interrupt level with
      | (true, entered) => some entered
      | (false, _) => none
  | .exception frame offset =>
      match enterException frame offset emulator.machine with
      | .ok _ entered => some (emulator.withMachine entered)
      | .error _ _ => none

/-- A request that was accepted, the place of its frame and the address of its
handler. -/
structure Delivery where
  request : ExceptionRequest
  pointer : UInt32
  handler : UInt32

namespace Delivery

/-- The bytes of the frame. -/
def size (delivery : Delivery) : Nat :=
  delivery.request.frame.size.toNat

/-- The frame holds the byte at an index of the memory. -/
def Covers (delivery : Delivery) (index : Nat) : Prop :=
  delivery.pointer.toNat ≤ index ∧
    index < delivery.pointer.toNat + delivery.size

/-- The frame does not reach beyond the last address. -/
def Unwrapped (delivery : Delivery) : Prop :=
  delivery.pointer.toNat + delivery.size ≤ 2 ^ 32

/-- The frame holds no byte of the word at an address. -/
def AvoidsWord (delivery : Delivery) (address : UInt32) : Prop :=
  ∀ offset < 2, ¬delivery.Covers (address.toNat + offset)

instance (delivery : Delivery) (index : Nat) :
    Decidable (delivery.Covers index) :=
  inferInstanceAs (Decidable (_ ∧ _))

instance (delivery : Delivery) : Decidable delivery.Unwrapped :=
  inferInstanceAs (Decidable (_ ≤ _))

instance (delivery : Delivery) (address : UInt32) :
    Decidable (delivery.AvoidsWord address) :=
  inferInstanceAs (Decidable (∀ offset < 2, _))

end Delivery

/-- Deliveries one after another, each in the handler of the one before.  Every
handler begins with RTE. -/
inductive Nested :
    Emulator FlatMemory → List Delivery → Emulator FlatMemory → Prop where
  | none (emulator : Emulator FlatMemory) : Nested emulator [] emulator
  | next {start entered last : Emulator FlatMemory}
      {request : ExceptionRequest} {later : List Delivery}
      (inTable : request.InTable)
      (accepted : start.accept? request = some entered)
      (returns : entered.machine.opcode = 0x4E73)
      (rest : Nested entered later last) :
      Nested start
        (⟨request, entered.machine.registers.stackPointer,
          entered.machine.registers.pc⟩ :: later) last

/-- The frames of nested deliveries stay clear of the code that runs again. -/
structure Apart (instruction : UInt32) (deliveries : List Delivery) : Prop where
  unwrapped : ∀ delivery ∈ deliveries, delivery.Unwrapped
  handlers : ∀ delivery ∈ deliveries, ∀ other ∈ deliveries,
    delivery.AvoidsWord other.handler
  instruction : ∀ delivery ∈ deliveries, delivery.AvoidsWord instruction

namespace Apart

variable {address : UInt32} {first : Delivery} {later : List Delivery}

theorem tail (apart : Apart address (first :: later)) :
    Apart first.handler later where
  unwrapped delivery member :=
    apart.unwrapped delivery (List.mem_cons_of_mem _ member)
  handlers delivery member other otherMember :=
    apart.handlers delivery (List.mem_cons_of_mem _ member) other
      (List.mem_cons_of_mem _ otherMember)
  instruction delivery member :=
    apart.handlers delivery (List.mem_cons_of_mem _ member) first
      List.mem_cons_self

end Apart

namespace Emulator

/-- An accepted request changes the machine only, which then leads back. -/
theorem leadsBack_of_accept? {emulator entered : Emulator FlatMemory}
    {request : ExceptionRequest}
    (accepted : emulator.accept? request = some entered)
    (fits : emulator.machine.MasterFits)
    (unwrapped : entered.machine.registers.stackPointer.toNat +
      request.frame.size.toNat ≤ 2 ^ 32) :
    entered = emulator.withMachine entered.machine ∧
      Machine.LeadsBack request.frame request.vectorOffset emulator.machine
        entered.machine ∧
      (request.wakes = true ∨ emulator.machine.condition = .running →
        entered.machine.condition = .running) := by
  cases request with
  | exception frame offset =>
      simp only [accept?] at accepted
      cases run : enterException frame offset emulator.machine with
      | error fault left => simp [run] at accepted
      | ok value machine =>
          simp only [run, Option.some.injEq] at accepted
          subst accepted
          obtain ⟨leads, condition, -⟩ :=
            Machine.leadsBack_of_enterException fits run unwrapped
          refine ⟨rfl, leads, ?_⟩
          rintro (wakes | running)
          · cases wakes
          · exact condition.trans running
  | interrupt level =>
      have awakeFits : { emulator.machine with
          condition := .running }.MasterFits := fits
      simp only [accept?, interrupt] at accepted
      rcases emulator.machine.interrupt_cases level with ⟨-, refused⟩ |
        ⟨-, ⟨entry, run, taken⟩ | ⟨fault, entry, run, failed⟩⟩
      · simp [refused] at accepted
      · simp only [taken, Option.some.injEq] at accepted
        subst accepted
        obtain ⟨leads, condition, masked⟩ :=
          Machine.leadsBack_of_enterException awakeFits run unwrapped
        have raised := leads.withInterruptMask masked level
        exact ⟨rfl, { raised with
          model := raised.model, others := raised.others },
          fun _ => condition⟩
      · simp [failed] at accepted

end Emulator

/-! ## Frames below each other -/

namespace Delivery

/-- Membership in a frame by the distance from its pointer. -/
theorem Unwrapped.covers_iff {delivery : Delivery}
    (unwrapped : delivery.Unwrapped) (address : UInt32) :
    delivery.Covers address.toNat ↔
      (address - delivery.pointer).toNat < delivery.size := by
  have bound := delivery.pointer.toNat_lt
  have addressBound := address.toNat_lt
  rw [Unwrapped] at unwrapped
  rw [Covers, UInt32.toNat_sub]
  omega

end Delivery

/-- The distance from a pointer that has been moved down. -/
private theorem toNat_sub_of_add_eq {pointer top size : UInt32}
    (moved : pointer + size = top) (address : UInt32) :
    (address - pointer).toNat =
      ((address - top).toNat + size.toNat) % 2 ^ 32 := by
  rw [← moved]
  have addressBound := address.toNat_lt
  have pointerBound := pointer.toNat_lt
  have sizeBound := size.toNat_lt
  simp only [UInt32.toNat_sub, UInt32.toNat_add]
  omega

namespace Machine

/-- In supervisor mode a frame goes right below the stack pointer in use. -/
theorem LeadsBack.stackPointer_add_size {frame : ExceptionFrame}
    {vectorOffset : UInt16} {interrupted handler : Machine FlatMemory}
    (leads : LeadsBack frame vectorOffset interrupted handler)
    (fits : interrupted.MasterFits)
    (supervisor : interrupted.isSupervisor = true) :
    handler.registers.stackPointer + frame.size =
      interrupted.registers.stackPointer := by
  have bank : handler.activeBank = interrupted.activeBank := by
    simp only [activeBank, leads.supervisor, supervisor, leads.master,
      leads.model]
  rw [leads.top, bank, fits.logicalStackPointer_active]

end Machine

/-- Frames are stacked downwards, so what lies between the stack pointer and a
byte that no frame holds is in no frame either. -/
theorem Nested.not_covers {start last : Emulator FlatMemory}
    {deliveries : List Delivery} (nested : Nested start deliveries last)
    (fits : start.machine.StatusFits)
    (supervisor : start.machine.isSupervisor = true)
    (unwrapped : ∀ delivery ∈ deliveries, delivery.Unwrapped)
    {spared address : UInt32}
    (clear : ∀ delivery ∈ deliveries, ¬delivery.Covers spared.toNat)
    (between : (address - start.machine.registers.stackPointer).toNat ≤
      (spared - start.machine.registers.stackPointer).toNat) :
    ∀ delivery ∈ deliveries, ¬delivery.Covers address.toNat := by
  induction nested with
  | none emulator => simp
  | @next start entered last request later inTable accepted returns rest
      induction =>
      have firstUnwrapped := unwrapped _ List.mem_cons_self
      have firstClear := clear _ List.mem_cons_self
      obtain ⟨-, leads, -⟩ := Emulator.leadsBack_of_accept? accepted
        fits.masterFits firstUnwrapped
      have moved := leads.stackPointer_add_size fits.masterFits supervisor
      have sparedDistance := toNat_sub_of_add_eq moved spared
      have distance := toNat_sub_of_add_eq moved address
      rw [firstUnwrapped.covers_iff] at firstClear
      simp only [Delivery.size] at firstClear
      have sparedBound :=
        (spared - start.machine.registers.stackPointer).toNat_lt
      have size := request.frame.size.toNat_lt
      intro delivery member
      rcases List.mem_cons.mp member with rfl | member
      · rw [firstUnwrapped.covers_iff]
        simp only [Delivery.size]
        omega
      · exact induction leads.fits leads.supervisor
          (fun _ inside => unwrapped _ (List.mem_cons_of_mem _ inside))
          (fun _ inside => clear _ (List.mem_cons_of_mem _ inside))
          (by omega) delivery member

/-! ## Rewinding -/

/-- Two memories agree on every byte that no frame holds. -/
def AgreeExcept (deliveries : List Delivery) (left right : FlatMemory) : Prop :=
  left.size = right.size ∧
    ∀ index, (∀ delivery ∈ deliveries, ¬delivery.Covers index) →
      left.bytes[index]? = right.bytes[index]?

/-- An emulator that has returned from deliveries: its processor is that of the
start and runs on with an opcode, its memory differs in the frames only, and it
has retired one instruction for each delivery. -/
structure Rewound (start : Emulator FlatMemory) (deliveries : List Delivery)
    (opcode : UInt16) (final : Emulator FlatMemory) : Prop where
  processor : final.machine.SameProcessor start.machine
  running : final.machine.condition = .running
  opcode : final.machine.opcode = opcode
  memory : AgreeExcept deliveries final.machine.memory start.machine.memory
  limit : final.limit = start.limit
  retired : final.retired = start.retired + UInt64.ofNat deliveries.length

theorem Rewound.step_eq {start final : Emulator FlatMemory}
    {deliveries : List Delivery} {opcode : UInt16}
    (rewound : Rewound start deliveries opcode final)
    (allowed : start.Allows (deliveries.length + 1)) :
    final.step.2 =
      { final with
        machine := final.machine.step, retired := final.retired + 1 } :=
  Emulator.step_of_allows allowed (Nat.lt_succ_self _) rewound.running
    rewound.limit rewound.retired

/-- The frame of a delivery outlasts all that are nested in it. -/
theorem Nested.framed {entered last : Emulator FlatMemory} {first : Delivery}
    {later : List Delivery} {address : UInt32} {bytes : List UInt8}
    {memory : FlatMemory} (nested : Nested entered later last)
    (fits : entered.machine.StatusFits)
    (supervisor : entered.machine.isSupervisor = true)
    (pointer : first.pointer = entered.machine.registers.stackPointer)
    (apart : Apart address (first :: later))
    (agree : AgreeExcept later memory entered.machine.memory)
    (framed : entered.machine.memory.run? first.pointer first.size =
      some bytes) :
    memory.run? first.pointer first.size = some bytes := by
  refine FlatMemory.run?_congr agree.1.symm ?_ framed
  intro offset inside
  refine (agree.2 _ ?_).symm
  have unwrapped := apart.unwrapped first List.mem_cons_self
  have handlerClear := apart.handlers first List.mem_cons_self first
    List.mem_cons_self 0 (by decide)
  have laterClear (delivery : Delivery) (member : delivery ∈ later) :
      ¬delivery.Covers first.handler.toNat :=
    apart.handlers delivery (List.mem_cons_of_mem _ member) first
      List.mem_cons_self 0 (by decide)
  have place : (UInt32.ofNat (first.pointer.toNat + offset)).toNat =
      first.pointer.toNat + offset := by
    rw [Delivery.Unwrapped] at unwrapped
    rw [UInt32.toNat_ofNat']
    omega
  rw [← place]
  refine nested.not_covers fits supervisor
    (fun _ member => apart.unwrapped _ (List.mem_cons_of_mem _ member))
    laterClear ?_
  rw [Nat.add_zero, unwrapped.covers_iff, pointer] at handlerClear
  rw [← pointer, UInt32.toNat_sub, place, pointer]
  rw [Delivery.Unwrapped, pointer] at unwrapped
  omega

/-- One more return, when everything nested in a delivery has returned. -/
theorem Rewound.next {start entered last final : Emulator FlatMemory}
    {request : ExceptionRequest} {later : List Delivery} {word : UInt16}
    (rewound : Rewound entered later 0x4E73 final)
    (inTable : request.InTable)
    (accepted : start.accept? request = some entered)
    (rest : Nested entered later last)
    (fits : start.machine.StatusFits)
    (even : start.machine.registers.pc % 2 = 0)
    (mapped : start.machine.memory.run? start.machine.registers.pc 2 =
      some (bytesOfWord word))
    (apart : Apart start.machine.registers.pc
      (⟨request, entered.machine.registers.stackPointer,
        entered.machine.registers.pc⟩ :: later))
    (allowed : entered.Allows (later.length + 1)) :
    Rewound start
      (⟨request, entered.machine.registers.stackPointer,
        entered.machine.registers.pc⟩ :: later) word final.step.2 := by
  have unwrapped := apart.unwrapped _ List.mem_cons_self
  obtain ⟨same, leads, -⟩ := Emulator.leadsBack_of_accept? accepted
    fits.masterFits unwrapped
  have framed := rest.framed leads.fits leads.supervisor rfl apart
    rewound.memory leads.framed
  have outside (index : Nat) (clear : ¬Delivery.Covers
      ⟨request, entered.machine.registers.stackPointer,
        entered.machine.registers.pc⟩ index) :
      entered.machine.memory.bytes[index]? =
        start.machine.memory.bytes[index]? := by
    refine leads.outside.2 index ?_
    simp only [Delivery.Covers, Delivery.size] at clear
    omega
  have agree : AgreeExcept
      (⟨request, entered.machine.registers.stackPointer,
        entered.machine.registers.pc⟩ :: later) final.machine.memory
        start.machine.memory := by
    refine ⟨rewound.memory.1.trans leads.outside.1, ?_⟩
    intro index clear
    rw [rewound.memory.2 index fun delivery member =>
      clear delivery (List.mem_cons_of_mem _ member)]
    exact outside index (clear _ List.mem_cons_self)
  have mappedStill : final.machine.memory.run? start.machine.registers.pc 2 =
      some (bytesOfWord word) := by
    refine FlatMemory.run?_congr agree.1.symm ?_ mapped
    intro offset inside
    exact (agree.2 _ fun delivery member =>
      apart.instruction delivery member offset inside).symm
  obtain ⟨processor, running, opcode, memory⟩ :=
    leads.step inTable.vectorOffset_lt unwrapped fits rewound.processor
      rewound.running rewound.opcode framed even mappedStill
  have limit : entered.limit = start.limit := by rw [same]; rfl
  have retired : entered.retired = start.retired := by rw [same]; rfl
  rw [rewound.step_eq allowed]
  exact
    { processor
      running
      opcode
      memory := by rw [memory]; exact agree
      limit := rewound.limit.trans limit
      retired := by
        rw [rewound.retired, retired, List.length_cons, UInt64.ofNat_add,
          ← UInt64.add_assoc]
        rfl }

/-- Deliveries to a running emulator that holds the word at its program counter
are undone by as many returns. -/
theorem Nested.rewind {start last : Emulator FlatMemory}
    {deliveries : List Delivery} (nested : Nested start deliveries last)
    (fits : start.machine.StatusFits)
    (running : start.machine.condition = .running)
    (even : start.machine.registers.pc % 2 = 0)
    (mapped : start.machine.memory.run? start.machine.registers.pc 2 =
      some (bytesOfWord start.machine.opcode))
    (apart : Apart start.machine.registers.pc deliveries)
    (allowed : start.Allows deliveries.length) :
    Rewound start deliveries start.machine.opcode
      ((fun emulator => emulator.step.2)^[deliveries.length] last) := by
  induction nested with
  | none emulator =>
      exact
        { processor := ⟨rfl, fun _ => rfl, fun _ => rfl, rfl, rfl⟩
          running
          opcode := rfl
          memory := ⟨rfl, fun _ _ => rfl⟩
          limit := rfl
          retired := (UInt64.add_zero _).symm }
  | @next start entered last request later inTable accepted returns rest
      induction =>
      obtain ⟨same, leads, awake⟩ := Emulator.leadsBack_of_accept? accepted
        fits.masterFits (apart.unwrapped _ List.mem_cons_self)
      have enteredAllows : entered.Allows (later.length + 1) := by
        rw [same]
        exact allowed
      have rewound := induction leads.fits (awake (.inr running)) leads.even
        leads.fetched apart.tail fun limit limited =>
          (Nat.le_succ _).trans (enteredAllows limit limited)
      rw [returns] at rewound
      rw [List.length_cons, Function.iterate_succ_apply']
      exact rewound.next inTable accepted rest fits even mapped apart
        enteredAllows

/-- An emulator that is back where it was interrupted, as a debugger sees it. -/
structure Restored (start : Emulator FlatMemory) (deliveries : List Delivery)
    (final : Emulator FlatMemory) : Prop where
  general : ∀ register,
    final.inspect (.general register) = start.inspect (.general register)
  stackPointers : ∀ bank,
    final.inspect (.stack bank) = start.inspect (.stack bank)
  status : final.inspect .sr = start.inspect .sr
  pc : final.inspect .pc = start.inspect .pc
  running : final.machine.condition = .running
  fetched : final.machine.memory.run? final.machine.registers.pc 2 =
    some (bytesOfWord final.machine.opcode)
  memory : AgreeExcept deliveries final.machine.memory start.machine.memory

/-- Nested deliveries and as many returns restore the emulator. -/
theorem nested_deliveries_restored {start last : Emulator FlatMemory}
    {deliveries : List Delivery} (nested : Nested start deliveries last)
    (nonempty : deliveries ≠ [])
    (awake : start.machine.condition = .running ∨
      start.machine.condition = .stopped ∧
        (deliveries.head nonempty).request.wakes = true)
    (fits : start.machine.StatusFits)
    (even : start.machine.registers.pc % 2 = 0)
    (mapped : start.machine.registers.pc.toNat + 2 ≤
      start.machine.memory.size)
    (apart : Apart start.machine.registers.pc deliveries)
    (allowed : start.Allows deliveries.length) :
    Restored start deliveries
      ((fun emulator => emulator.step.2)^[deliveries.length] last) := by
  obtain ⟨word, bytes⟩ := FlatMemory.exists_run?_word mapped
  cases nested with
  | none emulator => exact absurd rfl nonempty
  | @next start entered last request later inTable accepted returns rest =>
      obtain ⟨same, leads, wakes⟩ := Emulator.leadsBack_of_accept? accepted
        fits.masterFits (apart.unwrapped _ List.mem_cons_self)
      have running : entered.machine.condition = .running := by
        rcases awake with running | ⟨-, waking⟩
        · exact wakes (.inr running)
        · exact wakes (.inl waking)
      have enteredAllows : entered.Allows (later.length + 1) := by
        rw [same]
        exact allowed
      have inner := rest.rewind leads.fits running leads.even leads.fetched
        apart.tail fun limit limited =>
          (Nat.le_succ _).trans (enteredAllows limit limited)
      rw [returns] at inner
      have rewound := inner.next inTable accepted rest fits even bytes apart
        enteredAllows
      rw [List.length_cons, Function.iterate_succ_apply']
      constructor
      case general =>
        exact fun register =>
          congrArg Value.long (rewound.processor.general register)
      case stackPointers =>
        exact fun bank =>
          congrArg Value.long (rewound.processor.stackPointers bank)
      case status => exact congrArg Value.word rewound.processor.status
      case pc => exact congrArg Value.long rewound.processor.pc
      case running => exact rewound.running
      case memory => exact rewound.memory
      case fetched =>
        rw [rewound.processor.pc, rewound.opcode]
        refine FlatMemory.run?_congr rewound.memory.1.symm ?_ bytes
        intro offset inside
        exact (rewound.memory.2 _ fun delivery member =>
          apart.instruction delivery member offset inside).symm

/-- A stopped supervisor whose vectors 29 and 30 lead to an RTE. -/
def stoppedBelowReturns : Emulator FlatMemory where
  machine :=
    { model := .mc68000
      condition := .stopped
      status := .ofWord 0x2004
      registers := { Registers.setStackPointer {} 0x40 with pc := 0x22 }
      memory := ((FlatMemory.ofSize 0x80).overwrite 0x20
        ([0x4E, 0x73, 0x4E, 0x71].map some)).overwrite 0x74
          ([0, 0, 0, 0x20, 0, 0, 0, 0x20].map some) }

/-- The handler of an interrupt at level five. -/
def interruptedOnce : Emulator FlatMemory :=
  (stoppedBelowReturns.accept? (.interrupt 5)).get (by decide +kernel)

/-- The handler of an exception in that handler. -/
def interruptedTwice : Emulator FlatMemory :=
  (interruptedOnce.accept? (.exception (.sixWord 0x22) 0x78)).get
    (by decide +kernel)

theorem interruptedTwice_restored :
    ∃ deliveries,
      Nested stoppedBelowReturns deliveries interruptedTwice ∧
        deliveries.length = 2 ∧
        Restored stoppedBelowReturns deliveries
          ((fun emulator => emulator.step.2)^[2] interruptedTwice) := by
  have nested : Nested stoppedBelowReturns
      [⟨.interrupt 5, interruptedOnce.machine.registers.stackPointer,
          interruptedOnce.machine.registers.pc⟩,
        ⟨.exception (.sixWord 0x22) 0x78,
          interruptedTwice.machine.registers.stackPointer,
          interruptedTwice.machine.registers.pc⟩] interruptedTwice :=
    .next trivial (Option.some_get _).symm (by decide +kernel)
      (.next (show (0x78 : UInt16) < 0x1000 by decide)
        (Option.some_get _).symm (by decide +kernel) (.none _))
  refine ⟨_, nested, rfl, ?_⟩
  exact nested_deliveries_restored nested (List.cons_ne_nil _ _)
    (.inr ⟨rfl, rfl⟩) (by decide +kernel) (by decide +kernel)
    (by decide +kernel)
    ⟨by decide +kernel, by decide +kernel, by decide +kernel⟩
    fun _ limited => by cases limited

end M68k

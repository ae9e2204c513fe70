import M68k.Machine.Step
import M68k.Proofs.FlatMemoryBytes
import M68k.Proofs.StackBanks

/-!
# What an exception entry does

An entry first changes to the handler's mode, then writes the frame, and last
reads the vector and the handler's first word.  Its outcome is given here as one
case distinction over what can fail on the way; later facts about exceptions
follow it and do not open the entry again.
-/

namespace M68k

namespace ExceptionFrame

/-- The bytes of a frame, from the stack pointer up. -/
def image (frame : ExceptionFrame) (vectorOffset status : UInt16)
    (returnAddress : UInt32) : List UInt8 :=
  bytesOfWord status ++ bytesOfLong returnAddress ++
      bytesOfWord ((frame.format <<< 12) ||| vectorOffset) ++
    match frame with
    | short => []
    | sixWord instruction => bytesOfLong instruction

theorem length_image (frame : ExceptionFrame) (vectorOffset status : UInt16)
    (returnAddress : UInt32) :
    (frame.image vectorOffset status returnAddress).length =
      frame.size.toNat := by
  cases frame <;> rfl

theorem eight_le_size (frame : ExceptionFrame) : 8 ≤ frame.size.toNat := by
  cases frame <;> simp [size]

/-- The parts of a frame and their addresses.  Each part lies in the memory as a
run, also where the whole frame passes the last address. -/
def parts (frame : ExceptionFrame) (vectorOffset status : UInt16)
    (pointer returnAddress : UInt32) : List (UInt32 × List UInt8) :=
  (pointer, bytesOfWord status) ::
    (pointer + 2, bytesOfLong returnAddress) ::
    (pointer + 6, bytesOfWord ((frame.format <<< 12) ||| vectorOffset)) ::
    match frame with
    | short => []
    | sixWord instruction => [(pointer + 8, bytesOfLong instruction)]

theorem apart_parts (frame : ExceptionFrame) (vectorOffset status : UInt16)
    (pointer returnAddress : UInt32) :
    (frame.parts vectorOffset status pointer returnAddress).Pairwise
      FlatMemory.Apart := by
  have two : (pointer + 2).toNat = (pointer.toNat + 2) % 2 ^ 32 :=
    UInt32.toNat_add pointer 2
  have six : (pointer + 6).toNat = (pointer.toNat + 6) % 2 ^ 32 :=
    UInt32.toNat_add pointer 6
  have eight : (pointer + 8).toNat = (pointer.toNat + 8) % 2 ^ 32 :=
    UInt32.toNat_add pointer 8
  have bound := pointer.toNat_lt
  -- Parts before the wrap are near the last address, those after it near zero.
  cases frame with
  | short =>
      simp only [parts, FlatMemory.Apart, List.pairwise_cons, List.mem_cons,
        List.not_mem_nil, or_false, forall_eq_or_imp, forall_eq,
        length_bytesOfWord, length_bytesOfLong]
      simp only [List.Pairwise.nil, and_true, false_imp_iff, implies_true]
      omega
  | sixWord instruction =>
      simp only [parts, FlatMemory.Apart, List.pairwise_cons, List.mem_cons,
        List.not_mem_nil, or_false, forall_eq_or_imp, forall_eq,
        length_bytesOfWord, length_bytesOfLong]
      simp only [List.Pairwise.nil, and_true, false_imp_iff, implies_true]
      omega

/-- A memory that has all parts of a frame has the frame, unless it wraps. -/
theorem covers_of_parts (frame : ExceptionFrame)
    {vectorOffset status : UInt16} {pointer returnAddress : UInt32}
    {size : Nat} (unwrapped : pointer.toNat + frame.size.toNat ≤ 2 ^ 32)
    (covered : ∀ part ∈
        frame.parts vectorOffset status pointer returnAddress,
      part.1.toNat + part.2.length ≤ size) :
    pointer.toNat + frame.size.toNat ≤ size := by
  cases frame with
  | short =>
      have last := covered
        (pointer + 6, bytesOfWord ((format short <<< 12) ||| vectorOffset))
        (by simp [parts])
      have position : (pointer + 6).toNat = (pointer.toNat + 6) % 2 ^ 32 :=
        UInt32.toNat_add pointer 6
      have eight : short.size.toNat = 8 := rfl
      simp only [length_bytesOfWord] at last
      omega
  | sixWord instruction =>
      have last := covered (pointer + 8, bytesOfLong instruction)
        (by simp [parts])
      have position : (pointer + 8).toNat = (pointer.toNat + 8) % 2 ^ 32 :=
        UInt32.toNat_add pointer 8
      have twelve : (sixWord instruction).size.toNat = 12 := rfl
      simp only [length_bytesOfLong] at last
      omega

end ExceptionFrame

namespace Machine

variable {σ : Type} (machine : Machine σ)

/-- The machine in the mode in which a handler starts. -/
def handlerMode : Machine σ :=
  machine.setStatusWord (handlerStatus machine.status.toWord)

/-- Where an entry puts its frame. -/
def framePointer (frame : ExceptionFrame) : UInt32 :=
  machine.handlerMode.registers.stackPointer - frame.size

/-- The machine in the handler's mode with room for a frame on its stack. -/
def readyForFrame (frame : ExceptionFrame) : Machine σ :=
  { machine.handlerMode with
    registers := machine.handlerMode.registers.setStackPointer
      (machine.framePointer frame) }

@[simp]
theorem isSupervisor_handlerMode : machine.handlerMode.isSupervisor = true := by
  have bit : machine.handlerMode.status.toWord &&& StatusBit.supervisor =
      StatusBit.supervisor := by
    rw [handlerMode, toWord_setStatusWord, UInt16.and_assoc,
      Model.statusMask_and_supervisor, handlerStatus_and_supervisor]
  rw [isSupervisor, StatusRegister.supervisor, bit]
  rfl

@[simp]
theorem trace_handlerMode : machine.handlerMode.status.trace = false := by
  have bit : machine.handlerMode.status.toWord &&& StatusBit.trace = 0 := by
    rw [handlerMode, toWord_setStatusWord, UInt16.and_assoc,
      UInt16.and_comm machine.model.statusMask, ← UInt16.and_assoc,
      handlerStatus_and_trace, UInt16.zero_and]
  rw [StatusRegister.trace, bit]
  rfl

@[simp]
theorem pc_readyForFrame (frame : ExceptionFrame) :
    (machine.readyForFrame frame).registers.pc = machine.registers.pc := by
  simp [readyForFrame, handlerMode]

@[simp]
theorem vbr_readyForFrame (frame : ExceptionFrame) :
    (machine.readyForFrame frame).registers.vbr = machine.registers.vbr := by
  have saved (registers : Registers) (bank : StackBank) (value : UInt32) :
      (registers.setBanked bank value).vbr = registers.vbr := by
    cases bank <;> rfl
  exact saved _ _ _

theorem masterFits_handlerMode : machine.handlerMode.MasterFits :=
  machine.masterFits_setStatusWord _

theorem toWord_handlerMode_and_master :
    machine.handlerMode.status.toWord &&& StatusBit.master =
      machine.status.toWord &&&
        if machine.model.hasMasterStack then StatusBit.master else 0 := by
  calc machine.handlerMode.status.toWord &&& StatusBit.master
    _ = handlerStatus machine.status.toWord &&& machine.model.statusMask &&&
          StatusBit.master := by rw [handlerMode, toWord_setStatusWord]
    _ = handlerStatus machine.status.toWord &&& StatusBit.master &&&
          machine.model.statusMask := by
        rw [UInt16.and_assoc, UInt16.and_assoc,
          UInt16.and_comm machine.model.statusMask]
    _ = machine.status.toWord &&&
          (machine.model.statusMask &&& StatusBit.master) := by
        rw [handlerStatus_and_master, UInt16.and_assoc,
          UInt16.and_comm StatusBit.master]
    _ = _ := by rw [Model.statusMask_and_master]

/-- The handler runs on the stack that the master bit selected before. -/
theorem MasterFits.master_handlerMode {machine : Machine σ}
    (fits : machine.MasterFits) :
    machine.handlerMode.status.master = machine.status.master := by
  rw [StatusRegister.master, toWord_handlerMode_and_master,
    StatusRegister.master]
  cases has : machine.model.hasMasterStack with
  | true => simp
  | false =>
      cases master : machine.status.master with
      | true => exact absurd (fits master) (by simp [has])
      | false =>
          rw [StatusRegister.master] at master
          simpa using master.symm

/-- The stack on which a handler starts. -/
def handlerBank : StackBank :=
  if machine.model.hasMasterStack && machine.status.master then .master
  else .interrupt

/-- The stack pointer that a handler finds, before the frame. -/
def handlerPointer : UInt32 :=
  if machine.isSupervisor then machine.registers.stackPointer
  else machine.registers.banked machine.handlerBank

theorem activeBank_handlerMode :
    machine.handlerMode.activeBank = machine.handlerBank := by
  have model : machine.handlerMode.model = machine.model := rfl
  have master : machine.model.hasMasterStack = true →
      machine.handlerMode.status.master = machine.status.master := by
    intro has
    rw [StatusRegister.master, toWord_handlerMode_and_master, if_pos has,
      StatusRegister.master]
  rw [activeBank, if_pos machine.isSupervisor_handlerMode, model, handlerBank]
  cases has : machine.model.hasMasterStack with
  | true => rw [master has]
  | false => rw [Bool.false_and, Bool.false_and]

theorem stackPointer_handlerMode :
    machine.handlerMode.registers.stackPointer = machine.handlerPointer := by
  have exchanged : machine.handlerMode.registers.stackPointer =
      machine.saveStackPointer.registers.banked
        machine.handlerMode.activeBank :=
    machine.stackPointer_setStatusWord _
  rw [exchanged, activeBank_handlerMode, handlerPointer]
  cases supervisor : machine.isSupervisor with
  | true =>
      have active : machine.activeBank = machine.handlerBank := by
        rw [activeBank, if_pos supervisor, handlerBank]
      rw [if_pos rfl, ← active]
      exact Registers.banked_setBanked_self _ _ _
  | false =>
      have user : machine.activeBank = .user := by
        rw [activeBank, supervisor]
        rfl
      apply Registers.banked_setBanked_of_ne
      rw [user, handlerBank]
      split
      · decide
      · decide

/-- A debugger is shown the pointer of the handler's stack. -/
theorem MasterFits.handlerPointer_eq {machine : Machine σ}
    (fits : machine.MasterFits) :
    machine.handlerPointer =
      machine.logicalStackPointer machine.handlerBank := by
  have kept := fits.logicalStackPointer_setStatusWord
    (handlerStatus machine.status.toWord) machine.handlerBank
  rw [← kept, ← stackPointer_handlerMode, ← activeBank_handlerMode]
  symm
  exact machine.masterFits_handlerMode.logicalStackPointer_active

end Machine

namespace Execution

variable {σ : Type} [Memory σ]

/-- Writing a frame touches nothing but the memory. -/
theorem writeFrame_apply (frame : ExceptionFrame)
    (vectorOffset status : UInt16) (pointer : UInt32) (machine : Machine σ) :
    ∃ written memory, writeFrame frame vectorOffset status pointer machine =
      .ok written { machine with memory } := by
  cases frame with
  | short =>
      simp only [writeFrame, bind_apply, pc, observe, attempt_apply,
        pure_apply]
      exact ⟨_, _, rfl⟩
  | sixWord instruction =>
      simp only [writeFrame, bind_apply, pc, observe, attempt_apply,
        pure_apply]
      exact ⟨_, _, rfl⟩

/-- An entry, one failure after the other. -/
theorem enterException_apply (frame : ExceptionFrame) (vectorOffset : UInt16)
    (machine : Machine σ) :
    enterException frame vectorOffset machine =
      if machine.handlerMode.misaligned
          machine.handlerMode.registers.stackPointer then
        .error .addressError machine.handlerMode
      else
        match writeFrame frame vectorOffset machine.status.toWord
            (machine.framePointer frame) (machine.readyForFrame frame) with
        | .ok written framed =>
            if written then
              if framed.misaligned framed.registers.vbr then
                .error .addressError framed
              else
                match onBus (Memory.readLong
                    (framed.registers.vbr + vectorOffset.toUInt32)
                    .supervisorData) framed with
                | .ok entry read => prefetch (read.withPc entry)
                | .error fault read => .error fault read
            else .error .busError framed
        | .error fault framed => .error fault framed := by
  have changed : machine.setStatusWord
      ((machine.status.toWord &&& 0x3FFF) ||| StatusBit.supervisor) =
        machine.handlerMode := rfl
  have inUse : machine.handlerMode.registers.get .stackPointer =
      machine.handlerMode.registers.stackPointer := rfl
  have moved : { machine.handlerMode with
      registers := machine.handlerMode.registers.set .stackPointer
        (machine.handlerMode.registers.stackPointer - frame.size) } =
        machine.readyForFrame frame := rfl
  have table (left : Machine σ) :
      left.registers.control .vbr = left.registers.vbr := rfl
  simp only [enterException, bind_apply, ite_apply, throw_apply, status,
    observe, setStatusWord, update, register, misaligned, control,
    setRegister, setPc, changed, inUse, moved, table]
  rw [← Machine.framePointer]
  congr 1
  cases writeFrame frame vectorOffset machine.status.toWord
      (machine.framePointer frame) (machine.readyForFrame frame) with
  | error fault framed => rfl
  | ok written framed =>
      cases written with
      | false => rfl
      | true =>
          simp only [if_true]
          congr 1
          cases onBus (Memory.readLong
            (framed.registers.vbr + vectorOffset.toUInt32) .supervisorData)
              framed <;> rfl

/-- A completed entry has written its frame, read its vector and fetched the
handler's first word. -/
theorem enterException_eq_ok {frame : ExceptionFrame} {vectorOffset : UInt16}
    {machine entered : Machine σ}
    (run : enterException frame vectorOffset machine = .ok () entered) :
    machine.handlerMode.misaligned
        machine.handlerMode.registers.stackPointer = false ∧
      ∃ framed handler read,
        writeFrame frame vectorOffset machine.status.toWord
          (machine.framePointer frame) (machine.readyForFrame frame) =
            .ok true framed ∧
        onBus (Memory.readLong
          (framed.registers.vbr + vectorOffset.toUInt32) .supervisorData)
            framed = .ok handler read ∧
        prefetch (read.withPc handler) = .ok () entered := by
  rw [enterException_apply] at run
  split at run
  · cases run
  · rename_i aligned
    refine ⟨by simpa using aligned, ?_⟩
    cases framing : writeFrame frame vectorOffset machine.status.toWord
        (machine.framePointer frame) (machine.readyForFrame frame) with
    | error fault framed => rw [framing] at run; cases run
    | ok written framed =>
        rw [framing] at run
        cases written with
        | false => cases run
        | true =>
            simp only [if_true] at run
            split at run
            · cases run
            · cases reading : onBus (Memory.readLong
                  (framed.registers.vbr + vectorOffset.toUInt32)
                    .supervisorData) framed with
              | error fault read => rw [reading] at run; cases run
              | ok handler read =>
                  rw [reading] at run
                  exact ⟨framed, handler, read, rfl, reading, run⟩

/-- After a completed entry the stack pointer is at the frame. -/
theorem stackPointer_of_enterException {frame : ExceptionFrame}
    {vectorOffset : UInt16} {machine entered : Machine σ}
    (run : enterException frame vectorOffset machine = .ok () entered) :
    entered.registers.stackPointer = machine.framePointer frame := by
  obtain ⟨-, framed, handler, read, framing, reading, fetching⟩ :=
    enterException_eq_ok run
  obtain ⟨written, memory, writing⟩ := writeFrame_apply frame vectorOffset
    machine.status.toWord (machine.framePointer frame)
    (machine.readyForFrame frame)
  rw [writing] at framing
  cases framing
  obtain ⟨memory, -, rfl⟩ := onBus_eq_ok reading
  obtain ⟨-, opcode, memory, rfl⟩ := prefetch_eq_ok fetching
  exact Registers.stackPointer_setStackPointer _ _

/-- A completed entry goes on at the address that the vector table holds once
the frame has been written. -/
theorem vector_of_enterException {frame : ExceptionFrame}
    {vectorOffset : UInt16} {machine entered : Machine σ}
    (run : enterException frame vectorOffset machine = .ok () entered) :
    ∃ framed read,
      writeFrame frame vectorOffset machine.status.toWord
          (machine.framePointer frame) (machine.readyForFrame frame) =
            .ok true framed ∧
        (Memory.readLong (machine.registers.vbr + vectorOffset.toUInt32)
          .supervisorData : Bus σ UInt32) framed.memory =
            .ok entered.registers.pc read := by
  obtain ⟨-, framed, handler, read, framing, reading, fetching⟩ :=
    enterException_eq_ok run
  obtain ⟨after, found, rfl⟩ := onBus_eq_ok reading
  obtain ⟨-, opcode, last, rfl⟩ := prefetch_eq_ok fetching
  obtain ⟨written, memory, writing⟩ := writeFrame_apply frame vectorOffset
    machine.status.toWord (machine.framePointer frame)
    (machine.readyForFrame frame)
  have unmoved : framed.registers.vbr = machine.registers.vbr := by
    rw [writing] at framing
    cases framing
    exact machine.vbr_readyForFrame frame
  rw [unmoved] at found
  exact ⟨framed, after, framing, found⟩

/-- A frame that is written completely is written part after part. -/
theorem writeFrame_parts {frame : ExceptionFrame}
    {vectorOffset status : UInt16} {pointer : UInt32}
    {machine framed : Machine FlatMemory}
    (run : writeFrame frame vectorOffset status pointer machine =
      .ok true framed) :
    let parts :=
      frame.parts vectorOffset status pointer machine.registers.pc
    (∀ part ∈ parts, part.1.toNat + part.2.length ≤ machine.memory.size) ∧
      framed =
        { machine with memory := machine.memory.overwriteAll parts } := by
  intro parts
  have words : ∀ (address : UInt32) (value : UInt16),
      (Memory.writeWord address value .supervisorData :
        Bus FlatMemory Unit) =
      FlatMemory.writeRun address ((bytesOfWord value).map some) :=
    fun _ _ => rfl
  have longs : ∀ (address : UInt32) (value : UInt32),
      (Memory.writeLong address value .supervisorData :
        Bus FlatMemory Unit) =
      FlatMemory.writeRun address ((bytesOfLong value).map some) :=
    fun _ _ => rfl
  cases frame with
  | short =>
      simp only [writeFrame, bind_apply, pc, observe, attempt_apply,
        pure_apply, Bool.and_true, EStateM.Result.ok.injEq,
        Bool.and_eq_true, words, longs] at run
      obtain ⟨⟨⟨statusWritten, pcWritten⟩, formatWritten⟩, rfl⟩ := run
      obtain ⟨statusCovered, statusLeft⟩ :=
        FlatMemory.writeRun_granted statusWritten
      rw [statusLeft] at pcWritten formatWritten ⊢
      obtain ⟨pcCovered, pcLeft⟩ := FlatMemory.writeRun_granted pcWritten
      rw [pcLeft] at formatWritten ⊢
      obtain ⟨formatCovered, formatLeft⟩ :=
        FlatMemory.writeRun_granted formatWritten
      rw [formatLeft]
      simp only [FlatMemory.size_overwrite, List.length_map] at *
      constructor
      · simp only [parts, ExceptionFrame.parts, List.forall_mem_cons]
        exact ⟨statusCovered, pcCovered, formatCovered,
          List.forall_mem_nil _⟩
      · rfl
  | sixWord instruction =>
      simp only [writeFrame, bind_apply, pc, observe, attempt_apply,
        pure_apply, EStateM.Result.ok.injEq, Bool.and_eq_true, words,
        longs] at run
      obtain ⟨⟨⟨⟨statusWritten, pcWritten⟩, formatWritten⟩,
        instructionWritten⟩, rfl⟩ := run
      obtain ⟨statusCovered, statusLeft⟩ :=
        FlatMemory.writeRun_granted statusWritten
      rw [statusLeft] at pcWritten formatWritten instructionWritten ⊢
      obtain ⟨pcCovered, pcLeft⟩ := FlatMemory.writeRun_granted pcWritten
      rw [pcLeft] at formatWritten instructionWritten ⊢
      obtain ⟨formatCovered, formatLeft⟩ :=
        FlatMemory.writeRun_granted formatWritten
      rw [formatLeft] at instructionWritten ⊢
      obtain ⟨instructionCovered, instructionLeft⟩ :=
        FlatMemory.writeRun_granted instructionWritten
      rw [instructionLeft]
      simp only [FlatMemory.size_overwrite, List.length_map] at *
      constructor
      · simp only [parts, ExceptionFrame.parts, List.forall_mem_cons]
        exact ⟨statusCovered, pcCovered, formatCovered, instructionCovered,
          List.forall_mem_nil _⟩
      · rfl

/-- A completed entry.  The vector and the handler's first word are read after
the frame has been written. -/
theorem enterException_parts {frame : ExceptionFrame}
    {vectorOffset : UInt16} {machine entered : Machine FlatMemory}
    (run : enterException frame vectorOffset machine = .ok () entered) :
    let parts := frame.parts vectorOffset machine.status.toWord
      (machine.framePointer frame) machine.registers.pc
    machine.handlerMode.misaligned
        machine.handlerMode.registers.stackPointer = false ∧
      (∀ part ∈ parts,
        part.1.toNat + part.2.length ≤ machine.memory.size) ∧
      ∃ handler opcode, handler % 2 = 0 ∧
        entered.memory.run?
            (machine.registers.vbr + vectorOffset.toUInt32) 4 =
          some (bytesOfLong handler) ∧
        entered.memory.run? handler 2 = some (bytesOfWord opcode) ∧
        entered =
          { (machine.readyForFrame frame).withPc handler with
            memory := machine.memory.overwriteAll parts
            opcode } := by
  intro parts
  obtain ⟨aligned, framed, handler, read, framing, reading, fetching⟩ :=
    enterException_eq_ok run
  have unwritten : (machine.readyForFrame frame).memory = machine.memory := rfl
  have written := writeFrame_parts framing
  rw [machine.pc_readyForFrame frame, unwritten] at written
  obtain ⟨covered, framedWith⟩ := written
  have base : framed.registers.vbr = machine.registers.vbr := by
    rw [framedWith]
    exact machine.vbr_readyForFrame frame
  obtain ⟨memory, found, readWith⟩ := onBus_eq_ok reading
  obtain ⟨same, vector⟩ := FlatMemory.readLong_eq_ok_iff.mp found
  obtain rfl : read = framed := by rw [readWith, same]
  obtain ⟨even, opcode, bytes, enteredWith⟩ := prefetch_flat.mp fetching
  have kept : entered.memory = read.memory := by
    rw [enteredWith]
    rfl
  refine ⟨aligned, covered, handler, opcode, even, ?_, ?_, ?_⟩
  · rw [kept, ← base]
    exact vector
  · rw [kept]
    exact bytes
  · rw [enteredWith, framedWith]
    simp only [Machine.withPc, parts]

/-- The parts of a frame that does not wrap are one run. -/
theorem overwriteAll_parts (memory : FlatMemory) (frame : ExceptionFrame)
    (vectorOffset status : UInt16) {pointer : UInt32}
    (returnAddress : UInt32)
    (unwrapped : pointer.toNat + frame.size.toNat ≤ 2 ^ 32) :
    memory.overwriteAll
        (frame.parts vectorOffset status pointer returnAddress) =
      memory.overwrite pointer
        ((frame.image vectorOffset status returnAddress).map some) := by
  have near : ∀ distance : UInt32, distance.toNat < frame.size.toNat →
      (pointer + distance).toNat = pointer.toNat + distance.toNat := by
    intro distance inside
    rw [UInt32.toNat_add, Nat.mod_eq_of_lt (by omega)]
  have eight := frame.eight_le_size
  have two := near 2 (Nat.lt_of_lt_of_le (by decide) eight)
  have six := near 6 (Nat.lt_of_lt_of_le (by decide) eight)
  cases frame with
  | short =>
      simp only [FlatMemory.overwriteAll, ExceptionFrame.parts,
        List.foldl_cons, List.foldl_nil]
      rw [FlatMemory.overwrite_overwrite memory _ _ (by simpa using two),
        FlatMemory.overwrite_overwrite memory _ _ (by simpa using six)]
      simp only [ExceptionFrame.image, List.map_append, List.append_nil]
  | sixWord instruction =>
      have last := near 8 (by simp [ExceptionFrame.size])
      simp only [FlatMemory.overwriteAll, ExceptionFrame.parts,
        List.foldl_cons, List.foldl_nil]
      rw [FlatMemory.overwrite_overwrite memory _ _ (by simpa using two),
        FlatMemory.overwrite_overwrite memory _ _ (by simpa using six),
        FlatMemory.overwrite_overwrite memory _ _ (by simpa using last)]
      simp only [ExceptionFrame.image, List.map_append]

/-- A completed entry whose frame does not wrap. -/
theorem enterException_flat {frame : ExceptionFrame}
    {vectorOffset : UInt16} {machine entered : Machine FlatMemory}
    (run : enterException frame vectorOffset machine = .ok () entered)
    (unwrapped :
      (machine.framePointer frame).toNat + frame.size.toNat ≤ 2 ^ 32) :
    machine.handlerMode.misaligned
        machine.handlerMode.registers.stackPointer = false ∧
      (machine.framePointer frame).toNat + frame.size.toNat ≤
        machine.memory.size ∧
      ∃ handler opcode, handler % 2 = 0 ∧
        entered.memory.run? handler 2 = some (bytesOfWord opcode) ∧
        entered =
          { (machine.readyForFrame frame).withPc handler with
            memory := machine.memory.overwrite (machine.framePointer frame)
              ((frame.image vectorOffset machine.status.toWord
                machine.registers.pc).map some)
            opcode } := by
  obtain ⟨aligned, covered, handler, opcode, even, -, bytes, whole⟩ :=
    enterException_parts run
  refine ⟨aligned, ?_, handler, opcode, even, bytes, ?_⟩
  · exact frame.covers_of_parts unwrapped covered
  · rw [whole, overwriteAll_parts _ _ _ _ _ unwrapped]

end Execution

end M68k

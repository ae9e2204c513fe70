import M68k.Instruction.Decode

/-!
# The forms of decoded instructions

An opcode word whose addressing mode an instruction does not take stands for no
instruction, so a decoded instruction has a mode of its class.  Data
instructions come in few forms: an operation goes with certain sizes, sources
and destinations only.  Line 4 holds most instructions that name a class other
than that of data operands.
-/

namespace M68k

namespace DataOperation

def isShift : DataOperation → Bool
  | shift _ => true
  | _ => false

end DataOperation

/-- What says by how many places a register moves: a number from one to eight,
or another data register. -/
def Source.countsPlaces : Source → Bool
  | .constant places => 1 ≤ places && places ≤ 8
  | .dataRegister _ => true
  | _ => false

/-- What says which bit of an operand is meant: a data register or the next
word. -/
def Source.countsBits : Source → Bool
  | .dataRegister _ | .extensionWord => true
  | _ => false

namespace DataInstruction

/-- The forms in which data instructions come. -/
inductive IsFormed : DataInstruction → Prop where
  /-- An immediate operand and a destination in place. -/
  | immediate {operation : DataOperation} {size : OperandSize}
      {mode : AddressingMode}
      (operates : operation ∈ [DataOperation.or, .and, .sub, .add, .eor])
      (sized : size ≠ .unsized) (alterable : mode.isDataAlterable = true) :
      IsFormed ⟨operation, size, .operand .immediate, .operand mode⟩
  | compareImmediate {size : OperandSize} {mode : AddressingMode}
      (sized : size ≠ .unsized)
      (readable : (mode.isDataAlterable || mode.isPcRelative) = true) :
      IsFormed ⟨.cmp, size, .operand .immediate, .operand mode⟩
  /-- A bit of a long in a register or of a byte in memory. -/
  | bit {operation : BitOperation} {number : Source} {mode : AddressingMode}
      (counts : number.countsBits = true)
      (accepted : (if operation = .keep then
        mode.isData && !(number = .extensionWord && mode = .immediate)
        else mode.isDataAlterable) = true) :
      IsFormed ⟨.bit operation, if mode.isMemory then .byte else .long, number,
        .operand mode⟩
  | moveToAddress {size : OperandSize} {mode : AddressingMode}
      (number : Fin 8) (sized : size ≠ .unsized) (whole : size ≠ .byte) :
      IsFormed ⟨.move, size, .operand mode, .addressRegister number⟩
  | move {size : OperandSize} {source destination : AddressingMode}
      (sized : size ≠ .unsized)
      (readable : ¬(size = .byte && source.isAddressRegister) = true)
      (alterable : destination.isDataAlterable = true) :
      IsFormed ⟨.move, size, .operand source, .store destination⟩
  | moveQuick (value : UInt32) (number : Fin 8) :
      IsFormed ⟨.move, .long, .constant value, .dataRegister number⟩
  | inRegister {operation : DataOperation} {size : OperandSize}
      (number : Fin 8)
      (operates : (operation, size) ∈ [(DataOperation.swap, OperandSize.long),
        (.extWord, .word), (.extLong, .long), (.extByte, .long)]) :
      IsFormed ⟨operation, size, .none, .dataRegister number⟩
  | check {size : OperandSize} {mode : AddressingMode} (number : Fin 8)
      (whole : size = .word ∨ size = .long) (readable : mode.isData = true) :
      IsFormed ⟨.chk, size, .operand mode, .dataRegister number⟩
  | unary {operation : DataOperation} {size : OperandSize}
      {mode : AddressingMode}
      (operates : operation ∈ [DataOperation.negx, .neg, .not])
      (sized : size ≠ .unsized) (alterable : mode.isDataAlterable = true) :
      IsFormed ⟨operation, size, .none, .operand mode⟩
  | unaryByte {operation : DataOperation} {mode : AddressingMode}
      (operates : operation ∈ [DataOperation.nbcd, .tas])
      (alterable : mode.isDataAlterable = true) :
      IsFormed ⟨operation, .byte, .none, .operand mode⟩
  | clear {size : OperandSize} {mode : AddressingMode}
      (sized : size ≠ .unsized) (alterable : mode.isDataAlterable = true) :
      IsFormed ⟨.clr, size, .none, .store mode⟩
  | storeStatus {operation : DataOperation} {mode : AddressingMode}
      (operates : operation ∈ [DataOperation.moveFromSr, .moveFromCcr])
      (alterable : mode.isDataAlterable = true) :
      IsFormed ⟨operation, .word, .none, .store mode⟩
  | storeCondition {condition : Condition} {mode : AddressingMode}
      (alterable : mode.isDataAlterable = true) :
      IsFormed ⟨.scc condition, .byte, .none, .store mode⟩
  | test {size : OperandSize} {mode : AddressingMode}
      (sized : size ≠ .unsized)
      (readable : (!(size = .byte && mode.isAddressRegister)) = true) :
      IsFormed ⟨.tst, size, .operand mode, .none⟩
  | quickToAddress {operation : DataOperation} {value : UInt32}
      (number : Fin 8) (operates : operation ∈ [DataOperation.sub, .add])
      (counts : (Source.constant value).countsPlaces = true) :
      IsFormed ⟨operation, .long, .constant value, .addressRegister number⟩
  | quick {operation : DataOperation} {size : OperandSize} {value : UInt32}
      {mode : AddressingMode} (operates : operation ∈ [DataOperation.sub, .add])
      (sized : size ≠ .unsized)
      (counts : (Source.constant value).countsPlaces = true)
      (alterable : mode.isDataAlterable = true) :
      IsFormed ⟨operation, size, .constant value, .operand mode⟩
  | toMemory {operation : DataOperation} {size : OperandSize}
      {mode : AddressingMode} (number : Fin 8)
      (operates : operation ∈ [DataOperation.or, .and, .sub, .add])
      (sized : size ≠ .unsized) (alterable : mode.isMemoryAlterable = true) :
      IsFormed ⟨operation, size, .dataRegister number, .operand mode⟩
  | eor {size : OperandSize} {mode : AddressingMode} (number : Fin 8)
      (sized : size ≠ .unsized) (alterable : mode.isDataAlterable = true) :
      IsFormed ⟨.eor, size, .dataRegister number, .operand mode⟩
  | toRegister {operation : DataOperation} {size : OperandSize}
      {mode : AddressingMode} (number : Fin 8)
      (operates : operation ∈ [DataOperation.or, .and, .sub, .add, .cmp])
      (sized : size ≠ .unsized)
      (readable : mode.isData = true ∨ size ≠ .byte ∧
        operation ∈ [DataOperation.sub, .add, .cmp]) :
      IsFormed ⟨operation, size, .operand mode, .dataRegister number⟩
  | onAddress {operation : DataOperation} {size : OperandSize}
      {mode : AddressingMode} (number : Fin 8)
      (operates : operation ∈ [DataOperation.sub, .add, .cmp])
      (whole : size = .word ∨ size = .long) :
      IsFormed ⟨operation, size, .operand mode, .addressRegister number⟩
  | extendedRegisters {operation : DataOperation} {size : OperandSize}
      (source destination : Fin 8)
      (operates : operation ∈ [DataOperation.addx, .subx] ∧ size ≠ .unsized ∨
        operation ∈ [DataOperation.abcd, .sbcd] ∧ size = .byte) :
      IsFormed ⟨operation, size, .dataRegister source,
        .dataRegister destination⟩
  | extendedMemory {operation : DataOperation} {size : OperandSize}
      (source destination : Fin 8)
      (operates : operation ∈ [DataOperation.addx, .subx] ∧ size ≠ .unsized ∨
        operation ∈ [DataOperation.abcd, .sbcd] ∧ size = .byte) :
      IsFormed ⟨operation, size, .operand (.predecrement source),
        .operand (.predecrement destination)⟩
  | compareMemory {size : OperandSize} (source destination : Fin 8)
      (sized : size ≠ .unsized) :
      IsFormed ⟨.cmp, size, .operand (.postincrement source),
        .operand (.postincrement destination)⟩
  /-- A word operand and a data register that takes a long. -/
  | product {operation : DataOperation} {mode : AddressingMode}
      (number : Fin 8)
      (operates : operation ∈ [DataOperation.mulu, .muls, .divu, .divs])
      (readable : mode.isData = true) :
      IsFormed ⟨operation, .word, .operand mode, .dataRegister number⟩
  | shiftRegister {operation : Shift} {size : OperandSize} {source : Source}
      (number : Fin 8) (sized : size ≠ .unsized)
      (counts : source.countsPlaces = true) :
      IsFormed ⟨.shift operation, size, source, .dataRegister number⟩
  | shiftMemory {operation : Shift} {mode : AddressingMode}
      (alterable : mode.isMemoryAlterable = true) :
      IsFormed ⟨.shift operation, .word, .constant 1, .operand mode⟩

/-- A shift moves a data register of any size, or a word in memory by one place.
Other operations are not restricted here. -/
def takesItsOperands (instruction : DataInstruction) : Bool :=
  match instruction.operation, instruction.destination with
  | .shift _, .dataRegister _ =>
      instruction.size != .unsized && instruction.source.countsPlaces
  | .shift _, .operand mode =>
      instruction.size == .word && instruction.source == .constant 1 &&
        mode.isMemoryAlterable
  | .shift _, _ => false
  | _, _ => true

theorem takesItsOperands_of_not_isShift {instruction : DataInstruction}
    (other : instruction.operation.isShift = false) :
    instruction.takesItsOperands = true := by
  obtain ⟨operation, size, source, destination⟩ := instruction
  cases operation with
  | shift operation => cases other
  | _ => rfl

/-- The operands of a shift are restricted by its form. -/
theorem IsFormed.takesItsOperands {instruction : DataInstruction}
    (formed : instruction.IsFormed) : instruction.takesItsOperands = true := by
  have other {operations : List DataOperation}
      (plain : ∀ operation ∈ operations, operation.isShift = false)
      (operates : instruction.operation ∈ operations) :
      instruction.takesItsOperands = true :=
    takesItsOperands_of_not_isShift (plain _ operates)
  cases formed with
  | immediate operates | unary operates | unaryByte operates
  | storeStatus operates | quickToAddress number operates | quick operates
  | toMemory number operates | toRegister number operates
  | onAddress number operates | product number operates =>
      exact other (by decide) operates
  | extendedRegisters source destination operates
  | extendedMemory source destination operates =>
      obtain ⟨operates, -⟩ | ⟨operates, -⟩ := operates
      · exact other (by decide) operates
      · exact other (by decide) operates
  | inRegister number operates =>
      have operates := List.mem_map_of_mem (f := Prod.fst) operates
      exact other (by decide) operates
  | shiftRegister number sized counts =>
      exact Bool.and_eq_true_iff.mpr ⟨bne_iff_ne.mpr sized, counts⟩
  | shiftMemory alterable => exact alterable
  | _ => rfl

/-- Data instructions have an operand size. -/
theorem IsFormed.sized {instruction : DataInstruction}
    (formed : instruction.IsFormed) : instruction.size ≠ .unsized := by
  cases formed with
  | bit counts accepted =>
      dsimp only
      split <;> exact OperandSize.noConfusion
  | check number whole | onAddress number operates whole =>
      obtain rfl | rfl := whole <;> exact OperandSize.noConfusion
  | inRegister number operates =>
      have operates := List.mem_map_of_mem (f := Prod.snd) operates
      rintro rfl
      simp at operates
  | extendedRegisters source destination operates
  | extendedMemory source destination operates =>
      obtain ⟨-, sized⟩ | ⟨-, rfl⟩ := operates
      · exact sized
      · exact OperandSize.noConfusion
  | _ => first | assumption | exact OperandSize.noConfusion

/-- Only tests have no destination. -/
theorem IsFormed.named {instruction : DataInstruction}
    (formed : instruction.IsFormed) (other : instruction.operation ≠ .tst) :
    instruction.destination ≠ .none := by
  cases formed with
  | test => exact absurd rfl other
  | _ => exact Destination.noConfusion

end DataInstruction

namespace Instruction

open Opcode

/-- The addressing modes of an instruction are of the class that it takes. -/
def takesItsModes : Instruction → Bool
  | data instruction => instruction.takesItsOperands
  | lea mode _ | pea mode | jmp mode | jsr mode => mode.isControl
  | movemStore _ mode => mode.isControlAlterable || mode.isPredecrement
  | movemLoad _ mode => mode.isControl || mode.isPostincrement
  | moves _ mode => mode.isMemoryAlterable
  | moveToCcr mode | moveToSr mode | mull mode | divl mode => mode.isData
  | _ => true

/-- An instruction has a form, if it is a data instruction, and modes that it
takes. -/
def IsFormed : Instruction → Prop
  | data instruction => instruction.IsFormed
  | instruction => instruction.takesItsModes = true

/-- Instructions of the lines other than the fourth. -/
def IsElsewhere : Instruction → Prop
  | data instruction => instruction.IsFormed
  | moves _ mode => mode.isMemoryAlterable = true
  | logicToCcr _ | logicToSr _ | movepStore _ _ _ | movepLoad _ _ _
  | bcc _ _ | bsr _ | dbcc _ _ | trapcc _ _ | exg _ _ | lineA | lineF => True
  | _ => False

theorem IsFormed.takesItsModes {instruction : Instruction}
    (formed : instruction.IsFormed) : instruction.takesItsModes = true := by
  cases instruction with
  | data instruction => exact DataInstruction.IsFormed.takesItsOperands formed
  | _ => exact formed

theorem IsElsewhere.isFormed {instruction : Instruction}
    (elsewhere : instruction.IsElsewhere) : instruction.IsFormed := by
  cases instruction with
  | data instruction => exact elsewhere
  | moves size mode => exact elsewhere
  | _ => first | rfl | cases elsewhere

/-- Whatever a word stands for has a property. -/
def Decodes (property : Instruction → Prop) (decoded : Option Instruction) :
    Prop :=
  ∀ instruction, decoded = some instruction → property instruction

namespace Decodes

variable {property : Instruction → Prop}

theorem bind {α : Type} {first : Option α} {next : α → Option Instruction}
    (decodes : ∀ value, first = Option.some value →
      Decodes property (next value)) :
    Decodes property (first >>= next) := by
  intro instruction decoded
  obtain ⟨value, found, decoded⟩ := Option.bind_eq_some_iff.mp decoded
  exact decodes value found instruction decoded

theorem some {instruction : Instruction} (holds : property instruction) :
    Decodes property (some instruction) := by
  rintro _ ⟨⟩
  exact holds

theorem none : Decodes property none := by
  rintro _ ⟨⟩

theorem ite {condition : Prop} [Decidable condition]
    {first second : Option Instruction}
    (holds : condition → Decodes property first)
    (fails : ¬condition → Decodes property second) :
    Decodes property (if condition then first else second) := by
  split
  · exact holds ‹_›
  · exact fails ‹_›

/-- An instruction that is there under a condition. -/
theorem guarded {condition : Prop} [Decidable condition]
    {instruction : Instruction} (holds : condition → property instruction) :
    Decodes property (if condition then Option.some instruction
      else Option.none) :=
  .ite (fun met => .some (holds met)) fun _ => .none

end Decodes

/-! ## Sizes and counts -/

section Fields

variable (word : UInt16)

theorem size?_ne_unsized {size : OperandSize} (found : size? word = some size) :
    size ≠ .unsized := by
  rintro rfl
  unfold size? OperandSize.ofField? at found
  split at found <;> cases found

theorem ofMoveField?_ne_unsized {field : UInt16} {size : OperandSize}
    (found : OperandSize.ofMoveField? field = some size) :
    size ≠ .unsized := by
  rintro rfl
  unfold OperandSize.ofMoveField? at found
  split at found <;> cases found

theorem wordOrLong_eq (place : Nat) :
    wordOrLong word place = .word ∨ wordOrLong word place = .long := by
  unfold wordOrLong
  split
  · exact .inr rfl
  · exact .inl rfl

theorem quickValue_range : 1 ≤ quickValue word ∧ quickValue word ≤ 8 := by
  unfold quickValue
  generalize upperRegister word = field
  revert field
  decide

theorem quickValue_countsPlaces :
    (Source.constant (quickValue word)).countsPlaces = true := by
  have range := quickValue_range word
  exact Bool.and_eq_true_iff.mpr
    ⟨decide_eq_true range.1, decide_eq_true range.2⟩

end Fields

/-! ## Lines other than the fourth -/

section Lines

variable (word : UInt16)

theorem decodes_immediate {operation : DataOperation}
    (operates : operation ∈ [DataOperation.or, .and, .sub, .add, .eor])
    (mode : AddressingMode) :
    Decodes IsElsewhere (decodeImmediate word operation mode) :=
  .bind fun _ found => .guarded fun alterable =>
    .immediate operates (size?_ne_unsized word found) alterable

theorem decodes_compareImmediate (mode : AddressingMode) :
    Decodes IsElsewhere (decodeCompareImmediate word mode) :=
  .bind fun _ found => .guarded fun readable =>
    .compareImmediate (size?_ne_unsized word found) readable

theorem decodes_bitOperation {number : Source}
    (counts : number.countsBits = true) (mode : AddressingMode) :
    Decodes IsElsewhere (decodeBitOperation word number mode) :=
  .guarded fun accepted => .bit counts accepted

theorem decodes_line0 : Decodes IsElsewhere (decodeLine0 word) := by
  unfold decodeLine0
  split <;> try exact .some trivial
  refine .bind fun mode _ => .ite (fun _ => ?_) fun _ => ?_
  · split
    · exact .ite (fun _ => .some trivial) fun _ => .some trivial
    · exact decodes_bitOperation word rfl _
  · split
    · exact decodes_immediate word (by decide) _
    · exact decodes_immediate word (by decide) _
    · exact decodes_immediate word (by decide) _
    · exact decodes_immediate word (by decide) _
    · exact decodes_bitOperation word rfl _
    · exact decodes_immediate word (by decide) _
    · exact decodes_compareImmediate word _
    · exact .bind fun _ _ => .guarded id

theorem decodes_move : Decodes IsElsewhere (decodeMove word) := by
  refine .bind fun size found => .bind fun source _ =>
    .bind fun destination _ => ?_
  have sized := ofMoveField?_ne_unsized found
  refine .ite (fun _ => .none) fun readable => ?_
  split
  · exact .ite (fun _ => .none) fun whole =>
      .some (.moveToAddress _ sized whole)
  · exact .guarded fun alterable => .move sized readable alterable

theorem decodes_quick {size : OperandSize} (sized : size ≠ .unsized)
    (mode : AddressingMode) :
    Decodes IsElsewhere (decodeQuick word size mode) := by
  have operates : (if bitAt word 8 then DataOperation.sub else .add) ∈
      [DataOperation.sub, .add] := by
    split <;> decide
  have counts := quickValue_countsPlaces word
  simp only [decodeQuick]
  split
  · exact .ite (fun _ => .none) fun _ =>
      .some (.quickToAddress _ operates counts)
  · exact .guarded fun alterable => .quick operates sized counts alterable

theorem decodes_conditional : Decodes IsElsewhere (decodeConditional word) := by
  unfold decodeConditional
  split <;> try exact .some trivial
  exact .bind fun _ _ => .guarded .storeCondition

theorem decodes_line5 : Decodes IsElsewhere (decodeLine5 word) := by
  unfold decodeLine5
  split
  · exact decodes_conditional word
  · rename_i size found
    have sized := size?_ne_unsized word found
    exact .bind fun mode _ => decodes_quick word sized mode

theorem decodes_branch : Decodes IsElsewhere (some (decodeBranch word)) := by
  refine .some ?_
  unfold decodeBranch
  split <;> trivial

theorem decodes_moveQuick : Decodes IsElsewhere (decodeMoveQuick word) :=
  .ite (fun _ => .none) fun _ => .some (.moveQuick _ _)

/-- An operation that stays in a register if the word does not say otherwise. -/
theorem decodes_withRegister {operation : DataOperation}
    (operates : operation ∈ [DataOperation.or, .and, .sub, .add, .cmp])
    (toMemory : bitAt word 8 = true →
      operation ∈ [DataOperation.or, .and, .sub, .add])
    (mode : AddressingMode) :
    Decodes IsElsewhere (decodeWithRegister word operation mode) := by
  refine .bind fun size found => ?_
  have sized := size?_ne_unsized word found
  refine .ite (fun upper => .guarded fun alterable => ?_) fun _ =>
    .guarded fun readable => ?_
  · exact .toMemory _ (toMemory upper) sized alterable
  · exact .toRegister _ operates sized (.inl readable)

theorem decodes_withAnyRegister {operation : DataOperation}
    (operates : operation ∈ [DataOperation.sub, .add, .cmp])
    (toMemory : bitAt word 8 = true →
      operation ∈ [DataOperation.or, .and, .sub, .add])
    (mode : AddressingMode) :
    Decodes IsElsewhere (decodeWithAnyRegister word operation mode) := by
  have among : operation ∈ [DataOperation.or, .and, .sub, .add, .cmp] :=
    .tail _ (.tail _ operates)
  unfold decodeWithAnyRegister
  split
  · exact decodes_withRegister word among toMemory _
  · rename_i size number whole found upper
    exact .some (.toRegister _ among (size?_ne_unsized word found)
      (.inr ⟨fun byte => whole (by rw [byte]), operates⟩))
  · exact decodes_withRegister word among toMemory _

theorem decodes_extended {operation : DataOperation} {size : OperandSize}
    (operates : operation ∈ [DataOperation.addx, .subx] ∧ size ≠ .unsized ∨
      operation ∈ [DataOperation.abcd, .sbcd] ∧ size = .byte) :
    Decodes IsElsewhere (some (decodeExtended word operation size)) := by
  refine .some ?_
  unfold decodeExtended
  split
  · exact .extendedMemory _ _ operates
  · exact .extendedRegisters _ _ operates

theorem decodes_product {operation : DataOperation}
    (operates : operation ∈ [DataOperation.mulu, .muls, .divu, .divs])
    (mode : AddressingMode) :
    Decodes IsElsewhere (decodeProduct word operation mode) :=
  .guarded fun readable => .product _ operates readable

theorem decodes_onAddress {operation : DataOperation}
    (operates : operation ∈ [DataOperation.sub, .add, .cmp])
    (mode : AddressingMode) :
    Decodes IsElsewhere (some (decodeOnAddress word operation mode)) :=
  .some (.onAddress _ operates (wordOrLong_eq word 8))

theorem decodes_line8 : Decodes IsElsewhere (decodeLine8 word) := by
  refine .bind fun mode _ => ?_
  split
  · exact decodes_product word (by decide) _
  · exact decodes_product word (by decide) _
  · exact decodes_extended word (by decide)
  · exact decodes_withRegister word (by decide) (fun _ => by decide) _

theorem decodes_addSub {operation extended : DataOperation}
    (operates : operation ∈ [DataOperation.sub, .add])
    (extends_ : extended ∈ [DataOperation.addx, .subx]) :
    Decodes IsElsewhere (decodeAddSub word operation extended) := by
  have onAddress : operation ∈ [DataOperation.sub, .add, .cmp] :=
    List.mem_append_left [DataOperation.cmp] operates
  refine .bind fun mode _ => ?_
  split
  · exact decodes_onAddress word onAddress mode
  · rename_i size found
    refine .ite (fun _ => ?_) fun _ => ?_
    · exact decodes_extended word (.inl ⟨extends_, size?_ne_unsized word found⟩)
    · exact decodes_withAnyRegister word onAddress
        (fun _ => .tail _ (.tail _ operates)) _

theorem decodes_lineB : Decodes IsElsewhere (decodeLineB word) := by
  refine .bind fun mode _ => ?_
  split
  · exact decodes_onAddress word (by decide) mode
  · rename_i size found
    have sized := size?_ne_unsized word found
    refine .ite (fun _ => ?_) fun lower => ?_
    · split
      · exact .some (.compareMemory _ _ sized)
      · exact .guarded fun alterable => .eor _ sized alterable
    · exact decodes_withAnyRegister word (by decide)
        (fun upper => absurd upper lower) _

theorem decodes_lineC : Decodes IsElsewhere (decodeLineC word) := by
  refine .bind fun mode _ => ?_
  split
  · exact decodes_product word (by decide) _
  · exact decodes_product word (by decide) _
  · exact decodes_extended word (by decide)
  · exact decodes_extended word (by decide)
  · exact .some trivial
  · exact .some trivial
  · exact .some trivial
  · exact decodes_withRegister word (by decide) (fun _ => by decide) _

theorem decodes_shift : Decodes IsElsewhere (decodeShift word) := by
  unfold decodeShift
  split
  · exact .bind fun mode _ => .guarded fun accepted =>
      .shiftMemory (Bool.and_eq_true_iff.mp accepted).2
  · rename_i size found
    refine .some (.shiftRegister _ (size?_ne_unsized word found) ?_)
    split
    · rfl
    · exact quickValue_countsPlaces word

/-! ## Line 4 -/

theorem decodes_line4Fixed : Decodes IsFormed (decodeLine4Fixed word) := by
  simp only [decodeLine4Fixed]
  split <;> try exact .some rfl
  split <;>
    first
    | exact .some rfl
    | exact .some (.inRegister _ (by decide))
    | exact .none

theorem decodes_leaOrChk (mode : AddressingMode) :
    Decodes IsFormed (decodeLeaOrChk word mode) := by
  simp only [decodeLeaOrChk]
  split
  · exact .guarded id
  · exact .guarded fun readable => .check _ (.inl rfl) readable
  · exact .guarded fun readable => .check _ (.inr rfl) readable
  · exact .none

theorem decodes_unary {operation : DataOperation}
    (operates : operation ∈ [DataOperation.negx, .neg, .not])
    (mode : AddressingMode) :
    Decodes IsFormed (do
      let size ← size? word
      if mode.isDataAlterable then
        some (.data ⟨operation, size, .none, .operand mode⟩)
      else none) :=
  .bind fun _ found => .guarded fun alterable =>
    .unary operates (size?_ne_unsized word found) alterable

theorem decodes_oneOperand (mode : AddressingMode) :
    Decodes IsFormed (decodeOneOperand word mode) := by
  simp only [decodeOneOperand]
  split
  all_goals
    first
    | exact .guarded id
    | exact decodes_unary word (by decide) mode
    | exact .guarded fun alterable => .unaryByte (by decide) alterable
    | exact .guarded fun alterable => .storeStatus (by decide) alterable
    | exact .bind fun _ found => .guarded fun alterable =>
        .clear (size?_ne_unsized word found) alterable
    | exact .bind fun _ found => .guarded fun readable =>
        .test (size?_ne_unsized word found) readable
    | exact .none

theorem decodes_line4 : Decodes IsFormed (decodeLine4 word) := by
  unfold decodeLine4
  split
  · rename_i instruction fixed
    rw [← fixed]
    exact decodes_line4Fixed word
  · exact .bind fun mode _ => .ite (fun _ => decodes_leaOrChk word mode)
      fun _ => decodes_oneOperand word mode

end Lines

/-- A word that stands for an instruction outside of what the other lines hold
is a word of line 4. -/
theorem decodeLine4_of_decode? {word : UInt16} {instruction : Instruction}
    (decoded : decode? word = some instruction)
    (here : ¬instruction.IsElsewhere) :
    decodeLine4 word = some instruction := by
  have elsewhere {found : Option Instruction}
      (decodes : Decodes IsElsewhere found) (same : found = some instruction) :
      decodeLine4 word = some instruction :=
    absurd (decodes instruction same) here
  simp only [decode?] at decoded
  split at decoded
  · exact elsewhere (decodes_line0 word) decoded
  · exact elsewhere (decodes_move word) decoded
  · exact elsewhere (decodes_move word) decoded
  · exact elsewhere (decodes_move word) decoded
  · exact decoded
  · exact elsewhere (decodes_line5 word) decoded
  · exact elsewhere (decodes_branch word) decoded
  · exact elsewhere (decodes_moveQuick word) decoded
  · exact elsewhere (decodes_line8 word) decoded
  · exact elsewhere (decodes_addSub word (by decide) (by decide)) decoded
  · exact elsewhere (.some (show IsElsewhere .lineA from trivial)) decoded
  · exact elsewhere (decodes_lineB word) decoded
  · exact elsewhere (decodes_lineC word) decoded
  · exact elsewhere (decodes_addSub word (by decide) (by decide)) decoded
  · exact elsewhere (decodes_shift word) decoded
  · exact elsewhere (.some (show IsElsewhere .lineF from trivial)) decoded

/-- Every decoded data instruction has a form, and every other decoded
instruction has addressing modes of the class that it takes. -/
theorem isFormed_of_decode? {word : UInt16} {instruction : Instruction}
    (decoded : decode? word = some instruction) : instruction.IsFormed := by
  by_cases place : instruction.IsElsewhere
  · exact place.isFormed
  · exact decodes_line4 word instruction (decodeLine4_of_decode? decoded place)

theorem takesItsModes_of_decode? {word : UInt16} {instruction : Instruction}
    (decoded : decode? word = some instruction) :
    instruction.takesItsModes = true :=
  (isFormed_of_decode? decoded).takesItsModes

end Instruction

end M68k

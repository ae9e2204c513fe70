import M68k.Instruction
import M68k.Word

/-!
# Decoding

Every opcode word stands for one instruction, or for none on any model.  The
four high bits of the word choose a line of the instruction set; each line is a
function of its own.

```text
15 .. 12 11 10  9  8  7  6  5  4  3  2  1  0
  line   register  op  size   mode  register
```
-/

namespace M68k

namespace Opcode

/-- The register in bits 11 to 9. -/
def upperRegister (word : UInt16) : Fin 8 :=
  fieldAt word 9

/-- The register in bits 2 to 0. -/
def lowerRegister (word : UInt16) : Fin 8 :=
  fieldAt word 0

/-- The addressing mode in the six low bits. -/
def mode? (word : UInt16) : Option AddressingMode :=
  AddressingMode.ofFields? (fieldAt word 3) (fieldAt word 0)

/-- The operand size in bits 7 and 6. -/
def size? (word : UInt16) : Option OperandSize :=
  OperandSize.ofField? (word >>> 6)

/-- Word or long by one bit. -/
def wordOrLong (word : UInt16) (position : Nat) : OperandSize :=
  if bitAt word position then .long else .word

/-- The condition in bits 11 to 8. -/
def condition (word : UInt16) : Condition :=
  Condition.ofCode (word >>> 8).toUInt8

/-- The number from one to eight in bits 11 to 9. -/
def quickValue (word : UInt16) : UInt32 :=
  if upperRegister word = 0 then 8 else UInt32.ofNat (upperRegister word).val

end Opcode

namespace Instruction

open Opcode

def decodeImmediate (word : UInt16) (operation : DataOperation)
    (mode : AddressingMode) : Option Instruction := do
  let size ← size? word
  if mode.isDataAlterable then
    some (.data ⟨operation, size, .operand .immediate, .operand mode⟩)
  else none

/-- CMPI, which later models allow on operands relative to the program
counter. -/
def decodeCompareImmediate (word : UInt16) (mode : AddressingMode) :
    Option Instruction := do
  let size ← size? word
  if mode.isDataAlterable || mode.isPcRelative then
    some (.data ⟨.cmp, size, .operand .immediate, .operand mode⟩)
  else none

/-- The bit operation in bits 7 and 6. -/
def bitOperation (word : UInt16) : BitOperation :=
  match pairAt word 6 with
  | 0 => .keep
  | 1 => .change
  | 2 => .clear
  | 3 => .set

/-- Bit operations; the source is the number of the bit.  A register has
thirty-two bits, an operand in memory eight. -/
def decodeBitOperation (word : UInt16) (number : Source)
    (mode : AddressingMode) : Option Instruction :=
  let operation := bitOperation word
  let accepted :=
    if operation = .keep then
      mode.isData && !(number = .extensionWord && mode = .immediate)
    else mode.isDataAlterable
  let size := if mode.isMemory then OperandSize.byte else .long
  if accepted then
    some (.data ⟨.bit operation, size, number, .operand mode⟩)
  else none

/-- Line 0: immediate and bit operations, MOVEP and MOVES. -/
def decodeLine0 (word : UInt16) : Option Instruction :=
  match word with
  | 0x003C => some (.logicToCcr .or)
  | 0x007C => some (.logicToSr .or)
  | 0x023C => some (.logicToCcr .and)
  | 0x027C => some (.logicToSr .and)
  | 0x0A3C => some (.logicToCcr .eor)
  | 0x0A7C => some (.logicToSr .eor)
  | _ => do
    let mode ← mode? word
    if bitAt word 8 then
      match mode with
      | .addressRegister address =>
          let size := wordOrLong word 6
          let register := upperRegister word
          if bitAt word 7 then some (.movepStore size register address)
          else some (.movepLoad size register address)
      | _ => decodeBitOperation word (.dataRegister (upperRegister word)) mode
    else
      match upperRegister word with
      | 0 => decodeImmediate word .or mode
      | 1 => decodeImmediate word .and mode
      | 2 => decodeImmediate word .sub mode
      | 3 => decodeImmediate word .add mode
      | 4 => decodeBitOperation word .extensionWord mode
      | 5 => decodeImmediate word .eor mode
      | 6 => decodeCompareImmediate word mode
      | 7 => do
        let size ← size? word
        if mode.isMemoryAlterable then some (.moves size mode) else none

/-- Lines 1 to 3: MOVE and MOVEA. -/
def decodeMove (word : UInt16) : Option Instruction := do
  let size ← OperandSize.ofMoveField? (word >>> 12)
  let source ← mode? word
  let destination ← AddressingMode.ofFields? (fieldAt word 6) (fieldAt word 9)
  if size = .byte && source.isAddressRegister then none
  else
    match destination with
    | .addressRegister number =>
        if size = .byte then none
        else
          some (.data
            ⟨.move, size, .operand source, .addressRegister number⟩)
    | _ =>
        if destination.isDataAlterable then
          some (.data ⟨.move, size, .operand source, .store destination⟩)
        else none

/-- Line 4: the words that name no addressing mode. -/
def decodeLine4Fixed (word : UInt16) : Option Instruction :=
  match word with
  | 0x4AFC => some .illegal
  | 0x4E70 => some .reset
  | 0x4E71 => some .nop
  | 0x4E72 => some .stop
  | 0x4E73 => some .rte
  | 0x4E74 => some .rtd
  | 0x4E75 => some .rts
  | 0x4E76 => some .trapv
  | 0x4E77 => some .rtr
  | 0x4E7A => some .movecLoad
  | 0x4E7B => some .movecStore
  | _ =>
    let register := lowerRegister word
    let onRegister (operation : DataOperation) (size : OperandSize) :=
      some (Instruction.data
        ⟨operation, size, .none, .dataRegister register⟩)
    match word &&& 0xFFF8 with
    | 0x4808 => some (.linkLong register)
    | 0x4840 => onRegister .swap .long
    | 0x4848 => some (.bkpt register)
    | 0x4880 => onRegister .extWord .word
    | 0x48C0 => onRegister .extLong .long
    | 0x49C0 => onRegister .extByte .long
    | 0x4E50 => some (.link register)
    | 0x4E58 => some (.unlk register)
    | 0x4E60 => some (.moveToUsp register)
    | 0x4E68 => some (.moveFromUsp register)
    | 0x4E40 => some (.trap ⟨register.val, by omega⟩)
    | 0x4E48 => some (.trap ⟨8 + register.val, by omega⟩)
    | _ => none

/-- Line 4 with bit 8: LEA and CHK. -/
def decodeLeaOrChk (word : UInt16) (mode : AddressingMode) :
    Option Instruction :=
  let register := upperRegister word
  let check (size : OperandSize) :=
    if mode.isData then
      some (Instruction.data
        ⟨.chk, size, .operand mode, .dataRegister register⟩)
    else none
  match pairAt word 6 with
  | 3 => if mode.isControl then some (.lea mode register) else none
  | 2 => check .word
  | 0 => check .long
  | _ => none

/-- Line 4 without bit 8: operations on one operand. -/
def decodeOneOperand (word : UInt16) (mode : AddressingMode) :
    Option Instruction :=
  let unary (operation : DataOperation) (size? : Option OperandSize) := do
    let size ← size?
    if mode.isDataAlterable then
      some (Instruction.data ⟨operation, size, .none, .operand mode⟩)
    else none
  let store (operation : DataOperation) (size? : Option OperandSize) := do
    let size ← size?
    if mode.isDataAlterable then
      some (Instruction.data ⟨operation, size, .none, .store mode⟩)
    else none
  let onlyIf (accepted : Bool) (instruction : Instruction) :=
    if accepted then some instruction else none
  match (word >>> 6).toNat % 64 with
  | 0x00 | 0x01 | 0x02 => unary .negx (size? word)
  | 0x03 => store .moveFromSr (some .word)
  | 0x08 | 0x09 | 0x0A => store .clr (size? word)
  | 0x0B => store .moveFromCcr (some .word)
  | 0x10 | 0x11 | 0x12 => unary .neg (size? word)
  | 0x13 => onlyIf mode.isData (.moveToCcr mode)
  | 0x18 | 0x19 | 0x1A => unary .not (size? word)
  | 0x1B => onlyIf mode.isData (.moveToSr mode)
  | 0x20 => unary .nbcd (some .byte)
  | 0x21 => onlyIf mode.isControl (.pea mode)
  | 0x22 | 0x23 =>
      onlyIf (mode.isControlAlterable || mode.isPredecrement)
        (.movemStore (wordOrLong word 6) mode)
  | 0x28 | 0x29 | 0x2A => do
      let size ← size? word
      onlyIf (!(size = .byte && mode.isAddressRegister))
        (.data ⟨.tst, size, .operand mode, .none⟩)
  | 0x2B => unary .tas (some .byte)
  | 0x30 => onlyIf mode.isData (.mull mode)
  | 0x31 => onlyIf mode.isData (.divl mode)
  | 0x32 | 0x33 =>
      onlyIf (mode.isControl || mode.isPostincrement)
        (.movemLoad (wordOrLong word 6) mode)
  | 0x3A => onlyIf mode.isControl (.jsr mode)
  | 0x3B => onlyIf mode.isControl (.jmp mode)
  | _ => none

/-- Line 4: miscellaneous instructions. -/
def decodeLine4 (word : UInt16) : Option Instruction :=
  match decodeLine4Fixed word with
  | some instruction => some instruction
  | none => do
    let mode ← mode? word
    if bitAt word 8 then decodeLeaOrChk word mode
    else decodeOneOperand word mode

/-- ADDQ and SUBQ.  An address register takes the whole sum. -/
def decodeQuick (word : UInt16) (size : OperandSize) (mode : AddressingMode) :
    Option Instruction :=
  let operation := if bitAt word 8 then DataOperation.sub else .add
  let source := Source.constant (quickValue word)
  match mode with
  | .addressRegister number =>
      if size = .byte then none
      else some (.data ⟨operation, .long, source, .addressRegister number⟩)
  | _ =>
      if mode.isDataAlterable then
        some (.data ⟨operation, size, source, .operand mode⟩)
      else none

/-- The instructions of line 5 that test a condition. -/
def decodeConditional (word : UInt16) : Option Instruction :=
  match fieldAt word 3, fieldAt word 0 with
  | 1, counter => some (.dbcc (condition word) counter)
  | 7, 2 => some (.trapcc (condition word) 1)
  | 7, 3 => some (.trapcc (condition word) 2)
  | 7, 4 => some (.trapcc (condition word) 0)
  | _, _ => do
    let mode ← mode? word
    if mode.isDataAlterable then
      some (.data ⟨.scc (condition word), .byte, .none, .store mode⟩)
    else none

/-- Line 5: ADDQ, SUBQ and conditional instructions. -/
def decodeLine5 (word : UInt16) : Option Instruction :=
  match size? word with
  | none => decodeConditional word
  | some size => do
    let mode ← mode? word
    decodeQuick word size mode

/-- Line 6: branches. -/
def decodeBranch (word : UInt16) : Instruction :=
  match condition word with
  | .never => .bsr word.toUInt8
  | condition => .bcc condition word.toUInt8

/-- Line 7: MOVEQ. -/
def decodeMoveQuick (word : UInt16) : Option Instruction :=
  if bitAt word 8 then none
  else
    some (.data ⟨.move, .long, .constant (signExtendByte word.toUInt8),
      .dataRegister (upperRegister word)⟩)

/-- An operation between a data register and an operand.  Bit 8 tells which of
the two is the destination. -/
def decodeWithRegister (word : UInt16) (operation : DataOperation)
    (mode : AddressingMode) : Option Instruction := do
  let size ← size? word
  let register := upperRegister word
  if bitAt word 8 then
    if mode.isMemoryAlterable then
      some (.data ⟨operation, size, .dataRegister register, .operand mode⟩)
    else none
  else if mode.isData then
    some (.data ⟨operation, size, .operand mode, .dataRegister register⟩)
  else none

/-- The same for operations that take their source from address registers
too. -/
def decodeWithAnyRegister (word : UInt16) (operation : DataOperation)
    (mode : AddressingMode) : Option Instruction :=
  match size? word, mode, bitAt word 8 with
  | some .byte, _, _ => decodeWithRegister word operation mode
  | some size, .addressRegister _, false =>
      some (.data ⟨operation, size, .operand mode,
        .dataRegister (upperRegister word)⟩)
  | _, _, _ => decodeWithRegister word operation mode

/-- An operation with carry between two registers or two predecremented
operands. -/
def decodeExtended (word : UInt16) (operation : DataOperation)
    (size : OperandSize) : Instruction :=
  let source := lowerRegister word
  let destination := upperRegister word
  if bitAt word 3 then
    .data ⟨operation, size, .operand (.predecrement source),
      .operand (.predecrement destination)⟩
  else
    .data ⟨operation, size, .dataRegister source, .dataRegister destination⟩

/-- A word operation that gives a long in a data register. -/
def decodeProduct (word : UInt16) (operation : DataOperation)
    (mode : AddressingMode) : Option Instruction :=
  if mode.isData then
    some (.data ⟨operation, .word, .operand mode,
      .dataRegister (upperRegister word)⟩)
  else none

def decodeOnAddress (word : UInt16) (operation : DataOperation)
    (mode : AddressingMode) : Instruction :=
  .data ⟨operation, wordOrLong word 8, .operand mode,
    .addressRegister (upperRegister word)⟩

/-- Line 8: OR, division and SBCD. -/
def decodeLine8 (word : UInt16) : Option Instruction := do
  let mode ← mode? word
  match fieldAt word 6, mode.isRegister with
  | 3, _ => decodeProduct word .divu mode
  | 7, _ => decodeProduct word .divs mode
  | 4, true => some (decodeExtended word .sbcd .byte)
  | _, _ => decodeWithRegister word .or mode

/-- Lines 9 and D: subtraction and addition. -/
def decodeAddSub (word : UInt16) (operation extended : DataOperation) :
    Option Instruction := do
  let mode ← mode? word
  match size? word with
  | none => some (decodeOnAddress word operation mode)
  | some size =>
      if bitAt word 8 && mode.isRegister then
        some (decodeExtended word extended size)
      else decodeWithAnyRegister word operation mode

/-- Line B: comparisons and EOR. -/
def decodeLineB (word : UInt16) : Option Instruction := do
  let mode ← mode? word
  match size? word with
  | none => some (decodeOnAddress word .cmp mode)
  | some size =>
      if bitAt word 8 then
        match mode with
        | .addressRegister source =>
            some (.data ⟨.cmp, size, .operand (.postincrement source),
              .operand (.postincrement (upperRegister word))⟩)
        | _ =>
            if mode.isDataAlterable then
              some (.data ⟨.eor, size, .dataRegister (upperRegister word),
                .operand mode⟩)
            else none
      else decodeWithAnyRegister word .cmp mode

/-- Line C: AND, multiplication, ABCD and EXG. -/
def decodeLineC (word : UInt16) : Option Instruction := do
  let mode ← mode? word
  let register := upperRegister word
  match fieldAt word 6, mode with
  | 3, _ => decodeProduct word .mulu mode
  | 7, _ => decodeProduct word .muls mode
  | 4, .dataRegister _ | 4, .addressRegister _ =>
      some (decodeExtended word .abcd .byte)
  | 5, .dataRegister other => some (.exg (.data register) (.data other))
  | 5, .addressRegister other =>
      some (.exg (.address register) (.address other))
  | 6, .addressRegister other => some (.exg (.data register) (.address other))
  | _, _ => decodeWithRegister word .and mode

def shiftOfType (type : Fin 4) (left : Bool) : Shift :=
  match type, left with
  | 0, false => .asr
  | 0, true => .asl
  | 1, false => .lsr
  | 1, true => .lsl
  | 2, false => .roxr
  | 2, true => .roxl
  | 3, false => .ror
  | 3, true => .rol

/-- Line E: shifts and rotates. -/
def decodeShift (word : UInt16) : Option Instruction :=
  let left := bitAt word 8
  match size? word with
  | none => do
    let mode ← mode? word
    let shift := shiftOfType (pairAt word 9) left
    if !bitAt word 11 && mode.isMemoryAlterable then
      some (.data ⟨.shift shift, .word, .constant 1, .operand mode⟩)
    else none
  | some size =>
      let shift := shiftOfType (pairAt word 3) left
      let count :=
        if bitAt word 5 then Source.dataRegister (upperRegister word)
        else .constant (quickValue word)
      some (.data
        ⟨.shift shift, size, count, .dataRegister (lowerRegister word)⟩)

/-- The instruction that an opcode word stands for. -/
def decode? (word : UInt16) : Option Instruction :=
  match (word >>> 12).toNat with
  | 0x0 => decodeLine0 word
  | 0x1 | 0x2 | 0x3 => decodeMove word
  | 0x4 => decodeLine4 word
  | 0x5 => decodeLine5 word
  | 0x6 => some (decodeBranch word)
  | 0x7 => decodeMoveQuick word
  | 0x8 => decodeLine8 word
  | 0x9 => decodeAddSub word .sub .subx
  | 0xA => some .lineA
  | 0xB => decodeLineB word
  | 0xC => decodeLineC word
  | 0xD => decodeAddSub word .add .addx
  | 0xE => decodeShift word
  | _ => some .lineF

end Instruction

end M68k

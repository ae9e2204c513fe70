import M68k.Memory.Banked
import M68k.Memory.Flat
import M68k.Proofs.Invariant

/-!
# Memory in banks

A memory is cut into banks when each space is wired to one of them, and an
access sees and changes nothing but the bank of its space.  The wiring may be
part of the memory, but no access changes it.
-/

namespace M68k

namespace Bus

variable {σ α β : Type}

theorem leaves_bind (first : Bus σ α) (next : α → Bus σ β) (memory : σ) :
    (first >>= next).leaves memory =
      match first.answer? memory with
      | some answer => (next answer).leaves (first.leaves memory)
      | none => first.leaves memory := by
  simp only [leaves, answer?, bind, EStateM.bind]
  cases first memory <;> rfl

theorem answer?_bind (first : Bus σ α) (next : α → Bus σ β) (memory : σ) :
    (first >>= next).answer? memory =
      match first.answer? memory with
      | some answer => (next answer).answer? (first.leaves memory)
      | none => none := by
  simp only [leaves, answer?, bind, EStateM.bind]
  cases first memory <;> rfl

end Bus

/-- How a memory is cut into banks. -/
structure BankLayout (σ : Type) where
  Wiring : Type
  Bank : Type
  Contents : Type
  wiring : σ → Wiring
  bankOf : Wiring → FunctionCode → Bank
  contents : σ → Bank → Contents

namespace BankLayout

variable {σ α β : Type} (layout : BankLayout σ)

/-- Two memories are wired alike and show the same bank in a space. -/
structure Alike (space : FunctionCode) (left right : σ) : Prop where
  wiring : layout.wiring left = layout.wiring right
  contents :
    layout.contents left (layout.bankOf (layout.wiring left) space) =
      layout.contents right (layout.bankOf (layout.wiring right) space)

/-- A transaction depends on the bank of a space and changes only this bank. -/
structure IsLocal (space : FunctionCode) (transaction : Bus σ α) :
    Prop where
  wiring : ∀ memory,
    layout.wiring (transaction.leaves memory) = layout.wiring memory
  others : ∀ memory bank, bank ≠ layout.bankOf (layout.wiring memory) space →
    layout.contents (transaction.leaves memory) bank =
      layout.contents memory bank
  answer : ∀ left right, layout.Alike space left right →
    transaction.answer? left = transaction.answer? right
  changes : ∀ left right, layout.Alike space left right →
    layout.contents (transaction.leaves left)
        (layout.bankOf (layout.wiring left) space) =
      layout.contents (transaction.leaves right)
        (layout.bankOf (layout.wiring right) space)

variable {layout} {space : FunctionCode}

namespace IsLocal

theorem alike {transaction : Bus σ α}
    (isLocal : layout.IsLocal space transaction) {left right : σ}
    (alike : layout.Alike space left right) :
    layout.Alike space (transaction.leaves left)
      (transaction.leaves right) := by
  constructor
  · rw [isLocal.wiring, isLocal.wiring]
    exact alike.wiring
  · rw [isLocal.wiring, isLocal.wiring]
    exact isLocal.changes left right alike

/-- Two banks stay alike when another is accessed, and also when it is the same
bank. -/
theorem alike_other {transaction : Bus σ α}
    (isLocal : layout.IsLocal space transaction) {left right : σ}
    (accessed : layout.Alike space left right) {other : FunctionCode}
    (alike : layout.Alike other left right) :
    layout.Alike other (transaction.leaves left)
      (transaction.leaves right) := by
  constructor
  · rw [isLocal.wiring, isLocal.wiring]
    exact alike.wiring
  · rw [isLocal.wiring, isLocal.wiring]
    by_cases same : layout.bankOf (layout.wiring left) other =
        layout.bankOf (layout.wiring left) space
    · have changes := isLocal.changes left right accessed
      rw [← alike.wiring] at changes ⊢
      rw [same]
      exact changes
    · have different := same
      rw [alike.wiring] at different
      rw [isLocal.others left _ same, isLocal.others right _ different]
      exact alike.contents

theorem pure (value : α) :
    layout.IsLocal space (Pure.pure value : Bus σ α) := by
  constructor
  · intro memory
    rfl
  · intro memory bank other
    rfl
  · intro left right alike
    rfl
  · intro left right alike
    exact alike.contents

theorem bind {first : Bus σ α} {next : α → Bus σ β}
    (isLocal : layout.IsLocal space first)
    (nextLocal : ∀ answer, layout.IsLocal space (next answer)) :
    layout.IsLocal space (first >>= next) := by
  constructor
  · intro memory
    rw [Bus.leaves_bind]
    cases first.answer? memory with
    | none => exact isLocal.wiring memory
    | some answer =>
        exact ((nextLocal answer).wiring _).trans (isLocal.wiring memory)
  · intro memory bank other
    rw [Bus.leaves_bind]
    cases first.answer? memory with
    | none => exact isLocal.others memory bank other
    | some answer =>
        have still : bank ≠
            layout.bankOf (layout.wiring (first.leaves memory)) space := by
          rw [isLocal.wiring]
          exact other
        exact ((nextLocal answer).others _ bank still).trans
          (isLocal.others memory bank other)
  · intro left right alike
    rw [Bus.answer?_bind, Bus.answer?_bind, isLocal.answer left right alike]
    cases first.answer? right with
    | none => rfl
    | some answer =>
        exact (nextLocal answer).answer _ _ (isLocal.alike alike)
  · intro left right alike
    rw [Bus.leaves_bind, Bus.leaves_bind, isLocal.answer left right alike]
    cases first.answer? right with
    | none => exact isLocal.changes left right alike
    | some answer =>
        have changes :=
          (nextLocal answer).changes _ _ (isLocal.alike alike)
        rw [isLocal.wiring, isLocal.wiring] at changes
        exact changes

end IsLocal

end BankLayout

/-- A memory in banks. -/
structure Banking (σ : Type) [Memory σ] extends BankLayout σ where
  isLocal : ∀ space (access : Access),
    toBankLayout.IsLocal space (access.ask space)

/-! ## Banks selected by the function code -/

namespace BankedMemory

/-- The banks of the function codes, with the base address and the protected
ranges as part of the wiring. -/
def layout : BankLayout BankedMemory where
  Wiring := Vector (Option Nat) 8 × UInt32 × List (UInt32 × UInt32)
  Bank := Option Nat
  Contents := Option (Array UInt8)
  wiring memory := (memory.bankOf, memory.base, memory.readOnly)
  bankOf wiring space := wiring.1.get space.code
  contents memory bank := bank.bind (memory.banks[·]?)

variable {left right memory : BankedMemory} {space : FunctionCode}

/-! ### What alike memories have in common -/

theorem bankOf_of_alike (alike : layout.Alike space left right) :
    left.bankOf = right.bankOf :=
  congrArg Prod.fst alike.wiring

theorem offset_of_alike (alike : layout.Alike space left right)
    (address : UInt32) : left.offset address = right.offset address := by
  have base : left.base = right.base :=
    congrArg (fun wiring => wiring.2.1) alike.wiring
  rw [offset, offset, base]

theorem isWritable_of_alike (alike : layout.Alike space left right)
    (address : UInt32) (length : Nat) :
    left.isWritable address length = right.isWritable address length := by
  have readOnly : left.readOnly = right.readOnly :=
    congrArg (fun wiring => wiring.2.2) alike.wiring
  induction length generalizing address with
  | zero => rfl
  | succ length same =>
      rw [isWritable, isWritable, isReadOnly, isReadOnly, readOnly, same]

theorem bank?_of_alike (alike : layout.Alike space left right) :
    left.bank? space = right.bank? space :=
  alike.contents

theorem run?_of_alike (alike : layout.Alike space left right)
    (address : UInt32) (length : Nat) :
    left.run? address length space = right.run? address length space := by
  rw [run?, run?, bank?_of_alike alike, offset_of_alike alike]

/-! ### Reads -/

/-- A read looks at the bank of its space. -/
private theorem isLocal_of_view {α : Type} {transaction : Bus BankedMemory α}
    (view? : BankedMemory → Option α)
    (reads : ∀ memory, transaction memory =
      match view? memory with
      | some value => .ok value memory
      | none => .error () memory)
    (same : ∀ left right, layout.Alike space left right →
      view? left = view? right) :
    layout.IsLocal space transaction := by
  have leaves (memory : BankedMemory) : transaction.leaves memory = memory := by
    rw [Bus.leaves, reads]
    cases view? memory <;> rfl
  constructor
  · intro memory
    rw [leaves]
  · intro memory bank other
    rw [leaves]
  · intro left right alike
    rw [Bus.answer?, Bus.answer?, reads, reads, same left right alike]
    cases view? right <;> rfl
  · intro left right alike
    rw [leaves, leaves]
    exact alike.contents

theorem isLocal_readByte (address : UInt32) (space : FunctionCode) :
    layout.IsLocal space (readByte address space) := by
  apply isLocal_of_view fun memory =>
    (memory.bank? space).bind (·[memory.offset address]?)
  · intro memory
    rw [readByte]
    split <;> rename_i found <;> rw [found]
  · intro left right alike
    rw [bank?_of_alike alike, offset_of_alike alike]

theorem isLocal_readRun (address : UInt32) (length : Nat)
    (space : FunctionCode) :
    layout.IsLocal space (readRun address length space) := by
  apply isLocal_of_view (·.run? address length space)
  · intro memory
    rw [readRun]
    split <;> rename_i found <;> rw [found]
  · intro left right alike
    exact run?_of_alike alike address length

/-! ### Writes -/

theorem wiring_pokeRun (memory : BankedMemory) (bank index : Nat)
    (bytes : List (Option UInt8)) :
    layout.wiring (memory.pokeRun bank index bytes) =
      layout.wiring memory := by
  induction bytes generalizing memory index with
  | nil => rfl
  | cons byte bytes kept =>
      cases byte with
      | none => exact kept memory (index + 1)
      | some byte => exact kept (memory.poke bank index byte) (index + 1)

theorem banks_pokeRun (memory : BankedMemory) (bank index : Nat)
    (bytes : List (Option UInt8)) (other : Nat) :
    (memory.pokeRun bank index bytes).banks[other]? =
      if bank = other then
        memory.banks[other]?.map (FlatMemory.overwrite.go · index bytes)
      else memory.banks[other]? := by
  induction bytes generalizing memory index with
  | nil =>
      rw [pokeRun]
      split
      · cases memory.banks[other]? <;> rfl
      · rfl
  | cons byte bytes written =>
      cases byte with
      | none => exact written memory (index + 1)
      | some byte =>
          rw [pokeRun, written, poke, Array.getElem?_modify]
          split
          · cases memory.banks[other]? <;> rfl
          · rfl

/-- The bank that a write to a run changes. -/
def writtenBank? (memory : BankedMemory) (address : UInt32) (length : Nat)
    (space : FunctionCode) : Option Nat :=
  match memory.bankOf.get space.code, memory.run? address length space with
  | some bank, some _ =>
      if memory.isWritable address length then some bank else none
  | _, _ => none

theorem writtenBank?_of_alike (alike : layout.Alike space left right)
    (address : UInt32) (length : Nat) :
    left.writtenBank? address length space =
      right.writtenBank? address length space := by
  rw [writtenBank?, writtenBank?, bankOf_of_alike alike,
    run?_of_alike alike, isWritable_of_alike alike]

theorem bankOf_of_writtenBank? {address : UInt32} {length bank : Nat}
    (found : memory.writtenBank? address length space = some bank) :
    memory.bankOf.get space.code = some bank := by
  rw [writtenBank?] at found
  split at found
  · rename_i wired _
    split at found
    · rw [wired, found]
    · cases found
  · cases found

theorem writeRun_apply (address : UInt32) (bytes : List (Option UInt8))
    (memory : BankedMemory) :
    writeRun address bytes space memory =
      match memory.writtenBank? address bytes.length space with
      | some bank => .ok () (memory.pokeRun bank (memory.offset address) bytes)
      | none => .error () memory := by
  have wired : memory.bankOf[space.code] = memory.bankOf.get space.code := rfl
  rw [writeRun, writtenBank?, wired]
  cases memory.bankOf.get space.code with
  | none => rfl
  | some bank =>
      cases memory.run? address bytes.length space with
      | none => rfl
      | some covered =>
          simp only
          split <;> rfl

theorem isLocal_writeRun (address : UInt32) (bytes : List (Option UInt8))
    (space : FunctionCode) :
    layout.IsLocal space (writeRun address bytes space) := by
  constructor
  · intro memory
    rw [Bus.leaves, writeRun_apply]
    cases memory.writtenBank? address bytes.length space with
    | none => rfl
    | some bank => exact wiring_pokeRun memory bank _ bytes
  · intro memory bank other
    rw [Bus.leaves, writeRun_apply]
    cases found : memory.writtenBank? address bytes.length space with
    | none => rfl
    | some written =>
        have wired := bankOf_of_writtenBank? found
        cases bank with
        | none => rfl
        | some bank =>
            have different : written ≠ bank := by
              rintro rfl
              exact other wired.symm
            show (memory.pokeRun written _ bytes).banks[bank]? =
              memory.banks[bank]?
            rw [banks_pokeRun, if_neg different]
  · intro left right alike
    rw [Bus.answer?, Bus.answer?, writeRun_apply, writeRun_apply,
      writtenBank?_of_alike alike]
    cases right.writtenBank? address bytes.length space <;> rfl
  · intro left right alike
    rw [Bus.leaves, Bus.leaves, writeRun_apply, writeRun_apply,
      writtenBank?_of_alike alike, offset_of_alike alike]
    cases found : right.writtenBank? address bytes.length space with
    | none => exact alike.contents
    | some bank =>
        have rightWired : right.bankOf[space.code] = some bank :=
          bankOf_of_writtenBank? found
        have leftWired : left.bankOf[space.code] = some bank := by
          rw [bankOf_of_alike alike]
          exact rightWired
        have contents : left.banks[bank]? = right.banks[bank]? := by
          have same := bank?_of_alike alike
          rw [bank?, bank?, leftWired, rightWired] at same
          exact same
        show (left.bankOf[space.code]).bind
            ((left.pokeRun bank (right.offset address) bytes).banks[·]?) =
          (right.bankOf[space.code]).bind
            ((right.pokeRun bank (right.offset address) bytes).banks[·]?)
        rw [leftWired, rightWired]
        simp only [Option.bind_some, banks_pokeRun, contents]

theorem isLocal_writeByte (address : UInt32) (value : UInt8)
    (space : FunctionCode) :
    layout.IsLocal space (writeByte address value space) :=
  isLocal_writeRun address [some value] space

/-! ### All accesses -/

theorem isLocal_readWord (address : UInt32) (space : FunctionCode) :
    layout.IsLocal space
      (Bus.readWordBytewise (readByte · space) address) := by
  apply (isLocal_readByte address space).bind
  intro high
  apply (isLocal_readByte (address + 1) space).bind
  intro low
  exact .pure _

theorem isLocal_writeWord (address : UInt32) (value : UInt16)
    (space : FunctionCode) :
    layout.IsLocal space
      (Bus.writeWordBytewise (writeByte · · space) address value) := by
  apply (isLocal_writeByte address _ space).bind
  intro _
  exact isLocal_writeByte (address + 1) _ space

def banking : Banking BankedMemory where
  toBankLayout := layout
  isLocal space access := by
    cases access with
    | readByte address => exact isLocal_readByte address space
    | readWord address => exact isLocal_readWord address space
    | readLong address =>
        apply (isLocal_readWord address space).bind
        intro high
        apply (isLocal_readWord (address + 2) space).bind
        intro low
        exact .pure _
    | writeByte address value => exact isLocal_writeByte address value space
    | writeWord address value => exact isLocal_writeWord address value space
    | writeLong address value =>
        apply (isLocal_writeWord address _ space).bind
        intro _
        exact isLocal_writeWord (address + 2) _ space
    | readRun address length => exact isLocal_readRun address length space
    | writeRun address bytes => exact isLocal_writeRun address bytes space
    | fetchWord address => exact isLocal_readWord address space

end BankedMemory

end M68k

import M68k.Execution
import M68k.Proofs.DecodedModes
import M68k.Proofs.FetchExecutions
import M68k.Proofs.LongIntegers

/-!
# The forms of multiplications and divisions

Multiplications and divisions come in the same two forms.  The word form takes a
word operand and one data register.  The long form takes a long operand and the
data registers that its extension word names: one for a product or dividend of
one long, or two for one of two longs.
-/

namespace M68k

/-! ## Places -/

/-- Where a multiplication finds its other factor and leaves the product, and
where a division finds the dividend and leaves quotient and remainder. -/
inductive ProductPlaces where
  /-- A long that comes from words. -/
  | word (target : Fin 8)
  /-- A long that comes from longs.  The second register is for remainders. -/
  | long (low high : Fin 8)
  /-- Two longs. -/
  | quad (low high : Fin 8)
deriving DecidableEq, Repr, Inhabited

namespace ProductPlaces

/-- The bits of factors, divisors, quotients and remainders. -/
def narrow : ProductPlaces → Nat
  | word _ => 16
  | long _ _ | quad _ _ => 32

/-- The bits of products and dividends. -/
def wide : ProductPlaces → Nat
  | word _ | long _ _ => 32
  | quad _ _ => 64

theorem narrow_pos (places : ProductPlaces) : 0 < places.narrow := by
  cases places <;> simp [narrow]

theorem wide_pos (places : ProductPlaces) : 0 < places.wide := by
  cases places <;> simp [wide]

/-- The register of a factor. -/
def low : ProductPlaces → Fin 8
  | word target => target
  | long low _ | quad low _ => low

/-- Whether every product of two factors fits. -/
def holdsProducts : ProductPlaces → Bool
  | long _ _ => false
  | word _ | quad _ _ => true

theorem wide_of_holdsProducts {places : ProductPlaces}
    (holds : places.holdsProducts = true) :
    places.wide = places.narrow + places.narrow := by
  cases places with
  | word target => rfl
  | quad low high => rfl
  | long low high => cases holds

/-- The number that a product or dividend is. -/
def number (places : ProductPlaces) (registers : Registers) : Nat :=
  let lowNumber := (registers.get (.data places.low)).toNat
  match places with
  | word _ | long _ _ => lowNumber
  | quad _ high => (registers.get (.data high)).toNat * 2 ^ 32 + lowNumber

/-- A number depends on data registers only. -/
theorem number_congr (places : ProductPlaces) {registers others : Registers}
    (same : registers.data = others.data) :
    places.number registers = places.number others := by
  cases places <;> simp only [number, low, Registers.get, same]

/-- The registers with a number in the place of a product.  The upper long is
written first. -/
def setNumber (places : ProductPlaces) (registers : Registers)
    (number : Nat) : Registers :=
  match places with
  | word low | long low _ => registers.set (.data low) (.ofNat number)
  | quad low high =>
      (registers.set (.data high) (.ofNat (number / 2 ^ 32))).set (.data low)
        (.ofNat number)

/-- Two different registers hold a number of two longs. -/
theorem number_setNumber_quad {low high : Fin 8} (apart : low ≠ high)
    (registers : Registers) {number : Nat} (bounded : number < 2 ^ 64) :
    (quad low high).number ((quad low high).setNumber registers number) =
      number := by
  have different : Register.data high ≠ .data low := by
    simpa using apart.symm
  simp only [ProductPlaces.number, setNumber, ProductPlaces.low,
    Registers.get_set_self, Registers.get_set_of_ne _ _ different,
    UInt32.toNat_ofNat']
  omega

/-- The registers with a quotient and a remainder, as far as they fit.  Words
share a register; of longs, the remainder is written first. -/
def setQuotient (places : ProductPlaces) (registers : Registers)
    (quotient remainder : Int) : Registers :=
  match places with
  | word target =>
      registers.set (.data target)
        (.ofInt (remainder % 2 ^ 16 * 2 ^ 16 + quotient % 2 ^ 16))
  | long low high | quad low high =>
      (registers.set (.data high) (.ofInt remainder)).set (.data low)
        (.ofInt quotient)

end ProductPlaces

/-- The places that the extension word of a long form names. -/
def LongOperands.places (extension : LongOperands) : ProductPlaces :=
  if extension.isQuad then .quad extension.low extension.high
  else .long extension.low extension.high

/-- The fetched operand of a multiplication or division. -/
structure ProductOperand where
  reading : Signedness
  places : ProductPlaces
  value : UInt32
deriving DecidableEq, Repr

namespace ProductOperand

/-- The multiplier or divisor. -/
def integer (operand : ProductOperand) : Int :=
  operand.reading.read operand.places.narrow operand.value.toNat

def multiplicand (operand : ProductOperand) (registers : Registers) : Int :=
  operand.reading.read operand.places.narrow
    (registers.get (.data operand.places.low)).toNat

def product (operand : ProductOperand) (registers : Registers) : Int :=
  operand.multiplicand registers * operand.integer

def dividend (operand : ProductOperand) (registers : Registers) : Int :=
  operand.reading.read operand.places.wide (operand.places.number registers)

end ProductOperand

namespace LongOperands

/-- The operand of a long form. -/
def operand (extension : LongOperands) (value : UInt32) : ProductOperand where
  reading := extension.signedness
  places := extension.places
  value

@[simp]
theorem narrow_places (extension : LongOperands) :
    extension.places.narrow = 32 := by
  rw [places]
  split <;> rfl

theorem operand_of_quad {extension : LongOperands}
    (quad : extension.isQuad = true) (value : UInt32) :
    extension.operand value =
      ⟨extension.signedness, .quad extension.low extension.high, value⟩ := by
  rw [operand, places, quad]
  rfl

theorem operand_of_long {extension : LongOperands}
    (long : extension.isQuad = false) (value : UInt32) :
    extension.operand value =
      ⟨extension.signedness, .long extension.low extension.high, value⟩ := by
  rw [operand, places, long]
  rfl

theorem setQuotient_places (extension : LongOperands) (registers : Registers)
    (quotient remainder : Int) :
    extension.places.setQuotient registers quotient remainder =
      (registers.set (.data extension.high) (.ofInt remainder)).set
        (.data extension.low) (.ofInt quotient) := by
  rw [places]
  split <;> rfl

@[simp]
theorem low_places (extension : LongOperands) :
    extension.places.low = extension.low := by
  rw [places]
  split <;> rfl

end LongOperands

/-! ## Instructions -/

namespace Signedness

/-- The operation of the word form of multiplications. -/
def multiplication : Signedness → DataOperation
  | unsigned => .mulu
  | signed => .muls

/-- The operation of the word form of divisions. -/
def division : Signedness → DataOperation
  | unsigned => .divu
  | signed => .divs

end Signedness

/-- A form of multiplications and divisions. -/
inductive ProductForm where
  | word (reading : Signedness) (mode : AddressingMode) (target : Fin 8)
  | long (mode : AddressingMode)
deriving DecidableEq, Repr

namespace ProductForm

def multiplication : ProductForm → Instruction
  | word reading mode target =>
      .data ⟨reading.multiplication, .word, .operand mode,
        .dataRegister target⟩
  | long mode => .mull mode

def division : ProductForm → Instruction
  | word reading mode target =>
      .data ⟨reading.division, .word, .operand mode, .dataRegister target⟩
  | long mode => .divl mode

/-- Fetches the operand.  The extension word of the long form tells its reading
and its places. -/
def fetch {σ : Type} [Memory σ] : ProductForm → Execution σ ProductOperand
  | word reading mode target => do
      let (_, value) ← mode.fetch .word
      return ⟨reading, .word target, value⟩
  | long mode => do
      let (extension, value) ← Execution.fetchLongOperands mode
      return extension.operand value

/-- Fetching changes no data register. -/
theorem locates_fetch {σ : Type} [Memory σ] (form : ProductForm) :
    Execution.Locates (σ := σ) form.fetch := by
  cases form with
  | word reading mode target =>
      exact (Execution.Locates.fetchOperand mode .word).bind fun _ => .pure _
  | long mode =>
      refine .bind ?_ fun _ => .pure _
      exact Execution.Fetches.fetchWord.locates.bind fun _ =>
        (Execution.Locates.fetchOperand mode .long).bind fun _ => .pure _

section

variable {σ : Type} [Memory σ] {form : ProductForm}
  {outcome : ProductOperand → Machine σ →
    EStateM.Result Fault (Machine σ) Unit → Prop}
  {machine : Machine σ}

/-- An execution fails where it cannot fetch the operand of a form, and
otherwise ends with an outcome of the fetched operand. -/
def Yields (form : ProductForm) (execution : Execution σ Unit)
    (outcome : ProductOperand → Machine σ →
      EStateM.Result Fault (Machine σ) Unit → Prop)
    (machine : Machine σ) : Prop :=
  match form.fetch machine with
  | .error fault left => execution machine = .error fault left
  | .ok operand fetched =>
      fetched.registers.data = machine.registers.data ∧
        fetched.status = machine.status ∧
          outcome operand fetched (execution machine)

theorem Yields.congr {execution other : Execution σ Unit}
    (yields : form.Yields execution outcome machine)
    (same : other machine = execution machine) :
    form.Yields other outcome machine := by
  rw [Yields, same]
  exact yields

theorem Yields.mono
    {other : ProductOperand → Machine σ →
      EStateM.Result Fault (Machine σ) Unit → Prop}
    {execution : Execution σ Unit}
    (yields : form.Yields execution outcome machine)
    (implies : ∀ operand fetched result,
      outcome operand fetched result → other operand fetched result) :
    form.Yields execution other machine := by
  rw [Yields] at yields ⊢
  cases run : form.fetch machine with
  | error fault left =>
      rw [run] at yields
      exact yields
  | ok operand fetched =>
      rw [run] at yields
      exact ⟨yields.1, yields.2.1, implies _ _ _ yields.2.2⟩

theorem yields_word {operation : DataOperation} {reading : Signedness}
    {mode : AddressingMode} {target : Fin 8}
    (ends : ∀ value fetched,
      (Source.operand mode).fetch .word machine = .ok value fetched →
        outcome ⟨reading, .word target, value⟩ fetched
          (DataInstruction.execute
            ⟨operation, .word, .operand mode, .dataRegister target⟩
            machine)) :
    (word reading mode target).Yields
      (DataInstruction.execute
        ⟨operation, .word, .operand mode, .dataRegister target⟩)
      outcome machine := by
  have located := locates_fetch (word reading mode target) machine
  simp only [Yields, fetch, Execution.bind_apply, Execution.pure_apply] at *
  cases run : mode.fetch .word machine with
  | error fault left =>
      simp only [DataInstruction.execute, Source.fetch, Execution.bind_apply,
        run]
  | ok found fetched =>
      rw [run] at located
      refine ⟨located.data, located.status, ends _ _ ?_⟩
      simp only [Source.fetch, Execution.bind_apply, Execution.pure_apply, run]

theorem yields_long {mode : AddressingMode}
    {next : LongOperands × UInt32 → Execution σ Unit}
    (ends : ∀ (extension : LongOperands) (value : UInt32) fetched,
      outcome (extension.operand value) fetched
        (next (extension, value) fetched)) :
    (long mode).Yields (Execution.fetchLongOperands mode >>= next) outcome
      machine := by
  have located := locates_fetch (long mode) machine
  simp only [Yields, fetch, Execution.bind_apply, Execution.pure_apply] at *
  cases run : Execution.fetchLongOperands mode machine with
  | error fault left => rfl
  | ok found fetched =>
      rw [run] at located
      exact ⟨located.data, located.status, ends _ _ _⟩

end

end ProductForm

namespace Instruction

def isMultiplication : Instruction → Bool
  | data instruction =>
      instruction.operation == .mulu || instruction.operation == .muls
  | mull _ => true
  | _ => false

def isDivision : Instruction → Bool
  | data instruction =>
      instruction.operation == .divu || instruction.operation == .divs
  | divl _ => true
  | _ => false

/-- The word form of an operation between a word and a long. -/
theorem word_of_isFormed {operation : DataOperation}
    {size : OperandSize} {source : Source} {destination : Destination}
    (product : operation ∈ [DataOperation.mulu, .muls, .divu, .divs])
    (formed : DataInstruction.IsFormed
      ⟨operation, size, source, destination⟩) :
    ∃ mode target, size = .word ∧ source = .operand mode ∧
      destination = .dataRegister target := by
  have apart {operations : List DataOperation}
      (operates : operation ∈ operations)
      (others : ∀ other ∈ operations,
        other ∉ [DataOperation.mulu, .muls, .divu, .divs]) : False :=
    others operation operates product
  cases formed with
  | product target operates readable => exact ⟨_, target, rfl, rfl, rfl⟩
  | immediate operates | unary operates | unaryByte operates
  | storeStatus operates | quickToAddress number operates | quick operates
  | toMemory number operates | toRegister number operates
  | onAddress number operates =>
      exact (apart operates (by decide)).elim
  | extendedRegisters source destination operates
  | extendedMemory source destination operates =>
      obtain ⟨operates, -⟩ | ⟨operates, -⟩ := operates
      · exact (apart operates (by decide)).elim
      · exact (apart operates (by decide)).elim
  | inRegister number operates =>
      have operates := List.mem_map_of_mem (f := Prod.fst) operates
      exact (apart operates (by decide)).elim
  | _ => simp at product

theorem exists_multiplication {word : UInt16} {instruction : Instruction}
    (decoded : decode? word = some instruction)
    (multiplies : instruction.isMultiplication = true) :
    ∃ form : ProductForm, instruction = form.multiplication := by
  have formed := isFormed_of_decode? decoded
  cases instruction with
  | mull mode => exact ⟨.long mode, rfl⟩
  | data instruction =>
      obtain ⟨operation, size, source, destination⟩ := instruction
      simp only [isMultiplication, Bool.or_eq_true, beq_iff_eq] at multiplies
      obtain rfl | rfl := multiplies
      · obtain ⟨mode, target, rfl, rfl, rfl⟩ :=
          word_of_isFormed (by decide) formed
        exact ⟨.word .unsigned mode target, rfl⟩
      · obtain ⟨mode, target, rfl, rfl, rfl⟩ :=
          word_of_isFormed (by decide) formed
        exact ⟨.word .signed mode target, rfl⟩
  | _ => cases multiplies

theorem exists_division {word : UInt16} {instruction : Instruction}
    (decoded : decode? word = some instruction)
    (divides : instruction.isDivision = true) :
    ∃ form : ProductForm, instruction = form.division := by
  have formed := isFormed_of_decode? decoded
  cases instruction with
  | divl mode => exact ⟨.long mode, rfl⟩
  | data instruction =>
      obtain ⟨operation, size, source, destination⟩ := instruction
      simp only [isDivision, Bool.or_eq_true, beq_iff_eq] at divides
      obtain rfl | rfl := divides
      · obtain ⟨mode, target, rfl, rfl, rfl⟩ :=
          word_of_isFormed (by decide) formed
        exact ⟨.word .unsigned mode target, rfl⟩
      · obtain ⟨mode, target, rfl, rfl, rfl⟩ :=
          word_of_isFormed (by decide) formed
        exact ⟨.word .signed mode target, rfl⟩
  | _ => cases divides

end Instruction

end M68k

/-!
# Processor models

The five members of the family, ordered by age.  Instructions, control
registers and status bits say from which model on they exist, so most questions
about a model are comparisons.
-/

namespace M68k

inductive Model where
  | mc68000
  | mc68010
  | mc68020
  | mc68030
  | mc68040
deriving DecidableEq, Repr, Inhabited

namespace Model

/-- Every model, oldest first. -/
def all : List Model :=
  [mc68000, mc68010, mc68020, mc68030, mc68040]

/-- The place of a model in the family, counted from the oldest. -/
def generation : Model → Nat
  | mc68000 => 0
  | mc68010 => 1
  | mc68020 => 2
  | mc68030 => 3
  | mc68040 => 4

instance : LE Model where
  le older newer := older.generation ≤ newer.generation

instance : LT Model where
  lt older newer := older.generation < newer.generation

instance (older newer : Model) : Decidable (older ≤ newer) :=
  inferInstanceAs (Decidable (older.generation ≤ newer.generation))

instance (older newer : Model) : Decidable (older < newer) :=
  inferInstanceAs (Decidable (older.generation < newer.generation))

/-- Whether the supervisor has a master stack beside the interrupt stack. -/
def hasMasterStack (model : Model) : Bool :=
  mc68020 ≤ model

/-- Whether word and long data accesses have to be at even addresses. -/
def needsAlignedData (model : Model) : Bool :=
  model < mc68020

/-- Whether indexed operands have scales and full extension words. -/
def hasFullExtensions (model : Model) : Bool :=
  mc68020 ≤ model

def hasLongBranches (model : Model) : Bool :=
  mc68020 ≤ model

/-- Whether a predecremented register that is in its own register list is stored
with its final value, and not with its initial one. -/
def storesFinalPointer (model : Model) : Bool :=
  mc68020 ≤ model

/-- The bits of the status word that exist.  The second trace bit and the
master bit come with the master stack. -/
def statusMask (model : Model) : UInt16 :=
  if model.hasMasterStack then 0xF71F else 0xA71F

end Model

end M68k

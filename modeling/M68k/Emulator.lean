import M68k.Machine.Step

/-!
# The emulator

A machine with a count of the instructions it has retired since its last reset,
and a limit on them.  Every step of a running machine retires one instruction,
also one that ended with an exception.
-/

namespace M68k

/-- A machine under a limit of instructions. -/
structure Emulator (σ : Type) where
  machine : Machine σ
  limit : Option UInt64 := none
  /-- Instructions retired since the last reset. -/
  retired : UInt64 := 0

namespace Emulator

variable {σ : Type}

/-- An emulator of a model that has never been reset. -/
def new (model : Model) (memory : σ) (limit : Option UInt64 := none) :
    Emulator σ where
  machine := { model, memory }
  limit

variable (emulator : Emulator σ)

/-- Whether no more instructions are allowed. -/
def limitReached : Bool :=
  emulator.limit.any (· ≤ emulator.retired)

/-- Whether a step would execute an instruction. -/
def canStep : Bool :=
  emulator.machine.condition == .running && !emulator.limitReached

def withMachine (machine : Machine σ) : Emulator σ :=
  { emulator with machine }

variable [Memory σ]

/-- Executes one instruction, if the emulator can, and tells whether it can
execute another. -/
def step : Bool × Emulator σ :=
  if emulator.canStep then
    let stepped : Emulator σ :=
      { emulator with
        machine := emulator.machine.step
        retired := emulator.retired + 1 }
    (stepped.canStep, stepped)
  else (false, emulator)

/-- The emulator after a number of steps, or fewer if it cannot go on. -/
def runSteps (emulator : Emulator σ) : Nat → Emulator σ
  | 0 => emulator
  | count + 1 =>
      let (more, stepped) := emulator.step
      if more then stepped.runSteps count else stepped

/-- The instructions that the limit and the width of the count leave. -/
def headroom : Nat :=
  (emulator.limit.getD 0xFFFFFFFFFFFFFFFF).toNat - emulator.retired.toNat

/-- Steps until the emulator cannot go on, and gives the number of instructions
executed. -/
def run : UInt64 × Emulator σ :=
  let final := emulator.runSteps emulator.headroom
  (final.retired - emulator.retired, final)

/-- Presents an interrupt and tells whether it was taken. -/
def interrupt (level : UInt8) : Bool × Emulator σ :=
  let (taken, machine) := emulator.machine.interrupt level
  (taken, emulator.withMachine machine)

/-- Resets the machine and the count. -/
def reset : Emulator σ :=
  { emulator with machine := emulator.machine.reset, retired := 0 }

end Emulator

end M68k

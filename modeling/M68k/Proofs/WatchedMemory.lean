import M68k.Memory.Watched
import M68k.Proofs.StepPhases

/-!
# Machines with a watched memory

A memory that is watched answers as it does otherwise, and a machine wired to it
can be compared with the machine itself.
-/

namespace M68k

namespace WatchedMemory

variable {σ : Type} [Memory σ]

theorem ask_eq_watch (space : FunctionCode) (access : Access) :
    (access.ask space : Bus (WatchedMemory σ) access.Answer) =
      watch space access := by
  cases access <;> rfl

theorem answer?_watch (space : FunctionCode) (access : Access)
    (watched : WatchedMemory σ) :
    (watch space access).answer? watched =
      (access.ask space).answer? watched.memory := by
  simp only [Bus.answer?, watch]
  cases access.ask space watched.memory <;> rfl

theorem leaves_watch (space : FunctionCode) (access : Access)
    (watched : WatchedMemory σ) :
    (watch space access).leaves watched =
      ⟨(access.ask space).leaves watched.memory,
        .access space access :: watched.requests⟩ := by
  simp only [Bus.leaves, watch]
  cases access.ask space watched.memory <;> rfl

end WatchedMemory

namespace Machine

variable {σ τ : Type}

/-- The machine wired to another memory. -/
def withMemory (machine : Machine σ) (memory : τ) : Machine τ :=
  { registers := machine.registers
    status := machine.status
    model := machine.model
    condition := machine.condition
    opcode := machine.opcode
    memory
    handler := machine.handler
    visits := machine.visits }

theorem performAll_withMemory (machine : Machine σ) (memory : τ)
    (actions : List HostAction) :
    actions.foldl perform (machine.withMemory memory) =
      (actions.foldl perform machine).withMemory memory := by
  induction actions generalizing machine with
  | nil => rfl
  | cons action actions same =>
      have first : (machine.withMemory memory).perform action =
          (machine.perform action).withMemory memory := by
        cases action <;> rfl
      rw [List.foldl_cons, List.foldl_cons, first]
      exact same (machine.perform action)

/-- A handler is asked alike whatever the memory is. -/
theorem askHandler_withMemory (machine : Machine σ) (memory : τ)
    (vector : Fin 8) :
    (machine.withMemory memory).askHandler vector =
      ((machine.askHandler vector).1,
        (machine.askHandler vector).2.withMemory memory) := by
  rw [askHandler, askHandler]
  cases attached : machine.handler with
  | none =>
      have still : (machine.withMemory memory).handler = none := attached
      rw [still]
  | some handler =>
      have still : (machine.withMemory memory).handler = some handler :=
        attached
      have asked :
          ((machine.withMemory memory).withHandler none).recordVisit vector =
            ((machine.withHandler none).recordVisit vector).withMemory
              memory := rfl
      rw [still]
      simp only [asked, performAll_withMemory]
      generalize handler.actions.foldl perform
        ((machine.withHandler none).recordVisit vector) = left
      have kept : (left.withMemory memory).handler = left.handler := rfl
      rw [kept]
      split
      · rfl
      · rfl

/-- A handler does nothing to the memory. -/
theorem memory_askHandler (machine : Machine σ) (vector : Fin 8) :
    (machine.askHandler vector).2.memory = machine.memory := by
  have same := machine.askHandler_withMemory machine.memory vector
  exact congrArg (fun result => result.2.memory) same

/-- The machine with its memory watched from now on. -/
def watched (machine : Machine σ) : Machine (WatchedMemory σ) :=
  machine.withMemory ⟨machine.memory, []⟩

/-- The machine with its memory watched no longer. -/
def unwatched (machine : Machine (WatchedMemory σ)) : Machine σ :=
  machine.withMemory machine.memory.memory

end Machine

/-- A watched access is the access itself, and one more request. -/
theorem agree_watched {σ : Type} [Memory σ]
    {relation : Machine (WatchedMemory σ) → Machine σ → Prop}
    {left : Machine (WatchedMemory σ)} {space : FunctionCode}
    {access : Access}
    (related : ∀ memory,
      relation
        { left with
          memory := ⟨memory, .access space access :: left.memory.requests⟩ }
        { left.unwatched with memory }) :
    Agree relation (Execution.onBus (access.ask space) left)
      (Execution.onBus (access.ask space) left.unwatched) := by
  rw [WatchedMemory.ask_eq_watch]
  refine .onBus (WatchedMemory.answer?_watch space access left.memory) ?_
  rw [WatchedMemory.leaves_watch]
  exact related _

end M68k

import M68k.Operand
import M68k.Proofs.BusPhases

/-!
# Executions that serve bus phases

An execution on a watched memory performs a list of phases if its requests serve
them.  Performing is closed under sequencing, so the phases of an instruction
are those of its parts in their order.
-/

namespace M68k

variable {σ α β : Type}

/-- What the spaces and the extension words of an instruction depend on. -/
structure BusSetting where
  supervisor : Bool
  model : Model

namespace Machine

/-- A machine is in the mode and of the model of a setting. -/
structure Within {τ : Type} (machine : Machine τ) (setting : BusSetting) :
    Prop where
  supervisor : machine.isSupervisor = setting.supervisor
  model : machine.model = setting.model

/-- What has been asked between two machines serves some phases. -/
def Served (setting : BusSetting) (phases : List BusPhase)
    (start left : Machine (WatchedMemory σ)) : Prop :=
  ∃ requests,
    left.memory.requests = requests.reverse ++ start.memory.requests ∧
      BusPhase.Follows setting.supervisor phases start.registers.pc requests
        left.registers.pc

/-- What has been asked between two machines serves some phases up to a
point. -/
def Begun (setting : BusSetting) (phases : List BusPhase)
    (start left : Machine (WatchedMemory σ)) : Prop :=
  ∃ requests,
    left.memory.requests = requests.reverse ++ start.memory.requests ∧
      BusPhase.Begins setting.supervisor phases start.registers.pc requests

variable {setting : BusSetting} {phases first second : List BusPhase}
variable {start middle left : Machine (WatchedMemory σ)}

theorem Served.refl (quiet : left.memory.requests = start.memory.requests)
    (still : left.registers.pc = start.registers.pc) :
    Served setting [] start left := by
  refine ⟨[], quiet, ?_⟩
  rw [still]
  exact .nil _

theorem Served.trans (begun : Served setting first start middle)
    (served : Served setting second middle left) :
    Served setting (first ++ second) start left := by
  obtain ⟨requests, asked, follows⟩ := begun
  obtain ⟨rest, askedLater, continued⟩ := served
  refine ⟨requests ++ rest, ?_, follows.append continued⟩
  rw [askedLater, asked, List.reverse_append, List.append_assoc]

theorem Served.trans_begun (served : Served setting first start middle)
    (begun : Begun setting second middle left) :
    Begun setting (first ++ second) start left := by
  obtain ⟨requests, asked, follows⟩ := served
  obtain ⟨rest, askedLater, begins⟩ := begun
  refine ⟨requests ++ rest, ?_, follows.append_begins begins⟩
  rw [askedLater, asked, List.reverse_append, List.append_assoc]

theorem Begun.append (begun : Begun setting first start left)
    (second : List BusPhase) :
    Begun setting (first ++ second) start left := by
  obtain ⟨requests, asked, begins⟩ := begun
  exact ⟨requests, asked, begins.append second⟩

theorem Begun.refl (quiet : left.memory.requests = start.memory.requests) :
    Begun setting phases start left :=
  ⟨[], quiet, BusPhase.begins_nil _ _ _⟩

end Machine

/-! ## Judgements -/

/-- An execution stays in the setting and serves some phases, and ends with an
accepted value; or a fault that restarts the instruction cuts it short. -/
def Performed (setting : BusSetting) (phases : List BusPhase)
    (accepts : α → Prop) (start : Machine (WatchedMemory σ)) :
    EStateM.Result Fault (Machine (WatchedMemory σ)) α → Prop
  | .ok value left =>
      accepts value ∧ left.Within setting ∧
        Machine.Served setting phases start left
  | .error fault left =>
      fault.restartsInstruction = true ∧
        Machine.Begun setting phases start left

def Performs (setting : BusSetting) (phases : List BusPhase)
    (accepts : α → Prop) (execution : Execution (WatchedMemory σ) α) :
    Prop :=
  ∀ start, start.Within setting →
    Performed setting phases accepts start (execution start)

/-- The end of an instruction serves the last phases, and may leave the setting
after that.  Also a trap comes after all phases. -/
def Closed (setting : BusSetting) (phases : List BusPhase)
    (start : Machine (WatchedMemory σ)) :
    EStateM.Result Fault (Machine (WatchedMemory σ)) α → Prop
  | .ok _ left => Machine.Served setting phases start left
  | .error fault left =>
      Machine.Begun setting phases start left ∧
        (fault.restartsInstruction = false →
          Machine.Served setting phases start left)

def Closes (setting : BusSetting) (phases : List BusPhase)
    (execution : Execution (WatchedMemory σ) α) : Prop :=
  ∀ start, start.Within setting → Closed setting phases start (execution start)

namespace Performs

variable {setting : BusSetting} {phases first second : List BusPhase}
variable {accepts : α → Prop} {final : β → Prop}

theorem closes {execution : Execution (WatchedMemory σ) α}
    (performs : Performs setting phases accepts execution) :
    Closes setting phases execution := by
  intro start within
  have performed := performs start within
  generalize execution start = result at performed
  cases result with
  | ok value left => exact performed.2.2
  | error fault left =>
      refine ⟨performed.2, ?_⟩
      intro trap
      rw [performed.1] at trap
      cases trap

theorem bind {execution : Execution (WatchedMemory σ) α}
    {next : α → Execution (WatchedMemory σ) β}
    (performs : Performs setting first accepts execution)
    (goesOn : ∀ value, accepts value →
      Performs setting second final (next value)) :
    Performs setting (first ++ second) final (execution >>= next) := by
  intro start within
  have performed := performs start within
  rw [Execution.bind_apply]
  generalize execution start = result at performed
  cases result with
  | error fault left => exact ⟨performed.1, performed.2.append second⟩
  | ok value middle =>
      obtain ⟨accepted, stays, served⟩ := performed
      have later := goesOn value accepted middle stays
      simp only
      generalize next value middle = result at later
      cases result with
      | ok value left =>
          exact ⟨later.1, later.2.1, served.trans later.2.2⟩
      | error fault left => exact ⟨later.1, served.trans_begun later.2⟩

theorem bind_closes {execution : Execution (WatchedMemory σ) α}
    {next : α → Execution (WatchedMemory σ) β}
    (performs : Performs setting first accepts execution)
    (goesOn : ∀ value, accepts value → Closes setting second (next value)) :
    Closes setting (first ++ second) (execution >>= next) := by
  intro start within
  have performed := performs start within
  rw [Execution.bind_apply]
  generalize execution start = result at performed
  cases result with
  | error fault left =>
      refine ⟨performed.2.append second, ?_⟩
      intro trap
      rw [performed.1] at trap
      cases trap
  | ok value middle =>
      obtain ⟨accepted, stays, served⟩ := performed
      have later := goesOn value accepted middle stays
      simp only
      generalize next value middle = result at later
      cases result with
      | ok value left => exact served.trans later
      | error fault left =>
          exact ⟨served.trans_begun later.1,
            fun trap => served.trans (later.2 trap)⟩

/-- What follows asks for nothing. -/
theorem bind_quiet {execution : Execution (WatchedMemory σ) α}
    {next : α → Execution (WatchedMemory σ) β}
    (performs : Performs setting phases accepts execution)
    (goesOn : ∀ value, accepts value →
      Performs setting [] final (next value)) :
    Performs setting phases final (execution >>= next) := by
  have performed := performs.bind goesOn
  rw [List.append_nil] at performed
  exact performed

theorem bind_quiet_closes {execution : Execution (WatchedMemory σ) α}
    {next : α → Execution (WatchedMemory σ) β}
    (performs : Performs setting phases accepts execution)
    (goesOn : ∀ value, accepts value → Closes setting [] (next value)) :
    Closes setting phases (execution >>= next) := by
  have closed := performs.bind_closes goesOn
  rw [List.append_nil] at closed
  exact closed

theorem pure {value : α} (accepted : accepts value) :
    Performs setting [] accepts
      (Pure.pure value : Execution (WatchedMemory σ) α) :=
  fun _ within => ⟨accepted, within, .refl rfl rfl⟩

theorem throw {fault : Fault} (restarts : fault.restartsInstruction = true) :
    Performs setting phases accepts
      (throw fault : Execution (WatchedMemory σ) α) :=
  fun _ _ => ⟨restarts, .refl rfl⟩

theorem ite {condition : Prop} [Decidable condition]
    {execution otherwise : Execution (WatchedMemory σ) α}
    (holds : condition → Performs setting phases accepts execution)
    (fails : ¬condition → Performs setting phases accepts otherwise) :
    Performs setting phases accepts
      (if condition then execution else otherwise) := by
  split
  · exact holds ‹_›
  · exact fails ‹_›

/-- A check that ends with a fault if a condition holds, and what follows. -/
theorem throwIf {condition : Prop} [Decidable condition] {fault : Fault}
    {next : Unit → Execution (WatchedMemory σ) α}
    (restarts : fault.restartsInstruction = true)
    (goesOn : ¬condition → Performs setting phases accepts (next ())) :
    Performs setting phases accepts
      (if condition then MonadExcept.throw fault >>= next else next ()) := by
  apply ite
  · intro _ start _
    exact ⟨restarts, .refl rfl⟩
  · exact goesOn

theorem observe {view : Machine (WatchedMemory σ) → α}
    (accepted : ∀ start : Machine (WatchedMemory σ), start.Within setting →
      accepts (view start)) :
    Performs setting [] accepts (Execution.observe view) :=
  fun start within => ⟨accepted start within, within, .refl rfl rfl⟩

theorem update {change : Machine (WatchedMemory σ) →
      Machine (WatchedMemory σ)}
    (kept : ∀ start : Machine (WatchedMemory σ), start.Within setting →
      (change start).Within setting)
    (quiet : ∀ start, (change start).memory = start.memory)
    (still : ∀ start, (change start).registers.pc = start.registers.pc) :
    Performs setting [] (fun _ => True) (Execution.update change) := by
  intro start within
  refine ⟨trivial, kept start within, ?_⟩
  exact .refl (congrArg _ (quiet start)) (still start)

/-- Phases can be replaced by others that the same requests serve. -/
theorem weaken {execution : Execution (WatchedMemory σ) α}
    (performs : Performs setting first accepts execution)
    (serves : ∀ pc requests after,
      BusPhase.Follows setting.supervisor first pc requests after →
        BusPhase.Follows setting.supervisor second pc requests after) :
    Performs setting second accepts execution := by
  intro start within
  have performed := performs start within
  generalize execution start = result at performed
  cases result with
  | ok value left =>
      obtain ⟨accepted, stays, requests, asked, follows⟩ := performed
      exact ⟨accepted, stays, requests, asked, serves _ _ _ follows⟩
  | error fault left =>
      obtain ⟨restarts, requests, asked, rest, after, follows⟩ := performed
      exact ⟨restarts, requests, asked, rest, after, serves _ _ _ follows⟩

end Performs

namespace Closes

variable {setting : BusSetting} {phases : List BusPhase}

theorem pure {value : α} :
    Closes setting []
      (Pure.pure value : Execution (WatchedMemory σ) α) :=
  fun _ _ => .refl rfl rfl

/-- Any fault may end the instruction when all has been asked for. -/
theorem throw {fault : Fault} :
    Closes setting []
      (throw fault : Execution (WatchedMemory σ) α) :=
  fun _ _ => ⟨.refl rfl, fun _ => .refl rfl rfl⟩

theorem ite {condition : Prop} [Decidable condition]
    {execution otherwise : Execution (WatchedMemory σ) α}
    (holds : condition → Closes setting phases execution)
    (fails : ¬condition → Closes setting phases otherwise) :
    Closes setting phases (if condition then execution else otherwise) := by
  split
  · exact holds ‹_›
  · exact fails ‹_›

theorem bind_observe {view : Machine (WatchedMemory σ) → α}
    {next : α → Execution (WatchedMemory σ) β}
    (goesOn : ∀ value, Closes setting phases (next value)) :
    Closes setting phases (Execution.observe view >>= next) :=
  fun start within => goesOn (view start) start within

theorem update {change : Machine (WatchedMemory σ) →
      Machine (WatchedMemory σ)}
    (quiet : ∀ start, (change start).memory = start.memory)
    (still : ∀ start, (change start).registers.pc = start.registers.pc) :
    Closes setting [] (Execution.update change) :=
  fun start _ => .refl (congrArg _ (quiet start)) (still start)

end Closes

end M68k

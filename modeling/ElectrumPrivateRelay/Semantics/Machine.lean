import Mathlib.Logic.Basic

/-! Machines driven by an arbitrary schedule.

A schedule is a list of actions. An action that is not enabled in the current
state has no successor, so every interleaving of the parties of a machine is
one of its schedules, and what holds along all schedules holds for all
interleavings.
-/

set_option autoImplicit false

namespace Semantics

structure Machine (State Action : Type) where
  step : State → Action → Option State

namespace Machine

variable {State Action : Type} (machine : Machine State Action)

def run (state : State) : List Action → Option State
  | [] => some state
  | action :: rest => (machine.step state action).bind fun next => run next rest

theorem run_cons {state final : State} {action : Action} {rest : List Action} :
    machine.run state (action :: rest) = some final ↔
      ∃ next, machine.step state action = some next ∧ machine.run next rest = some final := by
  simp only [run, Option.bind_eq_some_iff]

theorem run_snoc {state middle final : State} {actions : List Action} {action : Action}
    (execution : machine.run state actions = some middle) (taken : machine.step middle action = some final) :
    machine.run state (actions ++ [action]) = some final := by
  induction actions generalizing state with
  | nil =>
    cases execution
    exact (machine.run_cons).mpr ⟨final, taken, rfl⟩
  | cons first rest ih =>
    obtain ⟨next, before, after⟩ := (machine.run_cons).mp execution
    exact (machine.run_cons).mpr ⟨next, before, ih after⟩

theorem run_preserves {motive : State → Prop}
    (preserved : ∀ state action next, motive state →
      machine.step state action = some next → motive next)
    {state final : State} {actions : List Action} (holds : motive state)
    (execution : machine.run state actions = some final) : motive final := by
  induction actions generalizing state with
  | nil =>
    cases execution
    exact holds
  | cons action rest ih =>
    obtain ⟨next, taken, after⟩ := (machine.run_cons).mp execution
    exact ih (preserved state action next holds taken) after

/-- A schedule each of whose steps meets a condition on the state before it. -/
inductive RunsWhere (allowed : State → Action → Prop) : State → List Action → State → Prop where
  | nil {state : State} : RunsWhere allowed state [] state
  | cons {state next final : State} {action : Action} {rest : List Action} :
      allowed state action → machine.step state action = some next →
      RunsWhere allowed next rest final → RunsWhere allowed state (action :: rest) final

theorem RunsWhere.run {machine : Machine State Action} {allowed : State → Action → Prop}
    {state final : State} {actions : List Action}
    (execution : machine.RunsWhere allowed state actions final) :
    machine.run state actions = some final := by
  induction execution with
  | nil => rfl
  | cons _ taken _ ih => exact (machine.run_cons).mpr ⟨_, taken, ih⟩

theorem RunsWhere.of_forall {machine : Machine State Action} {allowed : Action → Prop}
    {state final : State} {actions : List Action} (condition : ∀ action ∈ actions, allowed action)
    (execution : machine.run state actions = some final) :
    machine.RunsWhere (fun _ => allowed) state actions final := by
  induction actions generalizing state with
  | nil =>
    cases execution
    exact .nil
  | cons action rest ih =>
    obtain ⟨next, taken, after⟩ := (machine.run_cons).mp execution
    have others : ∀ action ∈ rest, allowed action :=
      fun other member => condition other (List.mem_cons_of_mem action member)
    exact .cons (condition action (by simp)) taken (ih others after)

theorem RunsWhere.preserves {machine : Machine State Action} {allowed : State → Action → Prop}
    {motive : State → Prop}
    (preserved : ∀ state action next, motive state → allowed state action →
      machine.step state action = some next → motive next)
    {state final : State} {actions : List Action} (holds : motive state)
    (execution : machine.RunsWhere allowed state actions final) : motive final := by
  induction execution with
  | nil => exact holds
  | cons condition taken _ ih => exact ih (preserved _ _ _ holds condition taken)

theorem RunsWhere.preserves_history {machine : Machine State Action} {allowed : State → Action → Prop}
    {motive : List Action → State → Prop}
    (preserved : ∀ past state action next, motive past state → allowed state action →
      machine.step state action = some next → motive (past ++ [action]) next)
    {past : List Action} {state final : State} {actions : List Action} (holds : motive past state)
    (execution : machine.RunsWhere allowed state actions final) : motive (past ++ actions) final := by
  induction execution generalizing past with
  | nil => simpa using holds
  | @cons state next final action rest condition taken _ ih =>
    have later := ih (preserved past state action next holds condition taken)
    rwa [List.append_assoc, List.singleton_append] at later

theorem run_preserves_history {motive : List Action → State → Prop}
    (preserved : ∀ past state action next, motive past state →
      machine.step state action = some next → motive (past ++ [action]) next)
    {state final : State} {actions : List Action} (holds : motive [] state)
    (execution : machine.run state actions = some final) : motive actions final := by
  have everywhere : ∀ action ∈ actions, True := fun _ _ => trivial
  have steps := RunsWhere.of_forall everywhere execution
  exact steps.preserves_history (fun past state action next before _ taken =>
    preserved past state action next before taken) holds

theorem RunsWhere.mono {machine : Machine State Action} {allowed weaker : State → Action → Prop}
    (implies : ∀ state action, allowed state action → weaker state action) {state final : State}
    {actions : List Action} (execution : machine.RunsWhere allowed state actions final) :
    machine.RunsWhere weaker state actions final := by
  induction execution with
  | nil => exact .nil
  | cons condition taken _ ih => exact .cons (implies _ _ condition) taken ih

def runWhere (allowed : State → Action → Prop) [DecidableRel allowed] (state : State) :
    List Action → Option State
  | [] => some state
  | action :: rest =>
    if allowed state action then (machine.step state action).bind fun next => runWhere allowed next rest
    else none

theorem RunsWhere.of_runWhere {machine : Machine State Action} {allowed : State → Action → Prop}
    [DecidableRel allowed] {state final : State} {actions : List Action}
    (execution : machine.runWhere allowed state actions = some final) :
    machine.RunsWhere allowed state actions final := by
  induction actions generalizing state with
  | nil =>
    cases execution
    exact .nil
  | cons action rest ih =>
    rw [runWhere] at execution
    split at execution
    · next condition =>
      obtain ⟨next, taken, after⟩ := Option.bind_eq_some_iff.mp execution
      exact .cons condition taken (ih after)
    · cases execution

/-- Two machines over the same actions agree along every allowed schedule when
a projection commutes with each allowed step, in both directions: an action is
enabled in one machine exactly when it is enabled in the other. -/
theorem run_project {Abstract : Type} (abstract : Machine Abstract Action)
    (project : State → Abstract) {motive : State → Prop} {allowed : Action → Prop}
    (preserved : ∀ state action next, motive state → allowed action →
      machine.step state action = some next → motive next)
    (commutes : ∀ state action, motive state → allowed action →
      (machine.step state action).map project = abstract.step (project state) action)
    {state : State} (holds : motive state) {actions : List Action}
    (condition : ∀ action ∈ actions, allowed action) :
    (machine.run state actions).map project = abstract.run (project state) actions := by
  induction actions generalizing state with
  | nil => rfl
  | cons action rest ih =>
    have first := commutes state action holds (condition action (by simp))
    have others : ∀ action ∈ rest, allowed action :=
      fun other member => condition other (List.mem_cons_of_mem action member)
    simp only [run]
    cases taken : machine.step state action with
    | none =>
      -- The abstract machine has no successor either, so both runs end here.
      simp [taken] at first
      simp [← first]
    | some next =>
      rw [taken, Option.map_some] at first
      rw [← first]
      exact ih (preserved state action next holds (condition action (by simp)) taken) others

end Machine

end Semantics

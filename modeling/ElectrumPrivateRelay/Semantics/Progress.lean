import ElectrumPrivateRelay.Semantics.Machine
import Mathlib.Order.WellFounded

/-! How long a machine can run and whether it can come to its end.

Actions of one kind may be enabled for ever; only the others are counted.
-/

set_option autoImplicit false

namespace Semantics.Machine

variable {State Action : Type} (machine : Machine State Action)

/-- Every counted step is paid for by the potential, unless it earns what it spends. -/
theorem run_bounded (potential earned : State → Nat) (counted : Action → Bool)
    (pays : ∀ state action next, machine.step state action = some next →
      (if counted action then 1 else 0) + potential next + earned state ≤ potential state + earned next)
    {state final : State} {actions : List Action} (execution : machine.run state actions = some final) :
    actions.countP counted + potential final + earned state ≤ potential state + earned final := by
  induction actions generalizing state with
  | nil =>
    cases execution
    simp
  | cons action rest ih =>
    obtain ⟨next, taken, after⟩ := (machine.run_cons).mp execution
    have first := pays state action next taken
    have later := ih after
    rw [List.countP_cons]
    omega

theorem exists_run_of_progress {Rank : Type} {less : Rank → Rank → Prop} (wellFounded : WellFounded less)
    (rank : State → Rank) {settled : State → Prop}
    (progress : ∀ state, settled state ∨
      ∃ action next, machine.step state action = some next ∧ less (rank next) (rank state)) (state : State) :
    ∃ actions final, machine.run state actions = some final ∧ settled final := by
  induction same : rank state using wellFounded.induction generalizing state with
  | _ level ih =>
    rcases progress state with done | ⟨action, next, taken, lower⟩
    · exact ⟨[], state, rfl, done⟩
    · obtain ⟨actions, final, execution, done⟩ := ih (rank next) (same ▸ lower) next rfl
      exact ⟨action :: actions, final, (machine.run_cons).mpr ⟨next, taken, execution⟩, done⟩

def Follows (kind : Action → Prop) (next state : State) : Prop :=
  ∃ action, kind action ∧ machine.step state action = some next

/-- The states of a schedule that never ends. -/
def IsEndless (states : Nat → State) (actions : Nat → Action) : Prop :=
  ∀ index, machine.step (states index) (actions index) = some (states (index + 1))

variable {machine} {Rank : Type} {less : Rank → Rank → Prop} {rank : State → Rank} {idle : Action → Prop}

theorem wellFounded_follows (wellFounded : WellFounded less)
    (lowers : ∀ state action next, ¬ idle action → machine.step state action = some next →
      less (rank next) (rank state)) : WellFounded (machine.Follows fun action => ¬ idle action) := by
  apply Subrelation.wf _ (InvImage.wf rank wellFounded)
  rintro next state ⟨action, counted, taken⟩
  exact lowers state action next counted taken

theorem IsEndless.eventually_idle (wellFounded : WellFounded less)
    (keeps : ∀ state action next, idle action → machine.step state action = some next → rank next = rank state)
    (lowers : ∀ state action next, ¬ idle action → machine.step state action = some next →
      less (rank next) (rank state))
    {states : Nat → State} {actions : Nat → Action} (endless : machine.IsEndless states actions) :
    ∃ stop, ∀ index, stop ≤ index → idle (actions index) := by
  -- From the state of the lowest rank on, nothing can lower it.
  obtain ⟨lowest, ⟨stop, rfl⟩, least⟩ :=
    wellFounded.has_min (Set.range fun index => rank (states index)) ⟨_, 0, rfl⟩
  have idles : ∀ index, rank (states index) = rank (states stop) → idle (actions index) := by
    intro index same
    by_contra counted
    have lower := lowers _ _ _ counted (endless index)
    rw [same] at lower
    exact least _ ⟨index + 1, rfl⟩ lower
  have kept : ∀ later, rank (states (stop + later)) = rank (states stop) := by
    intro later
    induction later with
    | zero => rfl
    | succ later ih => exact (keeps _ _ _ (idles _ ih) (endless _)).trans ih
  refine ⟨stop, fun index after => idles index ?_⟩
  have same := kept (index - stop)
  rwa [Nat.add_sub_cancel' after] at same

end Semantics.Machine

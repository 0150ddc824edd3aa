import ElectrumPrivateRelay.Relay.Draining

/-! The admission count of the lifecycle gate.

The mutex-protected count is tied to the calls themselves: it is the number of
calls that passed admission and whose guard is still alive, along every
schedule of calls, returns, cancellations and shutdowns.
-/

set_option autoImplicit false

namespace ElectrumPrivateRelay.Relay.Draining
open Semantics

def Call.live (call : Call) : Nat :=
  match call.phase with
  | .admitted | .running | .finishing _ => 1
  | .called | .released _ | .ended _ => 0

def Drain.admittedUnfinished (drain : Drain) : Nat := total Call.live drain.calls

def Drain.ShutdownBegun (drain : Drain) : Prop := ∃ shutdown ∈ drain.shutdowns, shutdown ≠ .requested

theorem Drain.enter_cases {drain next : Drain} {index : Nat} (taken : drain.enter index = some next) :
    ∃ invoked, drain.calls[index]? = some ⟨.called, invoked⟩ ∧
      ((drain.accepting = true ∧ drain.active < usizeMax ∧
        next = { drain.setCall index ⟨.admitted, invoked⟩ with
          active := drain.active + 1
          publishing := drain.publishing ++ [(.call index, drain.active + 1)] }) ∨
      ((drain.accepting = false ∨ usizeMax ≤ drain.active) ∧
        next = drain.setCall index ⟨.ended (some (.err .failed)), invoked⟩)) := by
  unfold enter at taken
  split at taken
  · next invoked selected =>
    refine ⟨invoked, selected, ?_⟩
    split at taken
    · next accepting =>
      split at taken
      · next active incremented =>
        obtain ⟨below, rfl⟩ := checkedUsize_eq_some.mp incremented
        exact .inl ⟨accepting, below, (Option.some.inj taken).symm⟩
      · next full =>
        have above : usizeMax ≤ drain.active := by
          simpa [checkedUsize, Nat.lt_succ_iff] using full
        exact .inr ⟨.inr above, (Option.some.inj taken).symm⟩
    · next closed =>
      exact .inr ⟨.inl (by simpa using closed), (Option.some.inj taken).symm⟩
  · cases taken

theorem Drain.leave_cases {drain next : Drain} {index : Nat} (taken : drain.leave index = some next) :
    ∃ result invoked, drain.calls[index]? = some ⟨.finishing result, invoked⟩ ∧
      next = { drain.setCall index ⟨.released result, invoked⟩ with
        active := drain.active - 1
        publishing := drain.publishing ++ [(.call index, drain.active - 1)] } := by
  unfold leave at taken
  split at taken
  · next result invoked selected =>
    have decremented : (if 0 < drain.active then drain.active - 1 else drain.active) =
        drain.active - 1 := by
      split <;> omega
    simp only [decremented] at taken
    exact ⟨result, invoked, selected, (Option.some.inj taken).symm⟩
  · cases taken

theorem Drain.beginShutdown_cases {drain next : Drain} {index : Nat}
    (taken : drain.beginShutdown index = some next) :
    drain.shutdowns[index]? = some .requested ∧
      next = { drain with
        accepting := false
        publishing := drain.publishing ++ [(.shutdown index, drain.active)]
        shutdowns := drain.shutdowns.set index (.announced drain.active) } := by
  unfold beginShutdown at taken
  split at taken
  · next selected => exact ⟨selected, (Option.some.inj taken).symm⟩
  · cases taken

inductive Call.Moves : Call → Call → Prop where
  | entered {invoked : Bool} : Moves ⟨.called, invoked⟩ ⟨.admitted, invoked⟩
  | refuse {invoked : Bool} : Moves ⟨.called, invoked⟩ ⟨.ended (some (.err .failed)), invoked⟩
  | abandon {invoked : Bool} : Moves ⟨.called, invoked⟩ ⟨.ended none, invoked⟩
  | start {invoked : Bool} : Moves ⟨.admitted, invoked⟩ ⟨.running, true⟩
  | finish {invoked : Bool} {result : Option Outcome} :
      Moves ⟨.running, invoked⟩ ⟨.finishing result, invoked⟩
  | release {invoked : Bool} {result : Option Outcome} :
      Moves ⟨.finishing result, invoked⟩ ⟨.released result, invoked⟩
  | finalize {invoked : Bool} {result : Option Outcome} :
      Moves ⟨.released result, invoked⟩ ⟨.ended result, invoked⟩

inductive Shutdown.Moves : Shutdown → Shutdown → Prop where
  | announce {active : Nat} : Moves .requested (.announced active)
  | complete {active : Nat} : Moves (.announced active) (.returned active)

theorem Drain.resume_cases {drain next : Drain} {publisher : Publisher}
    (taken : drain.resume publisher = some next) :
    (∃ index call changed, drain.calls[index]? = some call ∧ call.Moves changed ∧
      call.live = changed.live ∧ next = drain.setCall index changed) ∨
    (∃ index active, publisher = .shutdown index ∧
      drain.shutdowns[index]? = some (.announced active) ∧
      next = { drain with shutdowns := drain.shutdowns.set index (.returned active) }) := by
  cases publisher with
  | call index =>
    simp only [resume] at taken
    split at taken
    · next invoked selected =>
      exact .inl ⟨index, _, _, selected, .start, rfl, (Option.some.inj taken).symm⟩
    · next result invoked selected =>
      exact .inl ⟨index, _, _, selected, .finalize, rfl, (Option.some.inj taken).symm⟩
    · cases taken
  | shutdown index =>
    simp only [resume] at taken
    split at taken
    · next active selected =>
      exact .inr ⟨index, active, rfl, selected, (Option.some.inj taken).symm⟩
    · cases taken

theorem Drain.publish_cases {drain next : Drain} {publisher : Publisher}
    (taken : drain.publish publisher = some next) :
    ∃ entry, drain.publishing.find? (fun entry => entry.1 = publisher) = some entry ∧
      { drain with
        watch := entry.2
        version := drain.version + 1
        publishing := drain.publishing.eraseP (fun entry => entry.1 = publisher) }.resume publisher =
          some next := by
  unfold publish at taken
  split at taken
  · next entry found => exact ⟨entry, found, taken⟩
  · cases taken

theorem Drain.innerReturns_cases {drain next : Drain} {index : Nat} {outcome : Outcome}
    (taken : drain.innerReturns index outcome = some next) :
    ∃ invoked, drain.calls[index]? = some ⟨.running, invoked⟩ ∧
      next = drain.setCall index ⟨.finishing (some outcome), invoked⟩ := by
  unfold innerReturns at taken
  split at taken
  · next invoked selected => exact ⟨invoked, selected, (Option.some.inj taken).symm⟩
  · cases taken

theorem Drain.cancel_cases {drain next : Drain} {index : Nat} (taken : drain.cancel index = some next) :
    ∃ call changed, drain.calls[index]? = some call ∧ call.Moves changed ∧
      call.live = changed.live ∧ next = drain.setCall index changed := by
  unfold cancel at taken
  split at taken
  · next invoked selected => exact ⟨_, _, selected, .abandon, rfl, (Option.some.inj taken).symm⟩
  · next invoked selected => exact ⟨_, _, selected, .finish, rfl, (Option.some.inj taken).symm⟩
  · cases taken

theorem Drain.pollIdle_cases {drain next : Drain} {index : Nat}
    (taken : drain.pollIdle index = some next) :
    (drain.waiters[index]? = some .starting ∨
      ∃ seen, drain.waiters[index]? = some (.waiting seen) ∧ seen ≠ drain.version) ∧
    next = { drain with waiters := drain.waiters.set index drain.checkIdle } := by
  unfold pollIdle at taken
  split at taken
  · next selected => exact ⟨.inl selected, (Option.some.inj taken).symm⟩
  · next seen selected =>
    split at taken
    · cases taken
    · next unseen => exact ⟨.inr ⟨seen, selected, unseen⟩, (Option.some.inj taken).symm⟩
  · cases taken

theorem Drain.expireIdle_cases {drain next : Drain} {index : Nat}
    (taken : drain.expireIdle index = some next) :
    ∃ seen, drain.waiters[index]? = some (.waiting seen) ∧
      next = { drain with waiters := drain.waiters.set index (.returned false) } := by
  unfold expireIdle at taken
  split at taken
  · next seen selected => exact ⟨seen, selected, (Option.some.inj taken).symm⟩
  · cases taken

/-- Everything one step can do to the gate, with its guards. Refusals, returns
and cancellations only move a call; waiters only observe. -/
inductive Drain.Effect (drain : Drain) (action : Action) : Drain → Prop where
  | appears : Effect drain action { drain with calls := drain.calls ++ [⟨.called, false⟩] }
  | moves {index : Nat} {call changed : Call} :
      drain.calls[index]? = some call → call.Moves changed → call.live = changed.live →
      Effect drain action (drain.setCall index changed)
  | admits {index : Nat} {invoked : Bool} :
      drain.calls[index]? = some ⟨.called, invoked⟩ → drain.accepting = true →
      Effect drain action { drain.setCall index ⟨.admitted, invoked⟩ with
        active := drain.active + 1
        publishing := drain.publishing ++ [(.call index, drain.active + 1)] }
  | releases {index : Nat} {result : Option Outcome} {invoked : Bool} :
      drain.calls[index]? = some ⟨.finishing result, invoked⟩ →
      Effect drain action { drain.setCall index ⟨.released result, invoked⟩ with
        active := drain.active - 1
        publishing := drain.publishing ++ [(.call index, drain.active - 1)] }
  | requests : Effect drain action { drain with shutdowns := drain.shutdowns ++ [.requested] }
  | announces {index : Nat} : drain.shutdowns[index]? = some .requested →
      Effect drain action { drain with
        accepting := false
        publishing := drain.publishing ++ [(.shutdown index, drain.active)]
        shutdowns := drain.shutdowns.set index (.announced drain.active) }
  | publishes {publisher : Publisher} {entry : Publisher × Nat} {next : Drain} :
      action = .publish publisher →
      drain.publishing.find? (fun entry => entry.1 = publisher) = some entry →
      { drain with
        watch := entry.2
        version := drain.version + 1
        publishing := drain.publishing.eraseP (fun entry => entry.1 = publisher) }.resume publisher =
          some next →
      Effect drain action next
  | observes {waiters : List Waiter} : Effect drain action { drain with waiters := waiters }

theorem Drain.step_effect {drain next : Drain} {action : Action} (taken : drain.step action = some next) :
    drain.Effect action next := by
  cases action with
  | invoke =>
    cases Option.some.inj taken
    exact .appears
  | enter index =>
    obtain ⟨invoked, selected, ⟨accepting, _, rfl⟩ | ⟨_, rfl⟩⟩ := enter_cases taken
    · exact .admits selected accepting
    · exact .moves selected .refuse rfl
  | innerReturns index outcome =>
    obtain ⟨invoked, selected, rfl⟩ := innerReturns_cases taken
    exact .moves selected .finish rfl
  | cancel index =>
    obtain ⟨call, changed, selected, move, sameWeight, rfl⟩ := cancel_cases taken
    exact .moves selected move sameWeight
  | leave index =>
    obtain ⟨result, invoked, selected, rfl⟩ := leave_cases taken
    exact .releases selected
  | requestShutdown =>
    cases Option.some.inj taken
    exact .requests
  | beginShutdown index =>
    obtain ⟨selected, rfl⟩ := beginShutdown_cases taken
    exact .announces selected
  | publish publisher =>
    obtain ⟨entry, found, resumed⟩ := publish_cases taken
    exact .publishes rfl found resumed
  | waitForIdle =>
    cases Option.some.inj taken
    exact .observes
  | pollIdle index =>
    obtain ⟨_, rfl⟩ := pollIdle_cases taken
    exact .observes
  | expireIdle index =>
    obtain ⟨_, _, rfl⟩ := expireIdle_cases taken
    exact .observes

theorem Drain.Effect.calls {drain next : Drain} {action : Action} (effect : drain.Effect action next) :
    Advances Call.Moves ⟨.called, false⟩ drain.calls next.calls := by
  cases effect with
  | appears => exact .grows
  | moves selected move _ => exact .moved selected move
  | admits selected _ => exact .moved selected .entered
  | releases selected => exact .moved selected .release
  | publishes _ _ resumed =>
    rcases resume_cases resumed with ⟨_, _, _, selected, move, _, rfl⟩ | ⟨_, _, _, _, rfl⟩
    · exact .moved selected move
    · exact .same
  | requests | announces _ | observes => exact .same

theorem Drain.Effect.shutdowns {drain next : Drain} {action : Action} (effect : drain.Effect action next) :
    Advances Shutdown.Moves .requested drain.shutdowns next.shutdowns := by
  cases effect with
  | requests => exact .grows
  | announces selected => exact .moved selected .announce
  | publishes _ _ resumed =>
    rcases resume_cases resumed with ⟨_, _, _, _, _, _, rfl⟩ | ⟨_, _, _, selected, rfl⟩
    · exact .same
    · exact .moved selected .complete
  | appears | moves _ _ _ | admits _ _ | releases _ | observes => exact .same

theorem Drain.admittedUnfinished_setCall {drain : Drain} {index : Nat} {call : Call}
    (selected : drain.calls[index]? = some call) (changed : Call) :
    (drain.setCall index changed).admittedUnfinished + call.live =
      drain.admittedUnfinished + changed.live :=
  total_set Call.live selected changed

theorem Drain.Effect.counted {drain next : Drain} {action : Action} (effect : drain.Effect action next)
    (before : drain.active = drain.admittedUnfinished) : next.active = next.admittedUnfinished := by
  cases effect with
  | appears => simpa [admittedUnfinished, Call.live] using before
  | @moves index call changed selected _ sameWeight =>
    have exchanged := admittedUnfinished_setCall selected changed
    exact before.trans (by omega)
  | @admits index invoked selected _ =>
    have exchanged := admittedUnfinished_setCall selected ⟨.admitted, invoked⟩
    simp only [Call.live] at exchanged
    change drain.active + 1 = (drain.setCall index ⟨.admitted, invoked⟩).admittedUnfinished
    omega
  | @releases index result invoked selected =>
    have exchanged := admittedUnfinished_setCall selected ⟨.released result, invoked⟩
    simp only [Call.live] at exchanged
    change drain.active - 1 = (drain.setCall index ⟨.released result, invoked⟩).admittedUnfinished
    omega
  | publishes _ _ resumed =>
    rcases resume_cases resumed with ⟨index, call, changed, selected, _, sameWeight, rfl⟩ | ⟨_, _, _, _, rfl⟩
    · have exchanged := admittedUnfinished_setCall selected changed
      exact before.trans (by simp only [admittedUnfinished] at exchanged ⊢; omega)
    · exact before
  | requests | announces _ | observes => exact before

/-- The gate only ever moves from open to closed, and while it is closed the
count can only go down. -/
theorem Drain.Effect.gate {drain next : Drain} {action : Action} (effect : drain.Effect action next)
    (closed : drain.accepting = false) : next.accepting = false ∧ next.active ≤ drain.active := by
  cases effect with
  | admits _ accepting => simp [accepting] at closed
  | releases _ => exact ⟨closed, Nat.sub_le _ _⟩
  | announces _ => exact ⟨rfl, Nat.le_refl _⟩
  | publishes _ _ resumed =>
    rcases resume_cases resumed with ⟨_, _, _, _, _, _, rfl⟩ | ⟨_, _, _, _, rfl⟩
    · exact ⟨closed, Nat.le_refl _⟩
    · exact ⟨closed, Nat.le_refl _⟩
  | appears | moves _ _ _ | requests | observes => exact ⟨closed, Nat.le_refl _⟩

structure Accounted (drain : Drain) : Prop where
  counted : drain.active = drain.admittedUnfinished
  uninvoked : ∀ call ∈ drain.calls, call.phase = .called → call.invoked = false
  closed : drain.ShutdownBegun → drain.accepting = false

theorem Accounted.new : Accounted Drain.new where
  counted := rfl
  uninvoked := by simp [Drain.new]
  closed := by simp [Drain.new, Drain.ShutdownBegun]

theorem Drain.Effect.closed {drain next : Drain} {action : Action} (effect : drain.Effect action next)
    (before : drain.ShutdownBegun → drain.accepting = false) :
    next.ShutdownBegun → next.accepting = false := by
  cases effect with
  | announces _ => exact fun _ => rfl
  | requests =>
    rintro ⟨shutdown, member, begun⟩
    rcases List.mem_append.mp member with old | new
    · exact before ⟨shutdown, old, begun⟩
    · exact absurd (List.mem_singleton.mp new) begun
  | publishes _ _ resumed =>
    rcases resume_cases resumed with ⟨_, _, _, _, _, _, rfl⟩ | ⟨index, active, _, selected, rfl⟩
    · exact before
    · exact fun _ => before ⟨_, List.mem_of_getElem? selected, nofun⟩
  | appears | moves _ _ _ | admits _ _ | releases _ | observes => exact before

theorem Accounted.step {drain next : Drain} {action : Action} (accounted : Accounted drain)
    (taken : machine.step drain action = some next) : Accounted next := by
  have effect := Drain.step_effect taken
  refine ⟨effect.counted accounted.counted, ?_, effect.closed accounted.closed⟩
  -- No move leads back to a call that is still to be admitted.
  apply effect.calls.preserves (fun _ => rfl) _ accounted.uninvoked
  intro call changed _ move
  cases move <;> simp

theorem Accounted.run {drain : Drain} {schedule : List Action}
    (reached : machine.run Drain.new schedule = some drain) : Accounted drain :=
  machine.run_preserves (fun _ _ _ before taken => before.step taken) Accounted.new reached

theorem ended_stable {drain final : Drain} {schedule : List Action} {index : Nat}
    {result : Option Outcome} {invoked : Bool}
    (ended : drain.calls[index]? = some ⟨.ended result, invoked⟩)
    (execution : machine.run drain schedule = some final) :
    final.calls[index]? = some ⟨.ended result, invoked⟩ := by
  refine machine.run_preserves (motive := fun drain => drain.calls[index]? = some ⟨.ended result, invoked⟩)
    (fun _ _ _ before taken => ?_) ended execution
  exact (Drain.step_effect taken).calls.final before (by rintro changed ⟨⟩)

theorem gate_stays_closed {drain final : Drain} {schedule : List Action}
    (closed : drain.accepting = false) (execution : machine.run drain schedule = some final) :
    final.accepting = false ∧ final.active ≤ drain.active := by
  refine machine.run_preserves
    (motive := fun later => later.accepting = false ∧ later.active ≤ drain.active)
    (fun _ _ _ before taken => ?_) ⟨closed, Nat.le_refl _⟩ execution
  -- Closed stays closed, and what has only gone down so far goes on doing so.
  have gate := (Drain.step_effect taken).gate before.1
  exact ⟨gate.1, Nat.le_trans gate.2 before.2⟩

theorem shutdown_count_stable {drain final : Drain} {schedule : List Action} {index active : Nat}
    (announced : drain.shutdowns[index]? = some (.announced active))
    (execution : machine.run drain schedule = some final) :
    final.shutdowns[index]? = some (.announced active) ∨
      final.shutdowns[index]? = some (.returned active) := by
  have kept := machine.run_preserves
    (motive := fun drain => ∃ later, drain.shutdowns[index]? = some later ∧
      (later = .announced active ∨ later = .returned active))
    (fun _ _ _ before taken => ?_) ⟨_, announced, .inl rfl⟩ execution
  · obtain ⟨later, found, rfl | rfl⟩ := kept
    · exact .inl found
    · exact .inr found
  · obtain ⟨current, found, holds⟩ := before
    refine (Drain.step_effect taken).shutdowns.keeps ?_ found holds
    rintro activity changed (rfl | rfl) ⟨⟩
    exact .inr rfl

theorem Accounted.decrement_positive {drain : Drain} (accounted : Accounted drain) {index : Nat}
    {result : Option Outcome} {invoked : Bool}
    (selected : drain.calls[index]? = some ⟨.finishing result, invoked⟩) : 0 < drain.active := by
  have counted := weight_le_total Call.live selected
  rw [accounted.counted]
  exact counted

theorem Accounted.refused {drain next : Drain} (accounted : Accounted drain) {index : Nat}
    (shut : drain.accepting = false ∨ usizeMax ≤ drain.active)
    (taken : machine.step drain (.enter index) = some next) :
    next = drain.setCall index ⟨.ended (some (.err .failed)), false⟩ ∧
      next.calls[index]? = some ⟨.ended (some (.err .failed)), false⟩ := by
  obtain ⟨invoked, selected, ⟨accepting, below, _⟩ | ⟨_, rfl⟩⟩ := Drain.enter_cases taken
  · rcases shut with closed | full
    · simp [accepting] at closed
    · omega
  · have fresh : invoked = false := accounted.uninvoked _ (List.mem_of_getElem? selected) rfl
    subst fresh
    have bound := (List.getElem?_eq_some_iff.mp selected).1
    exact ⟨rfl, List.getElem?_set_self bound⟩

def Call.wasAdmitted (call : Call) : Bool :=
  match call.phase with
  | .called => false
  | .ended _ => call.invoked
  | .admitted | .running | .finishing _ | .released _ => true

structure Call.Consistent (call : Call) : Prop where
  waiting : call.phase = .called ∨ call.phase = .admitted → call.invoked = false
  started : ∀ result, call.phase = .running ∨ call.phase = .finishing result ∨ call.phase = .released result →
    call.invoked = true
  refused : ∀ outcome, call.phase = .ended (some outcome) → call.invoked = false → outcome = .err .failed

theorem Call.Moves.consistent {call changed : Call} (move : call.Moves changed) (consistent : call.Consistent) :
    changed.Consistent := by
  cases move with
  | entered => exact ⟨fun _ => consistent.waiting (.inl rfl), by simp, by simp⟩
  | refuse => exact ⟨by simp, by simp, fun outcome same _ => by simpa using same.symm⟩
  | abandon => exact ⟨by simp, by simp, by simp⟩
  | start => exact ⟨by simp, fun _ _ => rfl, by simp⟩
  | @finish invoked result =>
    have reached := consistent.started result (.inl rfl)
    exact ⟨by simp, fun _ _ => reached, by simp⟩
  | @release invoked result =>
    have reached := consistent.started result (.inr (.inl rfl))
    exact ⟨by simp, fun _ _ => reached, by simp⟩
  | @finalize invoked result =>
    have reached : invoked = true := consistent.started result (.inr (.inr rfl))
    exact ⟨by simp, by simp, fun outcome _ none => by rw [reached] at none; cases none⟩

theorem Drain.step_consistent {drain next : Drain} {action : Action} (taken : drain.step action = some next)
    (consistent : ∀ call ∈ drain.calls, call.Consistent) : ∀ call ∈ next.calls, call.Consistent :=
  (step_effect taken).calls.preserves ⟨fun _ => rfl, by simp, by simp⟩
    (fun _ _ before move => move.consistent before) consistent

theorem Drain.Effect.calls_of_closed {drain next : Drain} {action : Action} (effect : drain.Effect action next)
    (closed : drain.accepting = false) :
    Advances (fun call changed => call.Moves changed ∧ changed.phase ≠ .admitted) ⟨.called, false⟩
      drain.calls next.calls := by
  -- the one move to `admitted` makes a call live
  have stays : ∀ {call changed : Call}, call.Moves changed → call.live = changed.live →
      changed.phase ≠ .admitted := by
    intro call changed move sameWeight
    cases move <;> simp [Call.live] at sameWeight ⊢
  cases effect with
  | appears => exact .grows
  | moves selected move sameWeight => exact .moved selected ⟨move, stays move sameWeight⟩
  | admits _ accepting =>
    rw [closed] at accepting
    cases accepting
  | releases selected => exact .moved selected ⟨.release, by simp⟩
  | publishes _ _ resumed =>
    rcases resume_cases resumed with ⟨_, _, _, selected, move, sameWeight, rfl⟩ | ⟨_, _, _, _, rfl⟩
    · exact .moved selected ⟨move, stays move sameWeight⟩
    · exact .same
  | requests | announces _ | observes => exact .same

theorem Call.Moves.wasAdmitted {call changed : Call} (move : call.Moves changed) (consistent : call.Consistent)
    (outside : changed.phase ≠ .admitted) (passed : changed.wasAdmitted = true) : call.wasAdmitted = true := by
  cases move with
  | entered => exact absurd rfl outside
  | refuse | abandon =>
    have never := consistent.waiting (.inl rfl)
    simp only [Call.wasAdmitted] at passed never
    rw [never] at passed
    cases passed
  | start | finish | release | finalize => rfl

theorem Drain.step_admitted {drain next : Drain} {action : Action} (taken : drain.step action = some next)
    (consistent : ∀ call ∈ drain.calls, call.Consistent) (closed : drain.accepting = false)
    {index : Nat} {call : Call} (found : next.calls[index]? = some call) (passed : call.wasAdmitted = true) :
    ∃ earlier, drain.calls[index]? = some earlier ∧ earlier.wasAdmitted = true := by
  rcases ((step_effect taken).calls_of_closed closed).origin found with rfl | ⟨earlier, before, rfl | ⟨move, outside⟩⟩
  · cases passed
  · exact ⟨_, before, passed⟩
  · have own := consistent earlier (List.mem_of_getElem? before)
    exact ⟨earlier, before, move.wasAdmitted own outside passed⟩

theorem Drain.step_begun {drain next : Drain} {action : Action} (begun : drain.ShutdownBegun)
    (taken : drain.step action = some next) : next.ShutdownBegun := by
  obtain ⟨shutdown, member, started⟩ := begun
  obtain ⟨index, selected⟩ := List.mem_iff_getElem?.mp member
  obtain ⟨later, found, still⟩ := (step_effect taken).shutdowns.keeps (motive := (· ≠ .requested))
    (fun _ _ _ move => by cases move <;> simp) selected started
  exact ⟨later, List.mem_of_getElem? found, still⟩

theorem Drain.step_calls_length {drain next : Drain} {action : Action} (own : action ≠ .invoke)
    (taken : drain.step action = some next) : next.calls.length = drain.calls.length := by
  cases action with
  | invoke => exact absurd rfl own
  | enter index =>
    obtain ⟨invoked, -, ⟨-, -, rfl⟩ | ⟨-, rfl⟩⟩ := enter_cases taken
    · exact List.length_set
    · exact List.length_set
  | innerReturns index outcome =>
    obtain ⟨invoked, -, rfl⟩ := innerReturns_cases taken
    exact List.length_set
  | cancel index =>
    obtain ⟨call, changed, -, -, -, rfl⟩ := cancel_cases taken
    exact List.length_set
  | leave index =>
    obtain ⟨result, invoked, -, rfl⟩ := leave_cases taken
    exact List.length_set
  | requestShutdown =>
    cases Option.some.inj taken
    rfl
  | beginShutdown index =>
    obtain ⟨-, rfl⟩ := beginShutdown_cases taken
    rfl
  | publish publisher =>
    obtain ⟨entry, -, resumed⟩ := publish_cases taken
    rcases resume_cases resumed with ⟨_, _, _, _, _, _, rfl⟩ | ⟨_, _, _, _, rfl⟩
    · exact List.length_set
    · rfl
  | waitForIdle =>
    cases Option.some.inj taken
    rfl
  | pollIdle index =>
    obtain ⟨-, rfl⟩ := pollIdle_cases taken
    rfl
  | expireIdle index =>
    obtain ⟨-, -, rfl⟩ := expireIdle_cases taken
    rfl

/-- What the gate promises in a state, and from it on along every schedule. -/
structure AdmissionContract (drain : Drain) : Prop where
  /-- The count is the number of admitted calls whose guard is alive. -/
  active_eq : drain.active = drain.admittedUnfinished
  /-- No guard is ever dropped at a count of zero. -/
  decrement_positive : ∀ (index : Nat) (result : Option Outcome) (invoked : Bool),
    drain.calls[index]? = some ⟨.finishing result, invoked⟩ → 0 < drain.active
  /-- After a shutdown began a call fails without reaching the inner relay,
  now or later, and without touching the count. -/
  refused_after_shutdown : drain.ShutdownBegun → ∀ (index : Nat) (next : Drain),
    machine.step drain (.enter index) = some next →
      next.accepting = drain.accepting ∧ next.active = drain.active ∧
      ∀ (schedule : List Action) (final : Drain), machine.run next schedule = some final →
        final.calls[index]? = some ⟨.ended (some (.err .failed)), false⟩
  never_reopens : drain.ShutdownBegun → ∀ (schedule : List Action) (final : Drain),
    machine.run drain schedule = some final →
      final.accepting = false ∧ final.active ≤ drain.active
  /-- `begin_shutdown` returns the number of admitted unfinished calls. -/
  shutdown_count : ∀ (index : Nat) (next : Drain), machine.step drain (.beginShutdown index) = some next →
    ∀ (schedule : List Action) (final : Drain), machine.run next schedule = some final →
      final.shutdowns[index]? = some (.announced drain.admittedUnfinished) ∨
        final.shutdowns[index]? = some (.returned drain.admittedUnfinished)
  refused_at_maximum : drain.active = usizeMax → ∀ (index : Nat) (next : Drain),
    machine.step drain (.enter index) = some next →
      next = drain.setCall index ⟨.ended (some (.err .failed)), false⟩

theorem drain_admission (schedule : List Action) (drain : Drain)
    (reached : machine.run Drain.new schedule = some drain) : AdmissionContract drain := by
  have accounted := Accounted.run reached
  constructor
  · exact accounted.counted
  · intro index result invoked selected
    exact accounted.decrement_positive selected
  · intro begun index next taken
    obtain ⟨rfl, ended⟩ := accounted.refused (.inl (accounted.closed begun)) taken
    exact ⟨rfl, rfl, fun schedule final execution => ended_stable ended execution⟩
  · intro begun schedule final execution
    exact gate_stays_closed (accounted.closed begun) execution
  · intro index next taken schedule final execution
    obtain ⟨selected, rfl⟩ := Drain.beginShutdown_cases taken
    have bound := (List.getElem?_eq_some_iff.mp selected).1
    rw [← accounted.counted]
    exact shutdown_count_stable (List.getElem?_set_self bound) execution
  · intro full index next taken
    exact (accounted.refused (.inr (Nat.le_of_eq full.symm)) taken).1

def admittedAcrossShutdown : List Action :=
  [.invoke, .enter 0, .publish (.call 0), .requestShutdown, .beginShutdown 0, .invoke, .enter 1,
    .cancel 0, .publish (.shutdown 0)]

def drainingState : Drain :=
  { accepting := false, active := 1, watch := 1, version := 2, publishing := []
    calls := [⟨.finishing none, true⟩, ⟨.ended (some (.err .failed)), false⟩]
    shutdowns := [.returned 1], waiters := [] }

theorem drain_admission_across_shutdown :
    machine.run Drain.new admittedAcrossShutdown = some drainingState ∧
      AdmissionContract drainingState :=
  ⟨by decide, drain_admission admittedAcrossShutdown drainingState (by decide)⟩

end ElectrumPrivateRelay.Relay.Draining

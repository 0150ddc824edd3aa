import ElectrumPrivateRelay.Relay.DrainAdmission

/-! The published count of the lifecycle gate.

A count is computed under the mutex and sent after it is released, so two
operations may send in the opposite order of their critical sections. The
channel then holds an old count for good. Counts that are sent in the order of
their critical sections keep the channel and the gate in agreement.
-/

set_option autoImplicit false

namespace ElectrumPrivateRelay.Relay.Draining
open Semantics

/-- No operation is between its critical section and its `send_replace`. -/
def Drain.Settled (drain : Drain) : Prop := drain.publishing = []

def Drain.ShutdownReturned (drain : Drain) : Prop :=
  ∃ (index active : Nat), drain.shutdowns[index]? = some (.returned active)

/-- A `send_replace` is performed only by the operation whose critical section
is the oldest among those that have not sent yet. -/
def SendsInOrder (drain : Drain) (action : Action) : Prop :=
  ∀ publisher, action = .publish publisher → drain.publishing.head?.map Prod.fst = some publisher

instance : DecidableRel SendsInOrder := fun drain action =>
  match action with
  | .publish publisher =>
    decidable_of_iff (drain.publishing.head?.map Prod.fst = some publisher)
      ⟨fun oldest _ same => (Action.publish.inj same) ▸ oldest, fun inOrder => inOrder publisher rfl⟩
  | .invoke | .enter _ | .innerReturns _ _ | .cancel _ | .leave _ | .requestShutdown
  | .beginShutdown _ | .waitForIdle | .pollIdle _ | .expireIdle _ => isTrue nofun

def Drain.eventualWatch (drain : Drain) : Nat :=
  ((drain.publishing.map Prod.snd).getLast?).getD drain.watch

/-- What in-order sends maintain. The last count computed is the current one,
and counts computed after a shutdown began never fall below it. -/
structure Published (drain : Drain) : Prop where
  latest : drain.eventualWatch = drain.active
  closed : ∀ index count, (.shutdown index, count) ∈ drain.publishing → drain.accepting = false
  later : ∀ earlier index count rest,
    drain.publishing = earlier ++ (.shutdown index, count) :: rest →
      drain.active ≤ count ∧ ∀ entry ∈ rest, drain.active ≤ entry.2
  returned : drain.ShutdownReturned →
    drain.active ≤ drain.watch ∧ ∀ entry ∈ drain.publishing, drain.active ≤ entry.2

theorem Published.new : Published Drain.new where
  latest := rfl
  closed := by simp [Drain.new]
  later := by simp [Drain.new]
  returned := by simp [Drain.new, Drain.ShutdownReturned]

theorem Drain.publish_oldest {drain next : Drain} {publisher : Publisher}
    (oldest : drain.publishing.head?.map Prod.fst = some publisher)
    (taken : drain.publish publisher = some next) :
    ∃ count rest, drain.publishing = (publisher, count) :: rest ∧
      { drain with watch := count, version := drain.version + 1, publishing := rest }.resume publisher =
        some next := by
  obtain ⟨entry, found, resumed⟩ := publish_cases taken
  cases queue : drain.publishing with
  | nil => simp [queue] at oldest
  | cons first rest =>
    obtain ⟨owner, count⟩ := first
    have same : owner = publisher := by simpa [queue] using oldest
    subst same
    simp only [queue, List.find?_cons_of_pos, decide_true, Option.some.injEq] at found
    subst found
    simp only [queue, List.eraseP_cons_of_pos, decide_true] at resumed
    exact ⟨count, rest, rfl, resumed⟩

theorem Drain.resume_keeps {drain next : Drain} {publisher : Publisher}
    (taken : drain.resume publisher = some next) :
    next.accepting = drain.accepting ∧ next.active = drain.active ∧ next.watch = drain.watch ∧
      next.version = drain.version ∧ next.publishing = drain.publishing ∧ next.waiters = drain.waiters ∧
      (next.shutdowns = drain.shutdowns ∨ ∃ index, publisher = .shutdown index) := by
  rcases resume_cases taken with ⟨_, _, _, _, _, _, rfl⟩ | ⟨index, _, same, _, rfl⟩
  · exact ⟨rfl, rfl, rfl, rfl, rfl, rfl, .inl rfl⟩
  · exact ⟨rfl, rfl, rfl, rfl, rfl, rfl, .inr ⟨index, same⟩⟩

theorem Published.extend {drain next : Drain} (published : Published drain) {publisher : Publisher}
    (queued : next.publishing = drain.publishing ++ [(publisher, next.active)])
    (sameWatch : next.watch = drain.watch) (lower : next.active ≤ drain.active)
    (stays : drain.accepting = false → next.accepting = false)
    (closes : ∀ index, publisher = .shutdown index → next.accepting = false)
    (completed : next.ShutdownReturned → drain.ShutdownReturned) : Published next where
  latest := by simp [Drain.eventualWatch, queued]
  closed index count member := by
    rw [queued] at member
    rcases List.mem_append.mp member with old | new
    · exact stays (published.closed index count old)
    · exact closes index (Prod.mk.inj (List.mem_singleton.mp new)).1.symm
  later earlier index count rest split := by
    -- The appended entry is the last one: it is the shutdown itself or lies behind it.
    rw [queued] at split
    rcases List.eq_nil_or_concat' rest with rfl | ⟨front, last, rfl⟩
    · obtain ⟨_, same⟩ := List.append_inj' split rfl
      have counted : next.active = count := (Prod.mk.inj (List.singleton_inj.mp same)).2
      exact ⟨Nat.le_of_eq counted, by simp⟩
    · rw [← List.cons_append, ← List.append_assoc] at split
      obtain ⟨before, same⟩ := List.append_inj' split rfl
      have final : last = (publisher, next.active) := (List.singleton_inj.mp same).symm
      obtain ⟨first, others⟩ := published.later earlier index count front before
      refine ⟨Nat.le_trans lower first, ?_⟩
      intro entry member
      rcases List.mem_append.mp member with old | new
      · exact Nat.le_trans lower (others entry old)
      · obtain rfl := (List.mem_singleton.mp new).trans final
        exact Nat.le_refl _
  returned after := by
    obtain ⟨watch, entries⟩ := published.returned (completed after)
    refine ⟨by rw [sameWatch]; exact Nat.le_trans lower watch, ?_⟩
    intro entry member
    rw [queued] at member
    rcases List.mem_append.mp member with old | new
    · exact Nat.le_trans lower (entries entry old)
    · obtain rfl := List.mem_singleton.mp new
      exact Nat.le_refl _

theorem Published.frame {drain next : Drain} (published : Published drain)
    (sameGate : next.accepting = drain.accepting) (sameActive : next.active = drain.active)
    (sameWatch : next.watch = drain.watch) (sameQueue : next.publishing = drain.publishing)
    (completed : next.ShutdownReturned → drain.ShutdownReturned) : Published next where
  latest := by simpa [Drain.eventualWatch, sameQueue, sameWatch, sameActive] using published.latest
  closed := by simpa [sameGate, sameQueue] using published.closed
  later := by simpa [sameActive, sameQueue] using published.later
  returned after := by
    simpa [sameActive, sameWatch, sameQueue] using published.returned (completed after)

theorem Drain.ShutdownReturned.begun {drain : Drain} (returned : drain.ShutdownReturned) :
    drain.ShutdownBegun := by
  obtain ⟨index, active, selected⟩ := returned
  exact ⟨_, List.mem_of_getElem? selected, nofun⟩

theorem Drain.ShutdownReturned.of_append {drain : Drain}
    (returned : { drain with shutdowns := drain.shutdowns ++ [Shutdown.requested] }.ShutdownReturned) :
    drain.ShutdownReturned := by
  obtain ⟨index, active, selected⟩ := returned
  by_cases old : index < drain.shutdowns.length
  · exact ⟨index, active, by rwa [List.getElem?_append_left old] at selected⟩
  · have member := List.mem_of_getElem? selected
    rw [List.getElem?_append_right (by omega)] at selected
    simpa using List.mem_of_getElem? selected

theorem Drain.ShutdownReturned.of_announce {drain : Drain} {index : Nat}
    (returned : { drain with
      shutdowns := drain.shutdowns.set index (.announced drain.active) }.ShutdownReturned) :
    drain.ShutdownReturned := by
  obtain ⟨position, active, selected⟩ := returned
  by_cases same : index = position
  · subst same
    rcases List.mem_or_eq_of_mem_set (List.mem_of_getElem? selected) with old | new
    · rw [List.getElem?_set_self'] at selected
      cases current : drain.shutdowns[index]? <;> simp [current] at selected
    · cases new
  · exact ⟨position, active, by rwa [List.getElem?_set_ne same] at selected⟩

theorem Published.publish {drain next : Drain} (published : Published drain) {publisher : Publisher}
    (oldest : drain.publishing.head?.map Prod.fst = some publisher)
    (taken : drain.publish publisher = some next) : Published next := by
  obtain ⟨count, rest, queue, resumed⟩ := Drain.publish_oldest oldest taken
  obtain ⟨sameGate, sameActive, sameWatch, _, sameQueue, _, shutdowns⟩ := Drain.resume_keeps resumed
  simp only at sameGate sameActive sameWatch sameQueue shutdowns
  constructor
  · have latest := published.latest
    simp only [Drain.eventualWatch, queue, sameQueue, sameWatch, sameActive] at latest ⊢
    cases rest with
    | nil => simpa using latest
    | cons second others => simpa [List.getLast?_cons] using latest
  · intro index entry member
    rw [sameGate]
    exact published.closed index entry (by rw [queue]; rw [sameQueue] at member; exact List.mem_cons_of_mem _ member)
  · intro earlier index entry others split
    rw [sameActive]
    exact published.later ((publisher, count) :: earlier) index entry others
      (by rw [queue]; rw [sameQueue] at split; rw [split]; rfl)
  · intro after
    rw [sameActive, sameWatch, sameQueue]
    rcases shutdowns with same | ⟨index, rfl⟩
    · have before : drain.ShutdownReturned := by simpa [Drain.ShutdownReturned, same] using after
      obtain ⟨_, entries⟩ := published.returned before
      rw [queue] at entries
      exact ⟨entries _ List.mem_cons_self, fun entry member => entries entry (List.mem_cons_of_mem _ member)⟩
    -- The shutdown was the oldest entry, so everything unsent lies behind it.
    · exact published.later [] index count rest queue

theorem Published.admission {drain next : Drain} (published : Published drain) {publisher : Publisher}
    (queued : next.publishing = drain.publishing ++ [(publisher, next.active)])
    (isCall : ∀ index, publisher ≠ .shutdown index) (openGate : drain.accepting = true)
    (pending : ¬ next.ShutdownReturned) : Published next := by
  have none : ∀ index count, (.shutdown index, count) ∉ next.publishing := by
    intro index count member
    rw [queued] at member
    rcases List.mem_append.mp member with old | new
    · simp [published.closed index count old] at openGate
    · exact isCall index (Prod.mk.inj (List.mem_singleton.mp new)).1.symm
  refine ⟨by simp [Drain.eventualWatch, queued], ?_, ?_, fun returned => absurd returned pending⟩
  · intro index count member
    exact absurd member (none index count)
  · intro earlier index count rest split
    exact absurd (by rw [split]; simp) (none index count)

theorem Published.step {drain next : Drain} {action : Action} (accounted : Accounted drain)
    (published : Published drain) (inOrder : SendsInOrder drain action)
    (taken : machine.step drain action = some next) : Published next := by
  have gate := (accounted.step taken).closed
  cases Drain.step_effect taken with
  | admits selected accepting =>
    refine published.admission rfl (fun _ => nofun) accepting fun returned => ?_
    exact Bool.noConfusion (accepting.symm.trans (gate returned.begun))
  | releases selected => exact published.extend rfl rfl (Nat.sub_le _ _) id (fun _ => nofun) id
  | announces selected =>
    exact published.extend rfl rfl (Nat.le_refl _) (fun _ => rfl) (fun _ _ => rfl)
      Drain.ShutdownReturned.of_announce
  | publishes sends found resumed =>
    subst sends
    exact published.publish (inOrder _ rfl) taken
  | requests => exact published.frame rfl rfl rfl rfl Drain.ShutdownReturned.of_append
  | appears | moves _ _ _ | observes => exact published.frame rfl rfl rfl rfl id

structure Attentive (drain : Drain) : Prop where
  bounded : ∀ waiter ∈ drain.waiters, ∀ seen, waiter = .waiting seen → seen ≤ drain.version
  busy : .waiting drain.version ∈ drain.waiters → drain.watch ≠ 0

theorem Attentive.new : Attentive Drain.new where
  bounded := by simp [Drain.new]
  busy := by simp [Drain.new]

theorem Attentive.frame {drain next : Drain} (attentive : Attentive drain)
    (sameWatch : next.watch = drain.watch) (sameVersion : next.version = drain.version)
    (sameWaiters : next.waiters = drain.waiters) : Attentive next where
  bounded := by simpa [sameWaiters, sameVersion] using attentive.bounded
  busy := by simpa [sameWaiters, sameVersion, sameWatch] using attentive.busy

theorem Drain.checkIdle_waiting {drain : Drain} {seen : Nat} (checked : drain.checkIdle = .waiting seen) :
    seen = drain.version ∧ drain.watch ≠ 0 := by
  unfold checkIdle at checked
  split at checked
  · cases checked
  · next busy => exact ⟨(Waiter.waiting.inj checked).symm, busy⟩

theorem Drain.checkIdle_returned {drain : Drain} :
    drain.checkIdle = .returned true ↔ drain.watch = 0 := by
  unfold checkIdle
  split
  · next idle => simp [idle]
  · next busy => simp [busy]

theorem Attentive.observe {drain : Drain} (attentive : Attentive drain) {index : Nat} {waiter : Waiter}
    (checked : ∀ seen, waiter = .waiting seen → seen = drain.version ∧ drain.watch ≠ 0) :
    Attentive { drain with waiters := drain.waiters.set index waiter } where
  bounded := by
    apply forall_set index attentive.bounded
    intro seen waiting
    exact Nat.le_of_eq (checked seen waiting).1
  busy member := by
    rcases List.mem_or_eq_of_mem_set member with old | new
    · exact attentive.busy old
    · exact (checked _ new.symm).2

theorem Attentive.step {drain next : Drain} {action : Action} (attentive : Attentive drain)
    (taken : machine.step drain action = some next) : Attentive next := by
  cases action with
  | waitForIdle =>
    cases Option.some.inj taken
    constructor
    · intro waiter member seen waiting
      rcases List.mem_append.mp member with old | new
      · exact attentive.bounded waiter old seen waiting
      · rw [List.mem_singleton.mp new] at waiting
        cases waiting
    · intro member
      rcases List.mem_append.mp member with old | new
      · exact attentive.busy old
      · cases List.mem_singleton.mp new
  | pollIdle index =>
    obtain ⟨_, rfl⟩ := Drain.pollIdle_cases taken
    exact attentive.observe fun seen checked => Drain.checkIdle_waiting checked
  | expireIdle index =>
    obtain ⟨_, _, rfl⟩ := Drain.expireIdle_cases taken
    exact attentive.observe fun seen expired => nomatch expired
  | publish publisher =>
    obtain ⟨entry, _, resumed⟩ := Drain.publish_cases taken
    obtain ⟨_, _, _, version, _, waiters, _⟩ := Drain.resume_keeps resumed
    -- The channel has a version no waiter can have seen yet.
    constructor
    · intro waiter member seen waiting
      rw [waiters] at member
      have old := attentive.bounded waiter member seen waiting
      rw [version]
      exact Nat.le_succ_of_le old
    · intro member
      rw [waiters, version] at member
      have old := attentive.bounded _ member _ rfl
      exact absurd old (Nat.not_succ_le_self _)
  | enter index =>
    obtain ⟨_, _, ⟨_, _, rfl⟩ | ⟨_, rfl⟩⟩ := Drain.enter_cases taken
    · exact attentive.frame rfl rfl rfl
    · exact attentive.frame rfl rfl rfl
  | innerReturns index outcome =>
    obtain ⟨_, _, rfl⟩ := Drain.innerReturns_cases taken
    exact attentive.frame rfl rfl rfl
  | cancel index =>
    obtain ⟨_, _, _, _, _, rfl⟩ := Drain.cancel_cases taken
    exact attentive.frame rfl rfl rfl
  | leave index =>
    obtain ⟨_, _, _, rfl⟩ := Drain.leave_cases taken
    exact attentive.frame rfl rfl rfl
  | beginShutdown index =>
    obtain ⟨_, rfl⟩ := Drain.beginShutdown_cases taken
    exact attentive.frame rfl rfl rfl
  | invoke | requestShutdown =>
    cases Option.some.inj taken
    exact attentive.frame rfl rfl rfl

/-- What the handle promises about the published count. -/
structure PublicationContract (drain : Drain) : Prop where
  agrees : drain.Settled → drain.watch = drain.active
  /-- After a shutdown returned, no check of `wait_for_idle` reports idle
  while an admitted call is unfinished. -/
  never_early : drain.ShutdownReturned → ∀ (index : Nat) (next : Drain),
    machine.step drain (.pollIdle index) = some next →
      next.waiters[index]? = some (.returned true) → drain.admittedUnfinished = 0
  exact_when_settled : drain.ShutdownReturned → drain.Settled → ∀ (index : Nat) (next : Drain),
    machine.step drain (.pollIdle index) = some next →
      (next.waiters[index]? = some (.returned true) ↔ drain.admittedUnfinished = 0)
  /-- A waiter is left without a check to make only while a call is unfinished. -/
  never_stuck : drain.ShutdownReturned → drain.Settled → ∀ (index seen : Nat),
    drain.waiters[index]? = some (.waiting seen) →
      machine.step drain (.pollIdle index) = none → drain.admittedUnfinished ≠ 0

theorem Published.agrees {drain : Drain} (published : Published drain) (settled : drain.Settled) :
    drain.watch = drain.active := by
  have latest := published.latest
  rw [Drain.Settled] at settled
  simpa [Drain.eventualWatch, settled] using latest

theorem Drain.poll_reports {drain next : Drain} {index : Nat}
    (taken : machine.step drain (.pollIdle index) = some next) :
    next.waiters[index]? = some (.returned true) ↔ drain.watch = 0 := by
  obtain ⟨ready, rfl⟩ := pollIdle_cases taken
  have bound : index < drain.waiters.length := by
    rcases ready with selected | ⟨_, selected, _⟩
    · exact (List.getElem?_eq_some_iff.mp selected).1
    · exact (List.getElem?_eq_some_iff.mp selected).1
  rw [List.getElem?_set_self bound, Option.some.injEq]
  exact checkIdle_returned

theorem Drain.poll_blocked {drain : Drain} {index seen : Nat}
    (waiting : drain.waiters[index]? = some (.waiting seen))
    (blocked : machine.step drain (.pollIdle index) = none) : seen = drain.version := by
  by_contra unseen
  simp [machine, step, pollIdle, waiting, unseen] at blocked

/-- In every schedule whose sends keep the order of the critical sections, the
published count is right. -/
theorem drain_publication_in_order (schedule : List Action) (drain : Drain)
    (execution : machine.RunsWhere SendsInOrder Drain.new schedule drain) :
    PublicationContract drain := by
  have invariant : (Accounted drain ∧ Published drain) ∧ Attentive drain := by
    refine execution.preserves
      (motive := fun drain => (Accounted drain ∧ Published drain) ∧ Attentive drain)
      (fun _ _ _ before inOrder taken => ?_) ⟨⟨Accounted.new, Published.new⟩, Attentive.new⟩
    obtain ⟨⟨accounted, published⟩, attentive⟩ := before
    exact ⟨⟨accounted.step taken, published.step accounted inOrder taken⟩, attentive.step taken⟩
  obtain ⟨⟨accounted, published⟩, attentive⟩ := invariant
  constructor
  · exact published.agrees
  · intro returned index next taken reported
    -- After the shutdown the channel never shows less than the real count.
    have idle := (Drain.poll_reports taken).mp reported
    have bound := (published.returned returned).1
    rw [← accounted.counted]
    omega
  · intro _ settled index next taken
    rw [Drain.poll_reports taken, published.agrees settled, accounted.counted]
  · intro _ settled index seen waiting blocked
    -- A blocked waiter has seen the current version, which was not zero.
    have current := Drain.poll_blocked waiting blocked
    subst current
    rw [← accounted.counted, ← published.agrees settled]
    exact attentive.busy (List.mem_of_getElem? waiting)

def sentInOrder : List Action :=
  [.invoke, .enter 0, .publish (.call 0), .invoke, .enter 1, .requestShutdown, .beginShutdown 0,
    .publish (.call 1), .publish (.shutdown 0), .cancel 0, .leave 0, .publish (.call 0)]

def drainedToOne : Drain :=
  { accepting := false, active := 1, watch := 1, version := 4, publishing := []
    calls := [⟨.ended none, true⟩, ⟨.running, true⟩], shutdowns := [.returned 2], waiters := [] }

theorem drain_publication_drained_to_one :
    machine.RunsWhere SendsInOrder Drain.new sentInOrder drainedToOne ∧
      PublicationContract drainedToOne :=
  ⟨.of_runWhere (by decide), drain_publication_in_order sentInOrder drainedToOne (.of_runWhere (by decide))⟩

/-- The first call has left the critical section of its drop but not sent its
zero when the second call enters, sends, and the shutdown comes and goes. -/
def staleZero : List Action :=
  [.invoke, .enter 0, .publish (.call 0), .innerReturns 0 (.err .failed), .leave 0,
    .invoke, .enter 1, .publish (.call 1), .requestShutdown, .beginShutdown 0, .publish (.shutdown 0),
    .publish (.call 0)]

def idleWhileRunning : Drain :=
  { accepting := false, active := 1, watch := 0, version := 4, publishing := []
    calls := [⟨.ended (some (.err .failed)), true⟩, ⟨.running, true⟩]
    shutdowns := [.returned 1], waiters := [] }

def staleOne : List Action :=
  [.invoke, .enter 0, .publish (.call 0), .invoke, .enter 1, .publish (.call 1),
    .requestShutdown, .beginShutdown 0, .publish (.shutdown 0),
    .cancel 0, .leave 0, .cancel 1, .leave 1, .publish (.call 1), .publish (.call 0)]

def busyWhileIdle : Drain :=
  { accepting := false, active := 0, watch := 1, version := 5, publishing := []
    calls := [⟨.ended none, true⟩, ⟨.ended none, true⟩], shutdowns := [.returned 2], waiters := [] }

/-- Settled after a returned shutdown, the channel may say idle while an
admitted call runs, and busy after the last one ended. -/
theorem drain_publication_overtaken :
    (machine.run Drain.new staleZero = some idleWhileRunning ∧ idleWhileRunning.Settled ∧
      idleWhileRunning.ShutdownReturned ∧ idleWhileRunning.watch ≠ idleWhileRunning.active ∧
      idleWhileRunning.admittedUnfinished = 1 ∧
      machine.run idleWhileRunning [.waitForIdle, .pollIdle 0] =
        some { idleWhileRunning with waiters := [.returned true] }) ∧
    (machine.run Drain.new staleOne = some busyWhileIdle ∧ busyWhileIdle.Settled ∧
      busyWhileIdle.ShutdownReturned ∧ busyWhileIdle.admittedUnfinished = 0 ∧
      machine.run busyWhileIdle [.waitForIdle, .pollIdle 0, .expireIdle 0] =
        some { busyWhileIdle with waiters := [.returned false] } ∧
      machine.run busyWhileIdle [.waitForIdle, .pollIdle 0, .pollIdle 0] = none) := by
  refine ⟨⟨by decide, rfl, ⟨0, 1, rfl⟩, by decide, by decide, by decide⟩,
    ⟨by decide, rfl, ⟨0, 2, rfl⟩, by decide, by decide, by decide⟩⟩

end ElectrumPrivateRelay.Relay.Draining

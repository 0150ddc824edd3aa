import ElectrumPrivateRelay.Proxy.Connection

/-! What can cut a relay call short.

The client task is aborted by the supervisor only, and only after the writer or
the upstream task has finished or the whole connection was dropped. Until then
every call that was started is answered or still being attended to.
-/

set_option autoImplicit false

namespace ElectrumPrivateRelay.Proxy
open Json Protocol Semantics

def ClientPhase.unanswered : ClientPhase → Nat
  | .relaying _ _ | .releasing _ _ | .responding _ => 1
  | _ => 0

def answers (sent : List Sent) : List Sent := sent.filter fun last => last.origin = .answer

@[simp] theorem answers_snoc (sent : List Sent) (last : Sent) :
    (answers (sent ++ [last])).length =
      (answers sent).length + if last.origin = .answer then 1 else 0 := by
  simp only [answers, List.filter_append, List.length_append]
  split <;> simp [*]

namespace Connection

variable {json : SerdeJson} {limits : ConnectionLimits} {state next : Connection}

/-- None of the events that make the supervisor abort the client task. -/
structure Undisrupted (state : Connection) : Prop where
  writer : state.writer.phase.isEnded = false
  upstream : state.upstream.phase.isEnded = false
  supervisor : state.supervisor.phase ≠ .cancelled

theorem ClientEffect.supervision {action : ClientAction}
    (effect : state.ClientEffect json limits action next) :
    next.writer = state.writer ∧ next.supervisor = state.supervisor := by
  cases effect <;> exact ⟨rfl, rfl⟩

theorem UpstreamEffect.supervision {action : UpstreamAction}
    (effect : state.UpstreamEffect json limits action next) :
    next.writer = state.writer ∧ next.supervisor = state.supervisor := by
  cases effect <;> exact ⟨rfl, rfl⟩

theorem UpstreamEffect.running {action : UpstreamAction}
    (effect : state.UpstreamEffect json limits action next)
    (after : next.upstream.phase.isEnded = false) : state.upstream.phase.isEnded = false := by
  cases effect with
  | read phase | took phase _ | dropped phase _ | sent phase _ | refused phase _ =>
    rw [phase]
    rfl
  | cancelled _ => cases after

theorem writerStep_supervision {action : WriterAction} (taken : state.writerStep action = some next) :
    next.supervisor = state.supervisor ∧ state.writer.phase.isEnded = false := by
  cases action with
  | receive | write _ | failWrite | finish _ =>
    simp only [writerStep] at taken
    repeat' (split at taken)
    all_goals cases taken
    all_goals simp [*, WriterPhase.isEnded]
  | cancel =>
    simp only [writerStep] at taken
    split at taken
    · next both =>
      cases taken
      exact ⟨rfl, by simpa using (Bool.and_eq_true_iff.mp both).2⟩
    · cases taken

/-- The supervisor aborts the client task in three places. -/
structure SupervisorEffect (state next : Connection) : Prop where
  writer : next.writer = state.writer
  running : state.supervisor.phase ≠ .cancelled
  aborts : next.supervisor.clientAborted = true → state.supervisor.clientAborted = true ∨
    state.writer.phase.isEnded = true ∨ state.upstream.phase.isEnded = true ∨
    next.supervisor.phase = .cancelled

theorem supervisorStep_effect {action : SupervisorAction}
    (taken : state.supervisorStep action = some next) : SupervisorEffect state next := by
  cases action with
  | select finished =>
    simp only [supervisorStep] at taken
    split at taken
    · next both =>
      obtain ⟨selecting, ended⟩ := both
      cases taken
      have live : state.supervisor.phase ≠ .cancelled := by
        rw [selecting]
        intro same
        cases same
      refine ⟨rfl, live, ?_⟩
      cases finished with
      | writer => exact fun _ => .inr (.inl ended)
      | upstream => exact fun _ => .inr (.inr (.inl ended))
      | client => exact .inl
    · cases taken
  | joined | flushed | expire =>
    simp only [supervisorStep] at taken
    repeat' (split at taken)
    all_goals cases taken
    all_goals exact ⟨rfl, by simp [*], .inl⟩
  | cancel =>
    simp only [supervisorStep] at taken
    split at taken
    · cases taken
    · cases taken
    · next running =>
      cases taken
      exact ⟨rfl, running, fun _ => .inr (.inr (.inr rfl))⟩

theorem Undisrupted.before {action : Action} (after : Undisrupted next)
    (taken : state.step json limits action = some next) : Undisrupted state := by
  cases action with
  | client _ =>
    have effect := step_client taken
    obtain ⟨writer, supervisor⟩ := effect.supervision
    exact ⟨writer ▸ after.writer, effect.upstream_eq ▸ after.upstream, supervisor ▸ after.supervisor⟩
  | upstream _ =>
    have effect := step_upstream taken
    obtain ⟨writer, supervisor⟩ := effect.supervision
    exact ⟨writer ▸ after.writer, effect.running after.upstream, supervisor ▸ after.supervisor⟩
  | writer _ =>
    obtain ⟨supervisor, running⟩ := writerStep_supervision taken
    exact ⟨running, (writerStep_undisturbed taken).upstream ▸ after.upstream, supervisor ▸ after.supervisor⟩
  | supervisor _ =>
    have effect := supervisorStep_effect taken
    exact ⟨effect.writer ▸ after.writer, (supervisorStep_undisturbed taken).upstream ▸ after.upstream,
      effect.running⟩
  | beginShutdown =>
    cases taken
    exact ⟨after.writer, after.upstream, after.supervisor⟩

/-- The client task is at work and no call it started is forgotten. -/
structure Attended (state : Connection) : Prop where
  notAborted : state.supervisor.clientAborted = false
  notCancelled : state.client.phase.isCancelled = false
  answered : state.client.relayCalls.length =
    (answers state.sent).length + state.client.phase.unanswered

structure BetweenCalls (phase : ClientPhase) : Prop where
  unanswered : phase.unanswered = 0
  running : phase.isCancelled = false

theorem takenUpPhase_betweenCalls (json : SerdeJson) (frame : List UInt8) :
    BetweenCalls (takenUpPhase json frame) := by
  unfold takenUpPhase
  repeat' split
  all_goals exact ⟨rfl, rfl⟩

theorem read_betweenCalls (json : SerdeJson) (limits : ConnectionLimits) (task : ClientTask) :
    BetweenCalls (task.read json limits).phase ∧
      (task.read json limits).relayCalls = task.relayCalls := by
  unfold ClientTask.read
  split
  · exact ⟨takenUpPhase_betweenCalls json _, rfl⟩
  all_goals exact ⟨⟨rfl, rfl⟩, rfl⟩

theorem reservedPhase_betweenCalls (json : SerdeJson) (frame : List UInt8) (id : Value) (key : String)
    (purpose : Purpose) (outcome : Reservation) :
    BetweenCalls (reservedPhase json frame id key purpose outcome) := by
  cases purpose <;> cases outcome <;> exact ⟨rfl, rfl⟩

theorem writingPhase_betweenCalls (remaining : List UInt8) : BetweenCalls (writingPhase remaining) := by
  unfold writingPhase
  split <;> exact ⟨rfl, rfl⟩

theorem ClientEffect.attended {action : ClientAction}
    (effect : state.ClientEffect json limits action next) (calm : Undisrupted state)
    (attended : Attended state) : Attended next := by
  obtain ⟨notAborted, notCancelled, answered⟩ := attended
  have aborted : next.supervisor.clientAborted = false := by rw [effect.supervision.2, notAborted]
  cases effect with
  | observed phase _ | writeFailed phase =>
    rw [phase] at answered
    exact ⟨aborted, rfl, answered⟩
  | read phase _ =>
    obtain ⟨between, calls⟩ := read_betweenCalls json limits state.client
    rw [phase] at answered
    exact ⟨aborted, between.running, by simp only [between.unanswered, calls, answered]; rfl⟩
  | @reserved frame id key purpose outcome _ phase _ =>
    have between := reservedPhase_betweenCalls json frame id key purpose outcome
    rw [phase] at answered
    exact ⟨aborted, between.running, by
      simp only [ClientTask.reserve, between.unanswered, answered]; rfl⟩
  | @wrote remaining count phase =>
    have between := writingPhase_betweenCalls (remaining.drop count)
    rw [phase] at answered
    exact ⟨aborted, between.running, by simp only [between.unanswered, answered]; rfl⟩
  | called phase =>
    rw [phase] at answered
    exact ⟨aborted, rfl, by simp [answered, ClientPhase.unanswered]⟩
  | returned phase | returnedUnkeyed phase | released phase =>
    rw [phase] at answered
    exact ⟨aborted, rfl, answered⟩
  | answered phase _ =>
    rw [phase] at answered
    exact ⟨aborted, rfl, by simp [enterClient, push, answered, ClientPhase.unanswered]⟩
  | noticed phase _ =>
    rw [phase] at answered
    exact ⟨aborted, rfl, by simp [enterClient, push, answered, ClientPhase.unanswered]⟩
  -- The channel is open while the writer runs, and nobody has aborted the task.
  | refused _ closed =>
    rw [calm.writer] at closed
    cases closed
  | cancelled cut _ =>
    rw [notAborted] at cut
    cases cut

theorem UpstreamEffect.answers_eq {action : UpstreamAction}
    (effect : state.UpstreamEffect json limits action next) :
    (answers next.sent).length = (answers state.sent).length := by
  cases effect with
  | sent _ _ => simp [enterUpstream, push]
  | read _ | took _ _ | dropped _ _ | refused _ _ | cancelled _ => rfl

theorem step_attended {action : Action} (before : Undisrupted state → Attended state)
    (taken : state.step json limits action = some next) (after : Undisrupted next) : Attended next := by
  have calm := after.before taken
  have attended := before calm
  cases action with
  | client _ => exact (step_client taken).attended calm attended
  | upstream _ =>
    have effect := step_upstream taken
    constructor
    · rw [effect.supervision.2]
      exact attended.notAborted
    · rw [effect.client_eq]
      exact attended.notCancelled
    · rw [effect.client_eq, effect.answers_eq]
      exact attended.answered
  | writer _ =>
    have quiet := writerStep_undisturbed taken
    refine ⟨?_, quiet.client ▸ attended.notCancelled, quiet.client ▸ quiet.sent ▸ attended.answered⟩
    rw [(writerStep_supervision taken).1]
    exact attended.notAborted
  | supervisor _ =>
    have quiet := supervisorStep_undisturbed taken
    have effect := supervisorStep_effect taken
    refine ⟨?_, quiet.client ▸ attended.notCancelled, quiet.client ▸ quiet.sent ▸ attended.answered⟩
    -- Each of the three reasons to abort is one of the events excluded.
    by_contra aborted
    rcases effect.aborts (by simpa using aborted) with earlier | ended | ended | cancelled
    · rw [attended.notAborted] at earlier
      cases earlier
    · rw [calm.writer] at ended
      cases ended
    · rw [calm.upstream] at ended
      cases ended
    · exact after.supervisor cancelled
  | beginShutdown =>
    cases taken
    exact ⟨attended.notAborted, attended.notCancelled, attended.answered⟩

/-- As long as the writer and the upstream task run and the connection is not
dropped, every call that was started has its response in the channel or is the
one the client task is at. -/
theorem started_calls_attended (json : SerdeJson) (limits : ConnectionLimits)
    (clientInput upstreamInput : Input) (schedule : List Action) (state : Connection)
    (execution : (machine json limits).run (.new clientInput upstreamInput) schedule = some state)
    (calm : Undisrupted state) : Attended state :=
  (machine json limits).run_preserves (motive := fun later => Undisrupted later → Attended later)
    (fun _ _ _ before taken => step_attended before taken) (fun _ => ⟨rfl, rfl, rfl⟩) execution calm

def callSchedule : List Action := [.client .read, .client .reserve, .client .call]

theorem started_calls_attended_while_relaying :
    ∃ state, (machine .reference ⟨1024, 8⟩).run
        (.new ⟨broadcastRequest, .closed⟩ ⟨[], .closed⟩) callSchedule = some state ∧
      state.client.relayCalls = ["00aa"] ∧ Attended state := by
  have outcome : ((machine .reference ⟨1024, 8⟩).run
      (.new ⟨broadcastRequest, .closed⟩ ⟨[], .closed⟩) callSchedule).map
        (fun state => (state.client.relayCalls, state.writer.phase, state.upstream.phase,
          state.supervisor.phase)) =
      some (["00aa"], .receiving, .reading, .selecting) := by decide +kernel
  obtain ⟨state, execution, same⟩ := Option.map_eq_some_iff.mp outcome
  simp only [Prod.mk.injEq] at same
  obtain ⟨calls, writer, upstream, supervisor⟩ := same
  refine ⟨state, execution, calls, started_calls_attended _ _ _ _ _ _ execution ⟨?_, ?_, ?_⟩⟩
  · rw [writer]; rfl
  · rw [upstream]; rfl
  · rw [supervisor]; nofun

theorem upstream_end_cancels_call :
    ∃ state, (machine .reference ⟨1024, 8⟩).run
        (.new ⟨broadcastRequest, .closed⟩ ⟨[], .closed⟩)
        (callSchedule ++ [.upstream .read, .supervisor (.select .upstream), .client .cancel]) =
          some state ∧
      state.client.relayCalls = ["00aa"] ∧ answers state.sent = [] ∧
      state.writer.phase.isEnded = false ∧ state.supervisor.phase ≠ .cancelled ∧
      state.client.phase.isCancelled = true := by
  have outcome : ((machine .reference ⟨1024, 8⟩).run
      (.new ⟨broadcastRequest, .closed⟩ ⟨[], .closed⟩)
      (callSchedule ++ [.upstream .read, .supervisor (.select .upstream), .client .cancel])).map
        (fun state => (state.client.relayCalls, answers state.sent, state.writer.phase.isEnded,
          state.supervisor.phase, state.client.phase.isCancelled)) =
      some (["00aa"], [], false, .joining .upstream, true) := by decide +kernel
  obtain ⟨state, execution, same⟩ := Option.map_eq_some_iff.mp outcome
  simp only [Prod.mk.injEq] at same
  obtain ⟨calls, none, writer, supervisor, cancelled⟩ := same
  exact ⟨state, execution, calls, none, writer, by rw [supervisor]; nofun, cancelled⟩

end Connection

end ElectrumPrivateRelay.Proxy

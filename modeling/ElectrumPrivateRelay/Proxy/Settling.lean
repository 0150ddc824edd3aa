import ElectrumPrivateRelay.Proxy.Supervision
import ElectrumPrivateRelay.Proxy.WalletStream
import ElectrumPrivateRelay.Semantics.Progress
import ElectrumPrivateRelay.Semantics.Slots

/-! A connection comes to its end.

What is left to do shrinks with every step: each task has a bounded number of
steps for each byte it still has to read, and the writer one for each byte and
each frame that was sent. As long as a task has not ended, some task can move,
even when the channel is full.
-/

set_option autoImplicit false

namespace ElectrumPrivateRelay.Proxy
open Json Protocol Relay Semantics

def ClientPhase.work : ClientPhase → Nat
  | .reserving frame _ _ _ => frame.length + 7
  | .calling _ _ _ => 6
  | .relaying _ _ => 5
  | .releasing _ _ => 4
  | .responding _ => 3
  | .writing remaining => remaining.length + 2
  | .reading => 2
  | .closing _ => 1
  | .ended _ => 0

def ClientTask.work (task : ClientTask) : Nat := 8 * task.input.bytes.length + task.phase.work

def UpstreamPhase.work : UpstreamPhase → Nat
  | .locking frame _ => frame.length + 4
  | .sending frame _ => frame.length + 3
  | .reading => 1
  | .ended _ => 0

def UpstreamTask.work (task : UpstreamTask) : Nat := 5 * task.input.bytes.length + task.phase.work

def SupervisorPhase.work : SupervisorPhase → Nat
  | .selecting => 4
  | .joining _ => 3
  | .flushing => 2
  | .aborting => 1
  | .returned | .cancelled => 0

def WriterPhase.work : WriterPhase → Nat
  | .writing remaining => remaining.length + 2
  | .receiving => 2
  | .shuttingDown => 1
  | .ended _ => 0

/-- One step to take each frame out of the channel and one for each byte. -/
def frameWork (frames : List (List UInt8)) : Nat := total (fun frame => frame.length + 1) frames

@[simp] theorem frameWork_cons (frame : List UInt8) (frames : List (List UInt8)) :
    frameWork (frame :: frames) = frame.length + 1 + frameWork frames := by
  simp [frameWork]

@[simp] theorem frameWork_snoc (frames : List (List UInt8)) (frame : List UInt8) :
    frameWork (frames ++ [frame]) = frameWork frames + (frame.length + 1) := by
  simp [frameWork]

namespace Connection

def frontWork (state : Connection) : Nat :=
  state.client.work + state.upstream.work + state.supervisor.phase.work

def writerWork (state : Connection) : Nat := state.writer.phase.work + frameWork state.output

def sentWork (state : Connection) : Nat := frameWork (state.sent.map Sent.frame)

variable {json : SerdeJson} {limits : ConnectionLimits} {state next : Connection}

theorem readFrame_shorter {maxFrameBytes : Nat} {input rest : Input} {frame : List UInt8}
    (found : readFrame maxFrameBytes input = .frame frame rest) :
    input.bytes.length = frame.length + rest.bytes.length ∧ 0 < frame.length := by
  obtain ⟨split, -, -, last⟩ := readFrame_eq_frame found
  refine ⟨by rw [split, List.length_append], ?_⟩
  cases frame with
  | nil => cases last
  | cons _ _ => exact Nat.succ_pos _

theorem takenUpPhase_work (frame : List UInt8) : (takenUpPhase json frame).work ≤ frame.length + 7 := by
  unfold takenUpPhase
  repeat' split
  all_goals
    simp only [ClientPhase.work]
    omega

theorem read_work (task : ClientTask) (phase : task.phase = .reading) :
    (task.read json limits).work < task.work := by
  have before : task.work = 8 * task.input.bytes.length + 2 := by rw [ClientTask.work, phase]; rfl
  unfold ClientTask.read
  split
  · next frame rest found =>
    obtain ⟨length, positive⟩ := readFrame_shorter found
    have bound := @takenUpPhase_work json frame
    simp only [ClientTask.work] at before ⊢
    omega
  all_goals
    simp only [ClientTask.work, ClientPhase.work] at before ⊢
    omega

theorem reservedPhase_work (frame : List UInt8) (id : Value) (key : String) (purpose : Purpose)
    (outcome : Reservation) : (reservedPhase json frame id key purpose outcome).work < frame.length + 7 := by
  cases purpose <;> cases outcome <;> simp only [reservedPhase, ClientPhase.work] <;> omega

theorem writingPhase_work (remaining : List UInt8) : (writingPhase remaining).work = remaining.length + 2 := by
  unfold writingPhase
  split
  · next empty =>
    rw [List.isEmpty_iff.mp empty]
    rfl
  · rfl

theorem upstreamRead_work (task : UpstreamTask) (phase : task.phase = .reading) :
    (task.read json limits).work < task.work := by
  have before : task.work = 5 * task.input.bytes.length + 1 := by rw [UpstreamTask.work, phase]; rfl
  unfold UpstreamTask.read
  split
  · next frame rest found =>
    obtain ⟨length, positive⟩ := readFrame_shorter found
    split
    all_goals
      simp only [UpstreamTask.work, UpstreamPhase.work] at before ⊢
      omega
  all_goals
    simp only [UpstreamTask.work, UpstreamPhase.work] at before ⊢
    omega

/-- A step outside the writer works off the front; what it puts into the channel
is new work of the writer. -/
structure SpendsFront (state next : Connection) : Prop where
  front : next.frontWork < state.frontWork
  writer : next.writerWork + state.sentWork = state.writerWork + next.sentWork

structure SpendsWriter (state next : Connection) : Prop where
  front : next.frontWork = state.frontWork
  writer : next.writerWork < state.writerWork
  sent : next.sentWork = state.sentWork

theorem SpendsFront.ofClient (client : next.client.work < state.client.work)
    (upstream : next.upstream = state.upstream) (supervisor : next.supervisor = state.supervisor)
    (same : next.writer = state.writer ∧ next.output = state.output ∧ next.sent = state.sent) :
    SpendsFront state next := by
  obtain ⟨writer, output, sent⟩ := same
  refine ⟨?_, ?_⟩
  · rw [frontWork, frontWork, upstream, supervisor]
    omega
  · rw [writerWork, writerWork, sentWork, sentWork, writer, output, sent]

theorem SpendsFront.ofUpstream (upstream : next.upstream.work < state.upstream.work)
    (client : next.client = state.client) (supervisor : next.supervisor = state.supervisor)
    (same : next.writer = state.writer ∧ next.output = state.output ∧ next.sent = state.sent) :
    SpendsFront state next := by
  obtain ⟨writer, output, sent⟩ := same
  refine ⟨?_, ?_⟩
  · rw [frontWork, frontWork, client, supervisor]
    omega
  · rw [writerWork, writerWork, sentWork, sentWork, writer, output, sent]

theorem push_work (state : Connection) (origin : Origin) (frame : List UInt8) :
    (state.push origin frame).writerWork + state.sentWork =
      state.writerWork + (state.push origin frame).sentWork := by
  simp only [push, writerWork, sentWork, frameWork_snoc, List.map_append, List.map_cons, List.map_nil]
  omega

theorem clientStep_write {count : Nat} (taken : state.clientStep json limits (.write count) = some next) :
    ∃ remaining, state.client.phase = .writing remaining ∧ 1 ≤ count ∧ count ≤ remaining.length := by
  simp only [clientStep] at taken
  split at taken
  · next remaining phase =>
    split at taken
    · next bounds => exact ⟨remaining, phase, bounds⟩
    · cases taken
  · cases taken

theorem clientStep_spends {action : ClientAction} (taken : state.clientStep json limits action = some next) :
    SpendsFront state next := by
  have effect := clientStep_effect taken
  have running := effect.running
  cases effect with
  | read phase _ => exact .ofClient (read_work state.client phase) rfl rfl ⟨rfl, rfl, rfl⟩
  | @reserved frame id key purpose outcome pending phase _ =>
    have less := @reservedPhase_work json frame id key purpose outcome
    have held : state.client.phase.work = frame.length + 7 := by rw [phase]; rfl
    refine .ofClient ?_ rfl rfl ⟨rfl, rfl, rfl⟩
    simp only [ClientTask.work, ClientTask.reserve]
    omega
  | @wrote remaining count phase =>
    obtain ⟨same, writing, some, within⟩ := clientStep_write taken
    cases phase.symm.trans writing
    have held : state.client.phase.work = remaining.length + 2 := by rw [phase]; rfl
    refine .ofClient ?_ rfl rfl ⟨rfl, rfl, rfl⟩
    simp only [ClientTask.work, writingPhase_work, List.length_drop]
    omega
  | observed phase _ | writeFailed phase | called phase | returned phase | returnedUnkeyed phase | released phase =>
    refine .ofClient ?_ rfl rfl ⟨rfl, rfl, rfl⟩
    simp only [ClientTask.work, enterClient, phase, ClientPhase.work]
    omega
  | answered phase room | noticed phase room =>
    refine ⟨?_, push_work state _ _⟩
    simp only [frontWork, enterClient, push, ClientTask.work, phase, ClientPhase.work]
    omega
  | refused phase _ =>
    refine .ofClient ?_ rfl rfl ⟨rfl, rfl, rfl⟩
    rcases phase with phase | phase
    · simp only [ClientTask.work, enterClient, phase, ClientPhase.work]
      omega
    · simp only [ClientTask.work, enterClient, phase, ClientPhase.work]
      omega
  | cancelled _ _ =>
    refine .ofClient ?_ rfl rfl ⟨rfl, rfl, rfl⟩
    cases phase : state.client.phase with
    | ended _ =>
      rw [phase] at running
      cases running
    | reading | reserving _ _ _ _ | writing _ | calling _ _ _ | relaying _ _ | releasing _ _ | responding _
    | closing _ =>
      simp only [ClientTask.work, enterClient, phase, ClientPhase.work]
      omega

theorem upstreamStep_running {action : UpstreamAction} (taken : state.upstreamStep json limits action = some next) :
    state.upstream.phase.isEnded = false := by
  cases phase : state.upstream.phase with
  | ended _ => cases action <;> simp [upstreamStep, phase, UpstreamPhase.isEnded] at taken
  | reading | locking _ _ | sending _ _ => rfl

theorem upstreamStep_spends {action : UpstreamAction} (taken : state.upstreamStep json limits action = some next) :
    SpendsFront state next := by
  have running := upstreamStep_running taken
  cases upstreamStep_effect taken with
  | read phase => exact .ofUpstream (upstreamRead_work state.upstream phase) rfl rfl ⟨rfl, rfl, rfl⟩
  | took phase _ | dropped phase _ | refused phase _ =>
    refine .ofUpstream ?_ rfl rfl ⟨rfl, rfl, rfl⟩
    simp only [UpstreamTask.work, enterUpstream, phase, UpstreamPhase.work]
    omega
  | sent phase _ =>
    refine ⟨?_, push_work state _ _⟩
    simp only [frontWork, enterUpstream, push, UpstreamTask.work, phase, UpstreamPhase.work]
    omega
  | cancelled _ =>
    refine .ofUpstream ?_ rfl rfl ⟨rfl, rfl, rfl⟩
    cases phase : state.upstream.phase with
    | ended _ =>
      rw [phase] at running
      cases running
    | reading | locking _ _ | sending _ _ =>
      simp only [UpstreamTask.work, enterUpstream, phase, UpstreamPhase.work]
      omega

theorem writerStep_spends {action : WriterAction} (taken : state.writerStep action = some next) :
    SpendsWriter state next := by
  cases writerStep_effect taken with
  | received phase queued =>
    refine ⟨rfl, ?_, rfl⟩
    simp only [writerWork, phase, queued, WriterPhase.work, frameWork_cons]
    omega
  | drained phase _ _ _ | writeFailed phase | finished phase _ =>
    refine ⟨rfl, ?_, rfl⟩
    simp only [writerWork, phase, WriterPhase.work]
    omega
  | @wrote remaining count phase some within =>
    refine ⟨rfl, ?_, rfl⟩
    simp only [writerWork, phase]
    split
    · simp only [WriterPhase.work]
      omega
    · simp only [WriterPhase.work, List.length_drop]
      omega
  | cancelled _ running =>
    refine ⟨rfl, ?_, rfl⟩
    cases phase : state.writer.phase with
    | ended _ =>
      rw [phase] at running
      cases running
    | receiving | writing _ | shuttingDown =>
      simp only [writerWork, phase, WriterPhase.work]
      omega

theorem supervisorStep_spends {action : SupervisorAction} (taken : state.supervisorStep action = some next) :
    SpendsFront state next := by
  obtain ⟨supervisor, rfl⟩ := supervisorStep_only taken
  have less : supervisor.phase.work < state.supervisor.phase.work := by
    cases action with
    | select finished =>
      simp only [supervisorStep] at taken
      split at taken
      · next both =>
        cases taken
        rw [both.1]
        cases finished <;> simp [Supervisor.abortSiblings, SupervisorPhase.work]
      · cases taken
    | joined | flushed | expire =>
      simp only [supervisorStep] at taken
      repeat' (split at taken)
      all_goals cases taken
      all_goals simp_all [SupervisorPhase.work]
    | cancel =>
      cases phase : state.supervisor.phase with
      | returned | cancelled => simp [supervisorStep, phase] at taken
      | selecting | joining _ | flushing | aborting =>
        simp only [supervisorStep, phase] at taken
        cases taken
        exact Nat.succ_pos _
  refine ⟨?_, rfl⟩
  simp only [frontWork]
  omega

structure Settled (state : Connection) : Prop where
  client : state.client.phase.isEnded = true
  upstream : state.upstream.phase.isEnded = true
  writer : state.writer.phase.isEnded = true
  supervisor : state.supervisor.phase = .returned ∨ state.supervisor.phase = .cancelled

def ChannelFull (state : Connection) : Prop :=
  state.writer.phase.isEnded = false ∧ outputCapacity ≤ state.output.length

theorem enqueue_moves (clear : ¬ state.ChannelFull) (origin : Origin) (frame : List UInt8)
    (closed delivered : Connection → Connection) : ∃ next, state.enqueue origin frame closed delivered = some next := by
  unfold enqueue
  split
  · exact ⟨_, rfl⟩
  · next running =>
    split
    · exact ⟨_, rfl⟩
    · next full => exact absurd ⟨by simpa using running, Nat.le_of_not_lt full⟩ clear

theorem client_moves (json : SerdeJson) (limits : ConnectionLimits) (running : state.client.phase.isEnded = false)
    (clear : ¬ state.ChannelFull) : ∃ action next, state.clientStep json limits action = some next := by
  cases phase : state.client.phase with
  | reading =>
    cases flag : state.shutdown with
    | true => exact ⟨.observeShutdown, _, by simp only [clientStep, phase, flag]; rfl⟩
    | false => exact ⟨.read, _, by simp only [clientStep, phase, flag]; rfl⟩
  | reserving _ _ _ _ => exact ⟨.reserve, _, by simp only [clientStep, phase]; rfl⟩
  | writing _ => exact ⟨.failWrite, _, by simp only [clientStep, phase]; rfl⟩
  | calling _ _ _ => exact ⟨.call, _, by simp only [clientStep, phase]; rfl⟩
  | relaying _ key =>
    cases key with
    | none => exact ⟨.relayReturns (.err .failed), _, by simp only [clientStep, phase]; rfl⟩
    | some _ => exact ⟨.relayReturns (.err .failed), _, by simp only [clientStep, phase]; rfl⟩
  | releasing _ _ => exact ⟨.release, _, by simp only [clientStep, phase]; rfl⟩
  | responding response =>
    obtain ⟨next, taken⟩ := enqueue_moves clear .answer response (enterClient (.ended .ok)) (enterClient .reading)
    exact ⟨.send, next, by simp only [clientStep, phase, taken]⟩
  | closing response =>
    obtain ⟨next, taken⟩ := enqueue_moves clear .notice response (enterClient (.ended .ok)) (enterClient (.ended .ok))
    exact ⟨.send, next, by simp only [clientStep, phase, taken]⟩
  | ended _ =>
    rw [phase] at running
    cases running

theorem upstream_moves (json : SerdeJson) (limits : ConnectionLimits)
    (running : state.upstream.phase.isEnded = false) (clear : ¬ state.ChannelFull) :
    ∃ action next, state.upstreamStep json limits action = some next := by
  cases phase : state.upstream.phase with
  | reading => exact ⟨.read, _, by simp only [upstreamStep, phase]; rfl⟩
  | locking _ key =>
    cases decided : takeResponse state.pending key with
    | mk forwards pending =>
      cases forwards with
      | true => exact ⟨.lock, _, by simp only [upstreamStep, phase, decided]; rfl⟩
      | false => exact ⟨.lock, _, by simp only [upstreamStep, phase, decided]; rfl⟩
  | sending frame key =>
    obtain ⟨next, taken⟩ :=
      enqueue_moves clear (.upstream key) frame (enterUpstream (.ended .ok)) (enterUpstream .reading)
    exact ⟨.send, next, by simp only [upstreamStep, phase, taken]⟩
  | ended _ =>
    rw [phase] at running
    cases running

theorem writer_moves (running : state.writer.phase.isEnded = false)
    (due : state.output ≠ [] ∨ (state.client.phase.isEnded = true ∧ state.upstream.phase.isEnded = true)) :
    ∃ action next, state.writerStep action = some next := by
  cases phase : state.writer.phase with
  | receiving =>
    cases output : state.output with
    | nil =>
      rcases due with some | ⟨client, upstream⟩
      · exact absurd output some
      · exact ⟨.receive, _, by simp only [writerStep, phase, output, client, upstream]; rfl⟩
    | cons frame rest => exact ⟨.receive, _, by simp only [writerStep, phase, output]; rfl⟩
  | writing _ => exact ⟨.failWrite, _, by simp only [writerStep, phase]; rfl⟩
  | shuttingDown => exact ⟨.finish .ok, _, by simp only [writerStep, phase]; rfl⟩
  | ended _ =>
    rw [phase] at running
    cases running

theorem supervisor_moves (client : state.client.phase.isEnded = true) (upstream : state.upstream.phase.isEnded = true)
    (writer : state.writer.phase.isEnded = true) :
    state.Settled ∨ ∃ action next, state.supervisorStep action = some next := by
  cases phase : state.supervisor.phase with
  | selecting =>
    have enabled : state.supervisor.phase = .selecting ∧ state.hasFinished .client = true := ⟨phase, client⟩
    exact .inr ⟨.select .client, _, if_pos enabled⟩
  | joining finished =>
    cases finished with
    | writer => exact .inr ⟨.joined, _, by simp only [supervisorStep, phase, upstream, client]; rfl⟩
    | upstream => exact .inr ⟨.joined, _, by simp only [supervisorStep, phase, client]; rfl⟩
    | client => exact .inr ⟨.joined, _, by simp only [supervisorStep, phase, upstream]; rfl⟩
  | flushing => exact .inr ⟨.flushed, _, by simp only [supervisorStep, phase, writer]; rfl⟩
  | aborting => exact .inr ⟨.flushed, _, by simp only [supervisorStep, phase, writer]; rfl⟩
  | returned => exact .inl ⟨client, upstream, writer, .inl phase⟩
  | cancelled => exact .inl ⟨client, upstream, writer, .inr phase⟩

/-- What is left in front of the writer, and then what is left to it. -/
def rank (state : Connection) : Nat × Nat := (state.frontWork, state.writerWork)

abbrev Lower : Nat × Nat → Nat × Nat → Prop := Prod.Lex (· < ·) (· < ·)

theorem lower_wellFounded : WellFounded Lower := (Prod.lex Nat.lt_wfRel Nat.lt_wfRel).wf

theorem SpendsFront.lower (spends : SpendsFront state next) : Lower next.rank state.rank :=
  .left _ _ spends.front

theorem SpendsWriter.lower (spends : SpendsWriter state next) : Lower next.rank state.rank := by
  rw [rank, rank, spends.front]
  exact .right _ spends.writer

theorem step_lower {action : Action} (other : action ≠ .beginShutdown)
    (taken : state.step json limits action = some next) : Lower next.rank state.rank := by
  cases action with
  | client move => exact (clientStep_spends taken).lower
  | upstream move => exact (upstreamStep_spends taken).lower
  | writer move => exact (writerStep_spends taken).lower
  | supervisor move => exact (supervisorStep_spends taken).lower
  | beginShutdown => exact absurd rfl other

theorem beginShutdown_rank (json : SerdeJson) (limits : ConnectionLimits)
    (taken : state.step json limits .beginShutdown = some next) : next.rank = state.rank := by
  cases taken
  rfl

theorem settled_or_moves (json : SerdeJson) (limits : ConnectionLimits) (state : Connection) :
    state.Settled ∨ ∃ action next, action ≠ .beginShutdown ∧ state.step json limits action = some next := by
  by_cases full : state.ChannelFull
  · -- The writer is there and has something to take.
    have some : state.output ≠ [] := by
      rintro none
      have capacity := full.2
      rw [none] at capacity
      cases capacity
    obtain ⟨action, next, taken⟩ := writer_moves full.1 (.inl some)
    exact .inr ⟨.writer action, next, nofun, taken⟩
  cases client : state.client.phase.isEnded with
  | false =>
    obtain ⟨action, next, taken⟩ := client_moves json limits client full
    exact .inr ⟨.client action, next, nofun, taken⟩
  | true =>
    cases upstream : state.upstream.phase.isEnded with
    | false =>
      obtain ⟨action, next, taken⟩ := upstream_moves json limits upstream full
      exact .inr ⟨.upstream action, next, nofun, taken⟩
    | true =>
      cases writer : state.writer.phase.isEnded with
      | false =>
        obtain ⟨action, next, taken⟩ := writer_moves writer (.inr ⟨client, upstream⟩)
        exact .inr ⟨.writer action, next, nofun, taken⟩
      | true =>
        rcases supervisor_moves client upstream writer with settled | ⟨action, next, taken⟩
        · exact .inl settled
        · exact .inr ⟨.supervisor action, next, nofun, taken⟩

theorem step_pays {action : Action} (taken : state.step json limits action = some next) :
    (if action ≠ .beginShutdown then 1 else 0) + (next.frontWork + next.writerWork) + state.sentWork ≤
      state.frontWork + state.writerWork + next.sentWork := by
  cases action with
  | client move =>
    obtain ⟨front, writer⟩ := clientStep_spends taken
    rw [if_pos nofun]
    omega
  | upstream move =>
    obtain ⟨front, writer⟩ := upstreamStep_spends taken
    rw [if_pos nofun]
    omega
  | writer move =>
    obtain ⟨front, writer, sent⟩ := writerStep_spends taken
    rw [if_pos nofun]
    omega
  | supervisor move =>
    obtain ⟨front, writer⟩ := supervisorStep_spends taken
    rw [if_pos nofun]
    omega
  | beginShutdown =>
    cases taken
    rw [if_neg (fun other => other rfl), Nat.zero_add]
    exact Nat.le_refl _

theorem Settled.stuck (settled : state.Settled) {action : Action} (other : action ≠ .beginShutdown) :
    state.step json limits action = none := by
  obtain ⟨client, upstream, writer, supervisor⟩ := settled
  cases taken : state.step json limits action with
  | none => rfl
  | some next =>
    cases action with
    | client move =>
      rw [(step_client taken).running] at client
      cases client
    | upstream move =>
      rw [upstreamStep_running taken] at upstream
      cases upstream
    | writer move =>
      rw [(writerStep_supervision taken).2] at writer
      cases writer
    | supervisor move =>
      rcases supervisor with phase | phase <;> cases move <;> simp [step, supervisorStep, phase] at taken
    | beginShutdown => exact absurd rfl other

structure Settles (json : SerdeJson) (limits : ConnectionLimits) (clientInput upstreamInput : Input)
    (schedule : List Action) (state : Connection) : Prop where
  /-- No run is longer than its input and its output allow. -/
  bounded : schedule.countP (· ≠ .beginShutdown) ≤
    8 * clientInput.bytes.length + 5 * upstreamInput.bytes.length + 9 + frameWork (state.sent.map Sent.frame)
  founded : Acc ((machine json limits).Follows (· ≠ .beginShutdown)) state
  /-- A run that never ends only announces the shutdown from some step on. -/
  ends : ∀ states actions, states 0 = state → (machine json limits).IsEndless states actions →
    ∃ stop, ∀ index, stop ≤ index → actions index = .beginShutdown
  /-- Nothing can be done any more only when everything is done. -/
  stuck : (∀ action, action ≠ .beginShutdown → state.step json limits action = none) ↔ state.Settled
  completes : ∃ more final, (machine json limits).run state more = some final ∧ final.Settled

theorem connection_settles (json : SerdeJson) (limits : ConnectionLimits) (clientInput upstreamInput : Input)
    (schedule : List Action) (state : Connection)
    (execution : (machine json limits).run (.new clientInput upstreamInput) schedule = some state) :
    Settles json limits clientInput upstreamInput schedule state := by
  constructor
  · have bound := (machine json limits).run_bounded (fun later => later.frontWork + later.writerWork) sentWork
      (fun action => decide (action ≠ .beginShutdown))
      (fun _ _ _ taken => by simpa using step_pays taken) execution
    have start : frontWork (.new clientInput upstreamInput) + writerWork (.new clientInput upstreamInput) =
        8 * clientInput.bytes.length + 5 * upstreamInput.bytes.length + 9 := by
      simp only [frontWork, writerWork, new, ClientTask.work, UpstreamTask.work, ClientPhase.work, UpstreamPhase.work,
        SupervisorPhase.work, WriterPhase.work, frameWork, total_nil]
      omega
    have nothing : sentWork (.new clientInput upstreamInput) = 0 := rfl
    simp only [start, nothing] at bound
    have now : sentWork state = frameWork (state.sent.map Sent.frame) := rfl
    omega
  · exact (Machine.wellFounded_follows lower_wellFounded fun _ _ _ => step_lower).apply state
  · intro states actions _ endless
    refine endless.eventually_idle lower_wellFounded ?_ fun _ _ _ => step_lower
    rintro before action next rfl taken
    exact beginShutdown_rank json limits taken
  · constructor
    · intro stuck
      rcases settled_or_moves json limits state with settled | ⟨action, next, other, taken⟩
      · exact settled
      · rw [stuck action other] at taken
        cases taken
    · exact fun settled action other => settled.stuck other
  · refine (machine json limits).exists_run_of_progress lower_wellFounded rank ?_ state
    intro later
    rcases settled_or_moves json limits later with settled | ⟨action, next, other, taken⟩
    · exact .inl settled
    · exact .inr ⟨action, next, taken, step_lower other taken⟩

def brokenSchedule : List Action :=
  [.client .read, .client .send, .supervisor (.select .client), .writer .receive, .upstream .cancel,
    .supervisor .joined, .writer .failWrite, .supervisor .flushed]

theorem connection_settles_when_broken :
    ∃ state, (machine .reference ⟨1024, 8⟩).run (.new ⟨utf8 "?", .closed⟩ ⟨[], .closed⟩) brokenSchedule = some state ∧
      state.supervisor.phase = .returned ∧
      Settles .reference ⟨1024, 8⟩ ⟨utf8 "?", .closed⟩ ⟨[], .closed⟩ brokenSchedule state := by
  have outcome : ((machine .reference ⟨1024, 8⟩).run (.new ⟨utf8 "?", .closed⟩ ⟨[], .closed⟩) brokenSchedule).map
      (fun state => state.supervisor.phase) = some .returned := by decide +kernel
  obtain ⟨state, execution, returned⟩ := Option.map_eq_some_iff.mp outcome
  exact ⟨state, execution, returned, connection_settles _ _ _ _ _ _ execution⟩

end Connection

end ElectrumPrivateRelay.Proxy

import ElectrumPrivateRelay.Proxy.ChunkedFrames
import ElectrumPrivateRelay.Proxy.LocalResponses

/-! What the wallet receives.

Two tasks share one bounded channel to the writer. Whatever they interleave,
the wallet finds whole frames in the order in which they were put into the
channel, and those of the upstream in the order in which the upstream sent them.
-/

set_option autoImplicit false

namespace ElectrumPrivateRelay.Proxy
open Json Protocol Relay Semantics

/-- One line: its only newline is its last byte. -/
def IsFrame (frame : List UInt8) : Prop := ∃ body, frame = body ++ [newline] ∧ newline ∉ body

theorem lines_of_frames {frames : List (List UInt8)} (framed : ∀ frame ∈ frames, IsFrame frame)
    {bytes : List UInt8} (front : bytes <+: frames.flatten) :
    ∃ later, frames = (lines bytes).1 ++ later ∧ (lines bytes).2 <+: later.flatten := by
  induction frames generalizing bytes with
  | nil =>
    obtain rfl := List.prefix_nil.mp front
    exact ⟨[], rfl, List.prefix_refl []⟩
  | cons frame frames ih =>
    obtain ⟨body, rfl, clear⟩ := framed _ List.mem_cons_self
    have others : ∀ frame ∈ frames, IsFrame frame := fun frame member => framed frame (List.mem_cons_of_mem _ member)
    rw [List.flatten_cons] at front
    rcases List.prefix_or_prefix_of_prefix front (List.prefix_append (body ++ [newline]) frames.flatten) with
      short | ⟨rest, rfl⟩
    · rcases List.prefix_concat_iff.mp short with rfl | inside
      · rw [lines_line [] clear]
        exact ⟨frames, rfl, List.nil_prefix⟩
      · -- the first frame has not come through to its end
        rw [lines_clear fun member => clear (inside.mem member)]
        exact ⟨(body ++ [newline]) :: frames, rfl, by rwa [List.flatten_cons]⟩
    · obtain ⟨later, same, started⟩ := ih others ((List.prefix_append_right_inj _).mp front)
      rw [List.append_assoc, List.singleton_append, lines_line rest clear]
      exact ⟨later, congrArg _ same, started⟩

theorem lines_flatten_frames {frames : List (List UInt8)} (framed : ∀ frame ∈ frames, IsFrame frame) :
    lines frames.flatten = (frames, []) := by
  induction frames with
  | nil => rfl
  | cons frame frames ih =>
    obtain ⟨body, rfl, clear⟩ := framed _ List.mem_cons_self
    have others : ∀ frame ∈ frames, IsFrame frame := fun frame member => framed frame (List.mem_cons_of_mem _ member)
    rw [List.flatten_cons, List.append_assoc, List.singleton_append, lines_line frames.flatten clear, ih others]

def WriterPhase.unwritten : WriterPhase → List UInt8
  | .writing remaining => remaining
  | _ => []

def WriterPhase.isThrough : WriterPhase → Bool
  | .shuttingDown | .ended .ok => true
  | _ => false

namespace Connection

variable {json : SerdeJson} {limits : ConnectionLimits} {state next : Connection}

inductive WriterEffect (state : Connection) : WriterAction → Connection → Prop where
  | received {frame : List UInt8} {rest : List (List UInt8)} (phase : state.writer.phase = .receiving)
      (queued : state.output = frame :: rest) :
      WriterEffect state .receive
        { state with writer := { state.writer with phase := .writing frame }, output := rest }
  | drained (phase : state.writer.phase = .receiving) (empty : state.output = [])
      (client : state.client.phase.isEnded = true) (upstream : state.upstream.phase.isEnded = true) :
      WriterEffect state .receive { state with writer := { state.writer with phase := .shuttingDown } }
  | wrote {remaining : List UInt8} {count : Nat} (phase : state.writer.phase = .writing remaining)
      (some : 1 ≤ count) (within : count ≤ remaining.length) :
      WriterEffect state (.write count) { state with writer := {
        phase := if (remaining.drop count).isEmpty then .receiving else .writing (remaining.drop count)
        walletBytes := state.writer.walletBytes ++ remaining.take count } }
  | writeFailed {remaining : List UInt8} (phase : state.writer.phase = .writing remaining) :
      WriterEffect state .failWrite { state with writer := { state.writer with phase := .ended .error } }
  | finished {result : TaskEnd} (phase : state.writer.phase = .shuttingDown) (which : result = .ok ∨ result = .error) :
      WriterEffect state (.finish result) { state with writer := { state.writer with phase := .ended result } }
  | cancelled (aborted : state.supervisor.writerAborted = true) (running : state.writer.phase.isEnded = false) :
      WriterEffect state .cancel { state with writer := { state.writer with phase := .ended .cancelled } }

theorem writerStep_effect {action : WriterAction} (taken : state.writerStep action = some next) :
    state.WriterEffect action next := by
  cases action with
  | receive =>
    simp only [writerStep] at taken
    split at taken
    · next phase queued =>
      cases taken
      exact .received phase queued
    · next phase empty =>
      split at taken
      · next both =>
        cases taken
        obtain ⟨client, upstream⟩ := Bool.and_eq_true_iff.mp both
        exact .drained phase empty client upstream
      · cases taken
    · cases taken
  | write count =>
    simp only [writerStep] at taken
    split at taken
    · next phase =>
      split at taken
      · next bounds =>
        cases taken
        exact .wrote phase bounds.1 bounds.2
      · cases taken
    · cases taken
  | failWrite =>
    simp only [writerStep] at taken
    split at taken
    · next phase =>
      cases taken
      exact .writeFailed phase
    · cases taken
  | finish result =>
    simp only [writerStep] at taken
    split at taken
    · next phase =>
      cases taken
      exact .finished phase (.inl rfl)
    · next phase =>
      cases taken
      exact .finished phase (.inr rfl)
    · cases taken
  | cancel =>
    simp only [writerStep] at taken
    split at taken
    · next both =>
      cases taken
      simp only [Bool.and_eq_true, Bool.not_eq_true'] at both
      exact .cancelled both.1 both.2
    · cases taken

end Connection

def ClientPhase.Prepared : ClientPhase → Prop
  | .reserving _ id _ _ | .calling id _ _ | .relaying id _ => id.IsScalar
  | .releasing _ response | .responding response | .closing response => IsFrame response
  | .reading | .writing _ | .ended _ => True

/-- The frame of the upstream that is between the socket and the channel. -/
def UpstreamPhase.holding : UpstreamPhase → List (List UInt8)
  | .locking frame _ | .sending frame _ => [frame]
  | .reading | .ended _ => []

def Sent.upstreamFrame (sent : Sent) : Option (List UInt8) :=
  match sent.origin with
  | .upstream _ => some sent.frame
  | .answer | .notice => none

def upstreamFrames (sent : List Sent) : List (List UInt8) := sent.filterMap Sent.upstreamFrame

@[simp] theorem upstreamFrames_snoc (sent : List Sent) (last : Sent) :
    upstreamFrames (sent ++ [last]) = upstreamFrames sent ++ last.upstreamFrame.toList := by
  cases same : last.upstreamFrame <;> simp [upstreamFrames, same]

def sentBytes (sent : List Sent) : List UInt8 := (sent.map Sent.frame).flatten

@[simp] theorem sentBytes_snoc (sent : List Sent) (last : Sent) :
    sentBytes (sent ++ [last]) = sentBytes sent ++ last.frame := by
  simp [sentBytes]

section
variable {json : SerdeJson}

theorem response_isFrame (compact : json.PrintsCompactly) {error : ProtocolError} (scalar : error.id.IsScalar) :
    IsFrame (error.response json) := (response_carries compact scalar).framed

theorem takenUpPhase_prepared (compact : json.PrintsCompactly) (frame : List UInt8) :
    (takenUpPhase json frame).Prepared := by
  unfold takenUpPhase
  split
  · trivial
  · next id classified =>
    split
    · exact passthroughId_scalar classified
    · trivial
  · next id rawTransaction classified =>
    split
    · exact broadcastId_scalar classified
    · exact broadcastId_scalar classified
  · next error classified => exact response_isFrame compact (protocolError_scalar classified)

theorem read_prepared (compact : json.PrintsCompactly) (limits : ConnectionLimits) (task : ClientTask) :
    (task.read json limits).phase.Prepared := by
  unfold ClientTask.read
  split
  · exact takenUpPhase_prepared compact _
  · trivial
  · exact @response_isFrame json compact invalidRequest trivial
  · trivial

theorem reservedPhase_prepared (compact : json.PrintsCompactly) {id : Value} (scalar : id.IsScalar)
    (frame : List UInt8) (key : String) (purpose : Purpose) (outcome : Reservation) :
    (reservedPhase json frame id key purpose outcome).Prepared := by
  have invalid : IsFrame (invalidFrameResponse json) := @response_isFrame json compact invalidRequest trivial
  have full : IsFrame (pendingRequestLimitResponse json id) := @response_isFrame json compact (windowFull id) scalar
  cases outcome with
  | reserved =>
    cases purpose with
    | query => trivial
    | broadcast rawTransaction => exact scalar
  | duplicate => cases purpose <;> exact invalid
  | limitExceeded => cases purpose <;> exact full

theorem writingPhase_prepared (remaining : List UInt8) : (writingPhase remaining).Prepared := by
  unfold writingPhase
  split <;> trivial

end

namespace Connection

variable {json : SerdeJson} {limits : ConnectionLimits} {state next : Connection}

theorem ClientEffect.prepared (compact : json.PrintsCompactly) {action : ClientAction}
    (effect : state.ClientEffect json limits action next) (prepared : state.client.phase.Prepared) :
    next.client.phase.Prepared := by
  cases effect with
  | observed _ _ | writeFailed _ | answered _ _ | noticed _ _ | refused _ _ | cancelled _ _ => trivial
  | read _ _ => exact read_prepared compact limits state.client
  | reserved phase _ =>
    rw [phase] at prepared
    exact reservedPhase_prepared compact prepared _ _ _ _
  | wrote _ => exact writingPhase_prepared _
  | called phase | released phase =>
    rw [phase] at prepared
    exact prepared
  | returned phase | returnedUnkeyed phase =>
    rw [phase] at prepared
    exact (relayResponse_carries compact prepared _).framed

/-- The channel and the writer hold what was sent and not yet written, in order. -/
structure Queues (state : Connection) : Prop where
  framed : ∀ sent ∈ state.sent, IsFrame sent.frame
  queued : state.writer.phase.isEnded = false →
    state.writer.walletBytes ++ (state.writer.phase.unwritten ++ state.output.flatten) = sentBytes state.sent
  written : state.writer.walletBytes <+: sentBytes state.sent
  through : state.writer.phase.isThrough = true →
    state.client.phase.isEnded = true ∧ state.upstream.phase.isEnded = true ∧
      state.writer.walletBytes = sentBytes state.sent
  room : state.output.length ≤ outputCapacity

theorem Queues.keep (queues : Queues state)
    (same : next.writer = state.writer ∧ next.output = state.output ∧ next.sent = state.sent)
    (client : state.client.phase.isEnded = true → next.client.phase.isEnded = true)
    (upstream : state.upstream.phase.isEnded = true → next.upstream.phase.isEnded = true) : Queues next := by
  obtain ⟨writer, output, sent⟩ := same
  constructor
  · rw [sent]
    exact queues.framed
  · rw [writer, output, sent]
    exact queues.queued
  · rw [writer, sent]
    exact queues.written
  · rw [writer, sent]
    intro done
    obtain ⟨first, second, all⟩ := queues.through done
    exact ⟨client first, upstream second, all⟩
  · rw [output]
    exact queues.room

/-- A frame goes behind all others. A task that can still send keeps the writer
from being through. -/
theorem Queues.push (queues : Queues state) (room : state.HasRoom) {frame : List UInt8} (framed : IsFrame frame)
    (running : state.client.phase.isEnded = false ∨ state.upstream.phase.isEnded = false) (origin : Origin) :
    Queues (state.push origin frame) := by
  constructor
  · intro sent member
    rcases List.mem_append.mp member with earlier | last
    · exact queues.framed sent earlier
    · obtain rfl := List.mem_singleton.mp last
      exact framed
  · intro live
    have before := queues.queued live
    simp only [Connection.push, sentBytes_snoc, List.flatten_append, List.flatten_singleton, ← before,
      List.append_assoc]
  · simp only [Connection.push, sentBytes_snoc]
    exact queues.written.trans (List.prefix_append _ _)
  · intro done
    obtain ⟨client, upstream, -⟩ := queues.through done
    rcases running with running | running
    · rw [running] at client
      cases client
    · rw [running] at upstream
      cases upstream
  · have space := room.2
    simp only [Connection.push, List.length_append, List.length_singleton]
    omega

theorem WriterEffect.queues {action : WriterAction} (effect : state.WriterEffect action next)
    (queues : Queues state) : Queues next := by
  cases effect with
  | received phase output =>
    have live : state.writer.phase.isEnded = false := by rw [phase]; rfl
    have before := queues.queued live
    have room := queues.room
    rw [phase, output] at before
    rw [output, List.length_cons] at room
    refine ⟨queues.framed, fun _ => ?_, queues.written, nofun, ?_⟩
    · simpa [WriterPhase.unwritten] using before
    · simp only
      omega
  | drained phase empty client upstream =>
    have live : state.writer.phase.isEnded = false := by rw [phase]; rfl
    have before := queues.queued live
    rw [phase, empty] at before
    have all : state.writer.walletBytes = sentBytes state.sent := by
      simpa [WriterPhase.unwritten] using before
    refine ⟨queues.framed, fun _ => ?_, queues.written, fun _ => ⟨client, upstream, all⟩, queues.room⟩
    simpa [WriterPhase.unwritten, empty] using all
  | @wrote remaining count phase _ within =>
    have live : state.writer.phase.isEnded = false := by rw [phase]; rfl
    have before := queues.queued live
    rw [phase] at before
    have left : WriterPhase.unwritten (if (remaining.drop count).isEmpty then .receiving
        else .writing (remaining.drop count)) = remaining.drop count := by
      split
      · next empty => exact (List.isEmpty_iff.mp empty).symm
      · rfl
    have split : state.writer.walletBytes ++ remaining.take count ++ (remaining.drop count ++ state.output.flatten) =
        sentBytes state.sent := by
      rw [← before, WriterPhase.unwritten, List.append_assoc, ← List.append_assoc (remaining.take count),
        List.take_append_drop]
    constructor
    · exact queues.framed
    · intro _
      simp only [left]
      exact split
    · exact ⟨_, split⟩
    · intro done
      simp only at done
      split at done <;> cases done
    · exact queues.room
  | writeFailed _ | cancelled _ _ =>
    exact ⟨queues.framed, nofun, queues.written, nofun, queues.room⟩
  | finished phase _ =>
    have done := queues.through (by rw [phase]; rfl)
    exact ⟨queues.framed, nofun, queues.written, fun _ => done, queues.room⟩

theorem ClientEffect.queues {action : ClientAction} (effect : state.ClientEffect json limits action next)
    (prepared : state.client.phase.Prepared) (queues : Queues state) : Queues next := by
  have running := effect.running
  have client : state.client.phase.isEnded = true → next.client.phase.isEnded = true := by
    rw [running]
    nofun
  cases effect with
  | observed _ _ | read _ _ | reserved _ _ | wrote _ | writeFailed _ | called _ | returned _ | returnedUnkeyed _
  | released _ | refused _ _ | cancelled _ _ => exact queues.keep ⟨rfl, rfl, rfl⟩ client id
  | answered phase room | noticed phase room =>
    rw [phase] at prepared
    refine (queues.push room prepared (.inl running) _).keep ⟨rfl, rfl, rfl⟩ ?_ id
    exact fun ended => absurd ended (Bool.eq_false_iff.mp running)

/-- The frames read from the upstream so far, those sent on among them in order. -/
structure Forwards (limits : ConnectionLimits) (upstreamInput : Input) (state : Connection)
    (frames : List (List UInt8)) : Prop where
  read : FramesRead limits.maxFrameBytes upstreamInput frames state.upstream.input
  framed : ∀ frame ∈ frames, IsFrame frame
  inOrder : (upstreamFrames state.sent ++ state.upstream.phase.holding).Sublist frames

theorem readFrame_isFrame {maxFrameBytes : Nat} {input rest : Input} {frame : List UInt8}
    (found : readFrame maxFrameBytes input = .frame frame rest) : IsFrame frame := by
  obtain ⟨-, -, -, last⟩ := readFrame_eq_frame found
  have collected : (readUntil newline ((maxFrameBytes + 1) % UInt64.size) input.bytes).1 = frame := by
    simp only [readFrame] at found
    repeat' (split at found)
    all_goals cases found
    rfl
  rcases readUntil_clear newline ((maxFrameBytes + 1) % UInt64.size) input.bytes with ⟨line, same, clear⟩ | clear
  · exact ⟨line, collected ▸ same, clear⟩
  · rw [collected] at clear
    exact absurd (List.mem_of_getLast? last) clear

variable {upstreamInput : Input} {frames : List (List UInt8)}

theorem Forwards.drop (forwards : Forwards limits upstreamInput state frames)
    (input : next.upstream.input = state.upstream.input) (sent : next.sent = state.sent)
    (holding : next.upstream.phase.holding.Sublist state.upstream.phase.holding) :
    Forwards limits upstreamInput next frames := by
  refine ⟨?_, forwards.framed, ?_⟩
  · rw [input]
    exact forwards.read
  · rw [sent]
    exact (List.Sublist.append_left holding _).trans forwards.inOrder

theorem Forwards.keep (forwards : Forwards limits upstreamInput state frames)
    (upstream : next.upstream = state.upstream) (sent : upstreamFrames next.sent = upstreamFrames state.sent) :
    Forwards limits upstreamInput next frames := by
  refine ⟨?_, forwards.framed, ?_⟩
  · rw [upstream]
    exact forwards.read
  · rw [upstream, sent]
    exact forwards.inOrder

theorem Forwards.afterRead (forwards : Forwards limits upstreamInput state frames)
    (phase : state.upstream.phase = .reading) :
    ∃ frames, Forwards limits upstreamInput { state with upstream := state.upstream.read json limits } frames := by
  have before := forwards.inOrder
  rw [phase, UpstreamPhase.holding, List.append_nil] at before
  cases found : readFrame limits.maxFrameBytes state.upstream.input with
  | frame frame rest =>
    have framed := readFrame_isFrame found
    have next : (state.upstream.read json limits).input = rest ∧
        (state.upstream.read json limits).phase.holding.Sublist [frame] := by
      simp only [UpstreamTask.read, found]
      split
      · exact ⟨rfl, List.Sublist.refl _⟩
      · exact ⟨rfl, List.Sublist.refl _⟩
      · exact ⟨rfl, List.nil_sublist _⟩
    refine ⟨frames ++ [frame], ?_, ?_, ?_⟩
    · simp only [next.1]
      exact .snoc forwards.read found
    · intro other member
      rcases List.mem_append.mp member with earlier | last
      · exact forwards.framed other earlier
      · obtain rfl := List.mem_singleton.mp last
        exact framed
    · exact before.append next.2
  | endOfStream =>
    refine ⟨frames, ?_, forwards.framed, ?_⟩
    · simpa only [UpstreamTask.read, found] using forwards.read
    · simpa only [UpstreamTask.read, found, UpstreamPhase.holding, List.append_nil] using before
  | error kind =>
    refine ⟨frames, ?_, forwards.framed, ?_⟩
    · simpa only [UpstreamTask.read, found] using forwards.read
    · simpa only [UpstreamTask.read, found, UpstreamPhase.holding, List.append_nil] using before

theorem UpstreamEffect.forwards {action : UpstreamAction} (effect : state.UpstreamEffect json limits action next)
    (forwards : Forwards limits upstreamInput state frames) :
    ∃ frames, Forwards limits upstreamInput next frames := by
  cases effect with
  | read phase => exact forwards.afterRead phase
  | took phase _ =>
    refine ⟨frames, forwards.drop rfl rfl ?_⟩
    rw [phase]
    exact List.Sublist.refl _
  | dropped _ _ | refused _ _ | cancelled _ => exact ⟨frames, forwards.drop rfl rfl (List.nil_sublist _)⟩
  | sent phase _ =>
    refine ⟨frames, forwards.read, forwards.framed, ?_⟩
    have before := forwards.inOrder
    rw [phase] at before
    simpa [enterUpstream, Connection.push, Sent.upstreamFrame, UpstreamPhase.holding] using before

theorem UpstreamEffect.queues {action : UpstreamAction} (effect : state.UpstreamEffect json limits action next)
    (forwards : Forwards limits upstreamInput state frames) (queues : Queues state) : Queues next := by
  cases effect with
  | read phase | took phase _ | dropped phase _ | refused phase _ =>
    refine queues.keep ⟨rfl, rfl, rfl⟩ id fun ended => ?_
    rw [phase] at ended
    cases ended
  | cancelled _ => exact queues.keep ⟨rfl, rfl, rfl⟩ id fun _ => rfl
  | @sent frame key phase room =>
    have running : state.upstream.phase.isEnded = false := by rw [phase]; rfl
    have member : frame ∈ frames := by
      apply forwards.inOrder.subset
      rw [phase]
      exact List.mem_append_right _ (List.mem_singleton.mpr rfl)
    refine (queues.push room (forwards.framed frame member) (.inr running) _).keep ⟨rfl, rfl, rfl⟩ id fun ended => ?_
    exact absurd ended (Bool.eq_false_iff.mp running)

theorem supervisorStep_only {action : SupervisorAction} (taken : state.supervisorStep action = some next) :
    ∃ supervisor, next = { state with supervisor } := by
  cases action <;> simp only [supervisorStep] at taken <;> repeat' (split at taken)
  all_goals
    cases taken
    try exact ⟨_, rfl⟩

structure Streams (limits : ConnectionLimits) (upstreamInput : Input) (state : Connection) : Prop where
  prepared : state.client.phase.Prepared
  queues : Queues state
  forwards : ∃ frames, Forwards limits upstreamInput state frames

theorem new_streams (clientInput upstreamInput : Input) :
    Streams limits upstreamInput (.new clientInput upstreamInput) where
  prepared := trivial
  queues :=
    { framed := fun _ member => absurd member List.not_mem_nil
      queued := fun _ => rfl
      written := List.prefix_refl _
      through := fun done => absurd done Bool.false_ne_true
      room := Nat.zero_le _ }
  forwards := ⟨[], .nil, fun _ member => absurd member List.not_mem_nil, List.nil_sublist _⟩

theorem ClientEffect.upstreamFrames_eq {action : ClientAction}
    (effect : state.ClientEffect json limits action next) :
    upstreamFrames next.sent = upstreamFrames state.sent := by
  cases effect with
  | answered _ _ | noticed _ _ => exact (upstreamFrames_snoc _ _).trans (List.append_nil _)
  | observed _ _ | read _ _ | reserved _ _ | wrote _ | writeFailed _ | called _ | returned _ | returnedUnkeyed _
  | released _ | refused _ _ | cancelled _ _ => rfl

theorem step_streams (compact : json.PrintsCompactly) {action : Action}
    (streams : Streams limits upstreamInput state) (taken : state.step json limits action = some next) :
    Streams limits upstreamInput next := by
  obtain ⟨prepared, queues, frames, forwards⟩ := streams
  cases action with
  | client move =>
    have effect := step_client taken
    exact ⟨effect.prepared compact prepared, effect.queues prepared queues,
      frames, forwards.keep effect.upstream_eq effect.upstreamFrames_eq⟩
  | upstream move =>
    have effect := step_upstream taken
    refine ⟨?_, effect.queues forwards queues, effect.forwards forwards⟩
    rw [effect.client_eq]
    exact prepared
  | writer move =>
    have quiet := writerStep_undisturbed taken
    refine ⟨?_, (writerStep_effect taken).queues queues, frames, forwards.keep quiet.upstream ?_⟩
    · rw [quiet.client]
      exact prepared
    · rw [quiet.sent]
  | supervisor move =>
    obtain ⟨supervisor, rfl⟩ := supervisorStep_only taken
    exact ⟨prepared, queues.keep ⟨rfl, rfl, rfl⟩ id id, frames, forwards.keep rfl rfl⟩
  | beginShutdown =>
    cases taken
    exact ⟨prepared, queues.keep ⟨rfl, rfl, rfl⟩ id id, frames, forwards.keep rfl rfl⟩

structure DeliversInOrder (limits : ConnectionLimits) (upstreamInput : Input) (state : Connection) : Prop where
  /-- The wallet has whole frames, and of the next one no more than its front. -/
  delivered : ∃ later, state.sent.map Sent.frame = (lines state.writer.walletBytes).1 ++ later ∧
    (lines state.writer.walletBytes).2 <+: later.flatten
  /-- The rest is still on its way while there is a writer. -/
  queued : state.writer.phase.isEnded = false →
    state.writer.walletBytes ++ (state.writer.phase.unwritten ++ state.output.flatten) = sentBytes state.sent
  /-- A writer that returns leaves nothing behind, and nothing comes after it. -/
  complete : state.writer.phase = .ended .ok →
    lines state.writer.walletBytes = (state.sent.map Sent.frame, []) ∧
      state.client.phase.isEnded = true ∧ state.upstream.phase.isEnded = true
  upstream : ∃ frames, FramesRead limits.maxFrameBytes upstreamInput frames state.upstream.input ∧
    (upstreamFrames state.sent).Sublist frames
  room : state.output.length ≤ outputCapacity

theorem run_streams (compact : json.PrintsCompactly) {clientInput : Input} {schedule : List Action}
    (execution : (machine json limits).run (.new clientInput upstreamInput) schedule = some state) :
    Streams limits upstreamInput state :=
  (machine json limits).run_preserves (motive := Streams limits upstreamInput) (fun _ _ _ => step_streams compact)
    (new_streams clientInput upstreamInput) execution

theorem Queues.framed_sent (queues : Queues state) : ∀ frame ∈ state.sent.map Sent.frame, IsFrame frame := by
  intro frame member
  obtain ⟨sent, inside, rfl⟩ := List.mem_map.mp member
  exact queues.framed sent inside

theorem run_delivered (compact : json.PrintsCompactly) {clientInput : Input} {schedule : List Action}
    (execution : (machine json limits).run (.new clientInput upstreamInput) schedule = some state) :
    ∃ later, state.sent.map Sent.frame = (lines state.writer.walletBytes).1 ++ later ∧
      (lines state.writer.walletBytes).2 <+: later.flatten := by
  have queues := (run_streams compact execution).queues
  exact lines_of_frames queues.framed_sent queues.written

theorem wallet_stream_in_order (json : SerdeJson) (compact : json.PrintsCompactly) (limits : ConnectionLimits)
    (clientInput upstreamInput : Input) (schedule : List Action) (state : Connection)
    (execution : (machine json limits).run (.new clientInput upstreamInput) schedule = some state) :
    DeliversInOrder limits upstreamInput state := by
  obtain ⟨-, queues, frames, forwards⟩ := run_streams compact execution
  constructor
  · exact run_delivered compact execution
  · exact queues.queued
  · intro ended
    obtain ⟨client, upstream, all⟩ := queues.through (by rw [ended]; rfl)
    refine ⟨?_, client, upstream⟩
    rw [all]
    exact lines_flatten_frames queues.framed_sent
  · exact ⟨frames, forwards.read, (List.sublist_append_left _ _).trans forwards.inOrder⟩
  · exact queues.room

def writtenSchedule : List Action :=
  walletSchedule ++ [.writer .receive, .writer (.write 25), .writer .receive, .writer (.write 10)]

theorem wallet_stream_in_order_of_wallet :
    ∃ state, (machine .reference ⟨1024, 8⟩).run (.new walletInput ⟨[], .closed⟩) writtenSchedule = some state ∧
      state.sent.length = 2 ∧ (lines state.writer.walletBytes).1.length = 1 ∧
      (lines state.writer.walletBytes).2.length = 10 ∧ DeliversInOrder ⟨1024, 8⟩ ⟨[], .closed⟩ state := by
  have outcome : ((machine .reference ⟨1024, 8⟩).run (.new walletInput ⟨[], .closed⟩) writtenSchedule).map
      (fun state => (state.sent.length, (lines state.writer.walletBytes).1.length,
        (lines state.writer.walletBytes).2.length)) = some (2, 1, 10) := by decide +kernel
  obtain ⟨state, execution, same⟩ := Option.map_eq_some_iff.mp outcome
  obtain ⟨sent, rest⟩ := Prod.mk.inj same
  obtain ⟨whole, front⟩ := Prod.mk.inj rest
  exact ⟨state, execution, sent, whole, front,
    wallet_stream_in_order .reference SerdeJson.reference_printsCompactly _ _ _ _ _ execution⟩

end Connection

end ElectrumPrivateRelay.Proxy

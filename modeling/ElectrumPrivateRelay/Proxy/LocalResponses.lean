import ElectrumPrivateRelay.Protocol.Lines
import ElectrumPrivateRelay.Proxy.Routing

/-! The responses the client task writes itself.

While the channel is open and the task is not aborted, each broadcast that was
relayed has its response in the channel, in the order of the broadcasts, and a
frame that ends the task adds one error after them.
-/

set_option autoImplicit false

namespace ElectrumPrivateRelay.Proxy
open Json Protocol Relay Semantics

section Asked

variable (json : SerdeJson)

/-- The identifier a relayed broadcast is answered under. -/
def Intake.answerId : Intake → List Value
  | .frame bytes reservation =>
    match classify json bytes with
    | .ok (.broadcast .null _) => [.null]
    | .ok (.broadcast id _) => if reservation = some .reserved then [id] else []
    | .ok (.passthrough _) | .error _ => []
  | .endOfStream | .unreadable _ => []

def windowFull (id : Value) : ProtocolError := ⟨id, -32092, "too many pending requests"⟩

/-- The error a frame ends the task with. -/
def Intake.refusal : Intake → Option ProtocolError
  | .frame bytes reservation =>
    match classify json bytes, reservation with
    | .error error, _ => some error
    | .ok _, some .duplicate => some invalidRequest
    | .ok (.passthrough (some id)), some .limitExceeded => some (windowFull id)
    | .ok (.broadcast id _), some .limitExceeded => some (windowFull id)
    | .ok _, _ => none
  | .unreadable .invalidData => some invalidRequest
  | .unreadable .other | .endOfStream => none

def answerIds (taken : List Intake) : List Value := taken.flatMap (Intake.answerId json)

def refusals (taken : List Intake) : List ProtocolError := taken.filterMap (Intake.refusal json)

@[simp] theorem answerIds_snoc (taken : List Intake) (intake : Intake) :
    answerIds json (taken ++ [intake]) = answerIds json taken ++ intake.answerId json := by
  simp [answerIds]

@[simp] theorem refusals_snoc (taken : List Intake) (intake : Intake) :
    refusals json (taken ++ [intake]) = refusals json taken ++ (intake.refusal json).toList := by
  cases refused : intake.refusal json <;> simp [refusals, refused]

end Asked

def outcomes (schedule : List Action) : List Outcome :=
  schedule.filterMap fun
    | .client (.relayReturns outcome) => some outcome
    | _ => none

def clientFrames (sent : List Sent) : List (List UInt8) :=
  sent.filterMap fun last =>
    match last.origin with
    | .answer | .notice => some last.frame
    | .upstream _ => none

def ClientPhase.unsent : ClientPhase → List (List UInt8)
  | .releasing _ response | .responding response | .closing response => [response]
  | _ => []

def ClientPhase.unreturned : ClientPhase → List Value
  | .calling id _ _ | .relaying id _ => [id]
  | _ => []

structure Responds (json : SerdeJson) (past : List Action) (state : Connection) : Prop where
  returned : ∃ ids, answerIds json state.client.taken = ids ++ state.client.phase.unreturned ∧
    clientFrames state.sent ++ state.client.phase.unsent =
      List.zipWith (relayResponse json) ids (outcomes past) ++
        (refusals json state.client.taken).map (ProtocolError.response json) ∧
    ids.length = (outcomes past).length
  single : (refusals json state.client.taken).length ≤ 1

structure Settles (json : SerdeJson) (intake : Intake) (phase : ClientPhase) : Prop where
  answer : intake.answerId json = phase.unreturned
  refusal : (intake.refusal json).toList.map (ProtocolError.response json) = phase.unsent

variable {json : SerdeJson} {limits : ConnectionLimits}

theorem Intake.answerId_unkeyed {frame : List UInt8} {id : Value} {rawTransaction : String}
    (classified : classify json frame = .ok (.broadcast id rawTransaction))
    (unkeyed : requestIdKey json id = none) (reservation : Option Reservation) :
    (Intake.frame frame reservation).answerId json = [id] := by
  obtain rfl := broadcast_unkeyed classified unkeyed
  simp only [Intake.answerId, classified]

theorem Intake.answerId_keyed {frame : List UInt8} {id : Value} {rawTransaction key : String}
    (classified : classify json frame = .ok (.broadcast id rawTransaction))
    (keyed : requestIdKey json id = some key) (reservation : Option Reservation) :
    (Intake.frame frame reservation).answerId json = if reservation = some .reserved then [id] else [] := by
  cases id with
  | null => cases keyed
  | bool _ | number _ | string _ | array _ | object _ => simp only [Intake.answerId, classified]

theorem takenUpPhase_settles (frame : List UInt8) :
    Settles json (.frame frame none) (takenUpPhase json frame) := by
  unfold takenUpPhase
  split
  · next classified =>
    exact ⟨by simp [Intake.answerId, classified, ClientPhase.unreturned],
      by simp [Intake.refusal, classified, ClientPhase.unsent]⟩
  · next id classified =>
    split <;> exact ⟨by simp [Intake.answerId, classified, ClientPhase.unreturned],
      by simp [Intake.refusal, classified, ClientPhase.unsent]⟩
  · next id rawTransaction classified =>
    split
    · next key keyed =>
      exact ⟨by simp [Intake.answerId_keyed classified keyed, ClientPhase.unreturned],
        by simp [Intake.refusal, classified, ClientPhase.unsent]⟩
    · next unkeyed =>
      exact ⟨by simp [Intake.answerId_unkeyed classified unkeyed, ClientPhase.unreturned],
        by simp [Intake.refusal, classified, ClientPhase.unsent]⟩
  · next error classified =>
    exact ⟨by simp [Intake.answerId, classified, ClientPhase.unreturned],
      by simp [Intake.refusal, classified, ClientPhase.unsent]⟩

theorem reservedPhase_settles {taken : List Intake} {frame : List UInt8} {id : Value} {key : String}
    {purpose : Purpose} (waits : Waits json taken frame id key purpose) (outcome : Reservation) :
    Settles json (.frame frame (some outcome)) (reservedPhase json frame id key purpose outcome) := by
  obtain ⟨-, keyed, classified⟩ := waits
  cases purpose with
  | query =>
    cases outcome <;>
      exact ⟨by simp [Intake.answerId, classified, reservedPhase, ClientPhase.unreturned],
        by simp [Intake.refusal, classified, reservedPhase, ClientPhase.unsent, invalidFrameResponse,
          pendingRequestLimitResponse, windowFull, ProtocolError.response]⟩
  | broadcast rawTransaction =>
    cases outcome <;>
      exact ⟨by simp [Intake.answerId_keyed classified keyed, reservedPhase, ClientPhase.unreturned],
        by simp [Intake.refusal, classified, reservedPhase, ClientPhase.unsent, invalidFrameResponse,
          pendingRequestLimitResponse, windowFull, ProtocolError.response]⟩

theorem Waits.unsettled {taken : List Intake} {frame : List UInt8} {id : Value} {key : String}
    {purpose : Purpose} (waits : Waits json taken frame id key purpose) :
    (Intake.frame frame none).answerId json = [] ∧ (Intake.frame frame none).refusal json = none := by
  obtain ⟨-, keyed, classified⟩ := waits
  cases purpose with
  | query => simp [Intake.answerId, Intake.refusal, classified]
  | broadcast rawTransaction => simp [Intake.refusal, classified, Intake.answerId_keyed classified keyed]

theorem refusal_stops {intake : Intake} {error : ProtocolError} (refused : intake.refusal json = some error) :
    intake.stops json = true := by
  cases intake with
  | frame bytes reservation =>
    simp only [Intake.refusal] at refused
    simp only [Intake.stops]
    split at refused <;> simp_all
  | endOfStream | unreadable _ => rfl

theorem Routed.unrefused {input : Input} {task : ClientTask} (routed : Routed json limits input task)
    (live : task.phase.isStopped = false) : refusals json task.taken = [] := by
  rw [refusals, List.filterMap_eq_nil_iff]
  intro intake member
  cases refused : intake.refusal json with
  | none => rfl
  | some error =>
    have stopped := routed.stopped ⟨intake, member, refusal_stops refused⟩
    rw [live] at stopped
    cases stopped

variable {past : List Action} {state next : Connection} {input : Input}

theorem outcomes_snoc (past : List Action) (action : Action) :
    outcomes (past ++ [action]) = outcomes past ++ outcomes [action] :=
  List.filterMap_append

theorem clientFrames_snoc (sent : List Sent) (last : Sent) :
    clientFrames (sent ++ [last]) = clientFrames sent ++ clientFrames [last] :=
  List.filterMap_append

theorem Responds.settle (responds : Responds json past state) {before : List Intake} {intake : Intake}
    {phase : ClientPhase} {action : Action} (idle : state.client.phase.unreturned = [] ∧
      state.client.phase.unsent = [])
    (unrefused : refusals json state.client.taken = [])
    (ids : answerIds json before = answerIds json state.client.taken)
    (refused : refusals json before = refusals json state.client.taken)
    (settles : Settles json intake phase) (quiet : outcomes [action] = [])
    (taken : next.client.taken = before ++ [intake]) (entered : next.client.phase = phase)
    (sent : next.sent = state.sent) : Responds json (past ++ [action]) next := by
  obtain ⟨⟨returned, all, frames, counted⟩, single⟩ := responds
  rw [idle.1, List.append_nil] at all
  rw [idle.2, unrefused, List.append_nil] at frames
  constructor
  · refine ⟨returned, ?_, ?_, ?_⟩
    · rw [taken, entered, answerIds_snoc, ids, all, settles.answer]
    · rw [taken, entered, sent, refusals_snoc, refused, unrefused, List.nil_append, settles.refusal,
        outcomes_snoc, quiet, List.append_nil, frames]
      simp
    · rw [outcomes_snoc, quiet, List.append_nil, counted]
  · rw [taken, refusals_snoc, refused, unrefused, List.nil_append]
    cases intake.refusal json <;> simp

theorem Responds.keep (responds : Responds json past state) {action : Action}
    (taken : next.client.taken = state.client.taken)
    (unreturned : next.client.phase.unreturned = state.client.phase.unreturned)
    (unsent : clientFrames next.sent ++ next.client.phase.unsent =
      clientFrames state.sent ++ state.client.phase.unsent)
    (quiet : outcomes [action] = []) : Responds json (past ++ [action]) next := by
  obtain ⟨⟨returned, all, frames, counted⟩, single⟩ := responds
  constructor
  · refine ⟨returned, ?_, ?_, ?_⟩
    · rw [taken, unreturned, all]
    · rw [unsent, frames, taken, outcomes_snoc, quiet, List.append_nil]
    · rw [outcomes_snoc, quiet, List.append_nil, counted]
  · rw [taken]
    exact single

theorem Responds.afterReturn (responds : Responds json past state) {id : Value} {outcome : Outcome}
    {phase : ClientPhase} (unreturned : state.client.phase.unreturned = [id])
    (unsent : state.client.phase.unsent = []) (unrefused : refusals json state.client.taken = [])
    (entered : phase.unreturned = [] ∧ phase.unsent = [relayResponse json id outcome]) :
    Responds json (past ++ [.client (.relayReturns outcome)]) (state.enterClient phase) := by
  obtain ⟨⟨returned, all, frames, counted⟩, single⟩ := responds
  rw [unreturned] at all
  rw [unsent, unrefused, List.append_nil] at frames
  have more : outcomes [.client (.relayReturns outcome)] = [outcome] := rfl
  constructor
  · refine ⟨returned ++ [id], ?_, ?_, ?_⟩
    · simp only [Connection.enterClient, entered.1, all, List.append_nil]
    · simp only [Connection.enterClient, entered.2, unrefused, outcomes_snoc, more]
      rw [List.zipWith_append counted, frames]
      simp
    · simp [outcomes_snoc, more, counted]
  · exact single

theorem Responds.afterRead (routed : Routed json limits input state.client) (responds : Responds json past state)
    (reading : state.client.phase = .reading) :
    Responds json (past ++ [.client .read]) { state with client := state.client.read json limits } := by
  have idle : state.client.phase.unreturned = [] ∧ state.client.phase.unsent = [] := by
    rw [reading]
    exact ⟨rfl, rfl⟩
  have unrefused := routed.unrefused (by rw [reading]; rfl)
  obtain ⟨intake, taken, settles⟩ : ∃ intake, (state.client.read json limits).taken =
      state.client.taken ++ [intake] ∧ Settles json intake (state.client.read json limits).phase := by
    unfold ClientTask.read
    split
    · next frame rest found => exact ⟨_, rfl, takenUpPhase_settles frame⟩
    · exact ⟨_, rfl, rfl, rfl⟩
    · exact ⟨_, rfl, rfl, rfl⟩
    · exact ⟨_, rfl, rfl, rfl⟩
  exact responds.settle idle unrefused rfl rfl settles rfl taken rfl rfl

theorem Responds.afterReserve (routed : Routed json limits input state.client)
    (responds : Responds json past state) {frame : List UInt8} {id : Value} {key : String} {purpose : Purpose}
    (reserving : state.client.phase = .reserving frame id key purpose) (outcome : Reservation)
    (pending : PendingRequests) :
    Responds json (past ++ [.client .reserve])
      { state with client := state.client.reserve json frame id key purpose outcome, pending } := by
  have idle : state.client.phase.unreturned = [] ∧ state.client.phase.unsent = [] := by
    rw [reserving]
    exact ⟨rfl, rfl⟩
  have unrefused := routed.unrefused (by rw [reserving]; rfl)
  have waits := routed.waiting frame id key purpose reserving
  obtain ⟨before, last⟩ := waits.last
  obtain ⟨noAnswer, noRefusal⟩ := waits.unsettled
  have taken : (state.client.reserve json frame id key purpose outcome).taken =
      before ++ [.frame frame (some outcome)] := by
    simp only [ClientTask.reserve, last, List.dropLast_concat]
  refine responds.settle idle unrefused ?_ ?_ (reservedPhase_settles waits outcome) rfl taken rfl rfl
  · rw [last, answerIds_snoc, noAnswer, List.append_nil]
  · rw [last, refusals_snoc, noRefusal, Option.toList_none, List.append_nil]

namespace Connection

/-- The channel is open whenever the client task sends, and the task is not aborted. -/
def SendsOpenly (state : Connection) (action : Action) : Prop :=
  (action = .client .send → state.writer.phase.isEnded = false) ∧ action ≠ .client .cancel

instance : DecidableRel SendsOpenly := fun _ _ => inferInstanceAs (Decidable (_ ∧ _))

theorem ClientEffect.responds {action : ClientAction} (effect : state.ClientEffect json limits action next)
    (routed : Routed json limits input state.client) (openly : SendsOpenly state (.client action))
    (responds : Responds json past state) : Responds json (past ++ [.client action]) next := by
  cases effect with
  | observed phase _ | writeFailed phase | called phase | released phase =>
    refine responds.keep rfl ?_ ?_ rfl
    · rw [phase]
      rfl
    · rw [phase]
      rfl
  | read phase _ => exact responds.afterRead routed phase
  | reserved phase _ => exact responds.afterReserve routed phase _ _
  | @wrote remaining count phase =>
    refine responds.keep rfl ?_ ?_ rfl
    · rw [phase]
      simp only [writingPhase]
      split <;> rfl
    · rw [phase]
      simp only [writingPhase]
      split <;> rfl
  | returned phase =>
    have unrefused := routed.unrefused (by rw [phase]; rfl)
    exact responds.afterReturn (by rw [phase]; rfl) (by rw [phase]; rfl) unrefused ⟨rfl, rfl⟩
  | returnedUnkeyed phase =>
    have unrefused := routed.unrefused (by rw [phase]; rfl)
    exact responds.afterReturn (by rw [phase]; rfl) (by rw [phase]; rfl) unrefused ⟨rfl, rfl⟩
  | answered phase _ | noticed phase _ =>
    refine responds.keep rfl ?_ ?_ rfl
    · rw [phase]
      rfl
    · rw [phase]
      simp only [enterClient, push, clientFrames_snoc, ClientPhase.unsent, List.append_nil]
      rfl
  | refused _ closed =>
    rw [openly.1 rfl] at closed
    cases closed
  | cancelled _ _ => exact absurd rfl openly.2

theorem UpstreamEffect.clientFrames_eq {action : UpstreamAction}
    (effect : state.UpstreamEffect json limits action next) : clientFrames next.sent = clientFrames state.sent := by
  cases effect with
  | sent _ _ =>
    simp only [enterUpstream, push, clientFrames_snoc]
    exact List.append_nil _
  | read _ | took _ _ | dropped _ _ | refused _ _ | cancelled _ => rfl

theorem step_responds {action : Action} (routed : Routed json limits input state.client)
    (responds : Responds json past state) (openly : SendsOpenly state action)
    (taken : state.step json limits action = some next) : Responds json (past ++ [action]) next := by
  cases action with
  | client move => exact (step_client taken).responds routed openly responds
  | upstream move =>
    have effect := step_upstream taken
    refine responds.keep (by rw [effect.client_eq]) (by rw [effect.client_eq]) ?_ rfl
    rw [effect.client_eq, effect.clientFrames_eq]
  | writer move =>
    have quiet := writerStep_undisturbed taken
    exact responds.keep (by rw [quiet.client]) (by rw [quiet.client]) (by rw [quiet.client, quiet.sent]) rfl
  | supervisor move =>
    have quiet := supervisorStep_undisturbed taken
    exact responds.keep (by rw [quiet.client]) (by rw [quiet.client]) (by rw [quiet.client, quiet.sent]) rfl
  | beginShutdown =>
    cases taken
    exact responds.keep rfl rfl rfl rfl

theorem run_responds {clientInput upstreamInput : Input} {schedule : List Action}
    (execution : (machine json limits).RunsWhere SendsOpenly (.new clientInput upstreamInput) schedule state) :
    Responds json schedule state := by
  have initial : Routed json limits clientInput (Connection.new clientInput upstreamInput).client ∧
      Responds json [] (Connection.new clientInput upstreamInput) :=
    ⟨new_routed clientInput upstreamInput, ⟨[], rfl, rfl, rfl⟩, Nat.zero_le 1⟩
  refine (execution.preserves_history (motive := fun past later =>
    Routed json limits clientInput later.client ∧ Responds json past later) ?_ initial).2
  rintro past state action next ⟨routed, responds⟩ openly taken
  exact ⟨step_routed routed taken, step_responds routed responds openly taken⟩

theorem step_ended {action : Action} (ended : state.client.phase.isEnded = true)
    (taken : state.step json limits action = some next) :
    next.client = state.client ∧ clientFrames next.sent = clientFrames state.sent := by
  rcases step_cases taken with ⟨move, rfl, effect⟩ | ⟨move, rfl, effect⟩ | quiet
  · rw [effect.running] at ended
    cases ended
  · exact ⟨effect.client_eq, effect.clientFrames_eq⟩
  · exact ⟨quiet.client, by rw [quiet.sent]⟩

theorem run_ended {schedule : List Action} {final : Connection} (ended : state.client.phase.isEnded = true)
    (execution : (machine json limits).run state schedule = some final) :
    clientFrames final.sent = clientFrames state.sent := by
  refine ((machine json limits).run_preserves (motive := fun later =>
    later.client.phase.isEnded = true ∧ clientFrames later.sent = clientFrames state.sent) ?_ ⟨ended, rfl⟩
    execution).2
  rintro middle action later ⟨done, same⟩ taken
  obtain ⟨client, frames⟩ := step_ended done taken
  exact ⟨client ▸ done, frames.trans same⟩

end Connection

def replyOf : Outcome → Reply
  | .ok transactionId => .result transactionId
  | .err error =>
    if error.kind = .disabled then .error (-32090) "private broadcasting is not configured"
    else .error (-32091) "private broadcast failed; no public fallback was attempted"

theorem relayResponse_carries (compact : json.PrintsCompactly) {id : Value} (scalar : id.IsScalar)
    (outcome : Outcome) : Carries (relayResponse json id outcome) id (replyOf outcome) := by
  have encoded : relayResponse json id outcome = encodeResponse json ((replyOf outcome).toValue id) := by
    cases outcome with
    | ok transactionId => exact successResponse_eq json id transactionId
    | err error =>
      simp only [relayResponse, relayErrorResponse, replyOf, decide_eq_true_eq]
      split <;> exact errorResponse_eq json id _ _
  rw [encoded]
  exact encodeResponse_carries compact scalar (replyOf outcome)

theorem response_carries (compact : json.PrintsCompactly) {error : ProtocolError} (scalar : error.id.IsScalar) :
    Carries (error.response json) error.id (.error error.code error.message) := by
  rw [ProtocolError.response, errorResponse_eq]
  exact encodeResponse_carries compact scalar (.error error.code error.message)

theorem answerId_request {intake : Intake} {id : Value} (member : id ∈ intake.answerId json) :
    id.IsScalar ∧ ∃ bytes reservation, intake = .frame bytes reservation ∧ RequestId json bytes id := by
  cases intake with
  | frame bytes reservation =>
    simp only [Intake.answerId] at member
    split at member
    · next rawTransaction classified =>
      obtain rfl := List.mem_singleton.mp member
      exact ⟨trivial, bytes, reservation, rfl, broadcastId_eq classified⟩
    · next other rawTransaction _ classified =>
      split at member
      · obtain rfl := List.mem_singleton.mp member
        exact ⟨broadcastId_scalar classified, bytes, reservation, rfl, broadcastId_eq classified⟩
      · cases member
    · cases member
    · cases member
  | endOfStream | unreadable _ => cases member

/-- An error that ends the task answers no identifier, or the one of the
frame that was refused. -/
theorem refusal_request {intake : Intake} {error : ProtocolError} (refused : intake.refusal json = some error) :
    error.id.IsScalar ∧ (error = invalidRequest ∨
      ∃ bytes reservation id, intake = .frame bytes reservation ∧ RequestId json bytes id ∧
        (error = invalidParams id ∨ (reservation = some .limitExceeded ∧ error = windowFull id))) := by
  cases intake with
  | frame bytes reservation =>
    simp only [Intake.refusal] at refused
    split at refused
    · next failure classified =>
      cases refused
      refine ⟨protocolError_scalar classified, ?_⟩
      rcases classify_error classified with same | ⟨tree, request, parsed, decoded, -, -, same⟩
      · exact .inl same
      · exact .inr ⟨bytes, _, _, rfl, ⟨tree, request, parsed, decoded, rfl⟩, .inl same⟩
    · cases refused
      exact ⟨trivial, .inl rfl⟩
    · next id classified =>
      cases refused
      exact ⟨passthroughId_scalar classified,
        .inr ⟨bytes, _, id, rfl, passthroughId_eq classified, .inr ⟨rfl, rfl⟩⟩⟩
    · next id _ classified =>
      cases refused
      exact ⟨broadcastId_scalar classified,
        .inr ⟨bytes, _, id, rfl, broadcastId_eq classified, .inr ⟨rfl, rfl⟩⟩⟩
    · cases refused
  | unreadable kind =>
    cases kind with
    | invalidData =>
      cases refused
      exact ⟨trivial, .inl rfl⟩
    | other => cases refused
  | endOfStream => cases refused

def Answers (call : Value × Outcome) (frame : List UInt8) : Prop := Carries frame call.1 (replyOf call.2)

def Reports (error : ProtocolError) (frame : List UInt8) : Prop :=
  Carries frame error.id (.error error.code error.message)

namespace Connection

structure RespondsInOrder (json : SerdeJson) (limits : ConnectionLimits) (schedule : List Action)
    (state : Connection) : Prop where
  /-- What is in the channel and the response the task is about to send are one
  response for each call that has returned, and then at most one error. -/
  frames : ∃ answers notices,
    clientFrames state.sent ++ state.client.phase.unsent = answers ++ notices ∧
    List.Forall₂ Answers ((answerIds json state.client.taken).zip (outcomes schedule)) answers ∧
    List.Forall₂ Reports (refusals json state.client.taken) notices ∧ notices.length ≤ 1
  returned : (answerIds json state.client.taken).length =
    (outcomes schedule).length + state.client.phase.unreturned.length
  relayed : (answerIds json state.client.taken).length =
    state.client.relayCalls.length + state.client.phase.uncalled.length
  correlated : ∀ id ∈ answerIds json state.client.taken, ∃ bytes reservation,
    .frame bytes reservation ∈ state.client.taken ∧ RequestId json bytes id
  terminal : ∀ error ∈ refusals json state.client.taken, error = invalidRequest ∨
    ∃ bytes reservation id, .frame bytes reservation ∈ state.client.taken ∧ RequestId json bytes id ∧
      (error = invalidParams id ∨ (reservation = some .limitExceeded ∧ error = windowFull id))
  /-- Once the error is in the channel, nothing follows it. -/
  silent : refusals json state.client.taken ≠ [] → state.client.phase.unsent = [] →
    ∀ more final, (machine json limits).run state more = some final →
      clientFrames final.sent = clientFrames state.sent

end Connection

theorem answers_zipWith (compact : json.PrintsCompactly) {ids : List Value}
    (scalar : ∀ id ∈ ids, Value.IsScalar id) (returned : List Outcome) :
    List.Forall₂ Answers (ids.zip returned) (List.zipWith (relayResponse json) ids returned) := by
  induction ids generalizing returned with
  | nil => exact .nil
  | cons id ids ih =>
    cases returned with
    | nil => exact .nil
    | cons outcome returned =>
      have later : ∀ other ∈ ids, Value.IsScalar other :=
        fun other member => scalar other (List.mem_cons_of_mem id member)
      exact .cons (relayResponse_carries compact (scalar id List.mem_cons_self) outcome) (ih later returned)

theorem Intake.answerId_length (json : SerdeJson) (intake : Intake) :
    (intake.answerId json).length = (intake.relayed json).length := by
  cases intake with
  | frame bytes reservation =>
    cases classified : classify json bytes with
    | error _ => simp [Intake.answerId, Intake.relayed, classified]
    | ok request =>
      cases request with
      | passthrough _ => simp [Intake.answerId, Intake.relayed, classified]
      | broadcast id rawTransaction =>
        cases id with
        | null => simp [Intake.answerId, Intake.relayed, classified]
        | bool _ | number _ | string _ | array _ | object _ =>
          simp only [Intake.answerId, Intake.relayed, classified]
          split <;> rfl
  | endOfStream | unreadable _ => rfl

theorem answerIds_length (taken : List Intake) :
    (answerIds json taken).length = (broadcasts json taken).length := by
  induction taken with
  | nil => rfl
  | cons intake rest ih =>
    have one := intake.answerId_length json
    simp only [answerIds, broadcasts, List.flatMap_cons, List.length_append] at ih ⊢
    omega

theorem answerIds_request {taken : List Intake} {id : Value} (member : id ∈ answerIds json taken) :
    id.IsScalar ∧ ∃ bytes reservation, .frame bytes reservation ∈ taken ∧ RequestId json bytes id := by
  obtain ⟨intake, inside, found⟩ := List.mem_flatMap.mp member
  obtain ⟨scalar, bytes, reservation, rfl, request⟩ := answerId_request found
  exact ⟨scalar, bytes, reservation, inside, request⟩

theorem refusals_request {taken : List Intake} {error : ProtocolError} (member : error ∈ refusals json taken) :
    error.id.IsScalar ∧ (error = invalidRequest ∨
      ∃ bytes reservation id, .frame bytes reservation ∈ taken ∧ RequestId json bytes id ∧
        (error = invalidParams id ∨ (reservation = some .limitExceeded ∧ error = windowFull id))) := by
  obtain ⟨intake, inside, refused⟩ := List.mem_filterMap.mp member
  obtain ⟨scalar, invalid | ⟨bytes, reservation, id, rfl, request, which⟩⟩ := refusal_request refused
  · exact ⟨scalar, .inl invalid⟩
  · exact ⟨scalar, .inr ⟨bytes, reservation, id, inside, request, which⟩⟩

theorem reports_map (compact : json.PrintsCompactly) {errors : List ProtocolError}
    (scalar : ∀ error ∈ errors, Value.IsScalar error.id) :
    List.Forall₂ Reports errors (errors.map (ProtocolError.response json)) := by
  induction errors with
  | nil => exact .nil
  | cons error errors ih =>
    have later : ∀ other ∈ errors, Value.IsScalar other.id :=
      fun other member => scalar other (List.mem_cons_of_mem error member)
    exact .cons (response_carries compact (scalar error List.mem_cons_self)) (ih later)

namespace Connection

theorem local_responses_in_order (json : SerdeJson) (compact : json.PrintsCompactly) (limits : ConnectionLimits)
    (clientInput upstreamInput : Input) (schedule : List Action) (state : Connection)
    (execution : (machine json limits).RunsWhere SendsOpenly (.new clientInput upstreamInput) schedule state) :
    RespondsInOrder json limits schedule state := by
  have routed := run_routed execution.run
  obtain ⟨⟨ids, all, frames, counted⟩, single⟩ := run_responds execution
  constructor
  · refine ⟨_, _, frames, ?_, ?_, ?_⟩
    · -- The call that has not returned yet has no outcome to be paired with.
      have paired : (answerIds json state.client.taken).zip (outcomes schedule) = ids.zip (outcomes schedule) := by
        rw [all, ← List.append_nil (outcomes schedule), List.zip_append counted]
        simp
      rw [paired]
      apply answers_zipWith compact
      intro id member
      have taken : id ∈ answerIds json state.client.taken := by
        rw [all]
        exact List.mem_append_left _ member
      exact (answerIds_request taken).1
    · exact reports_map compact fun error member => (refusals_request member).1
    · rw [List.length_map]
      exact single
  · rw [all, List.length_append, counted]
  · rw [answerIds_length, ← routed.called, List.length_append]
  · intro id member
    exact (answerIds_request member).2
  · intro error member
    exact (refusals_request member).2
  · intro refused unsent more final continued
    have stopped : state.client.phase.isStopped = true := by
      by_contra live
      exact refused (routed.unrefused (by simpa using live))
    have ended : state.client.phase.isEnded = true := by
      cases phase : state.client.phase <;> simp_all [ClientPhase.isStopped, ClientPhase.isEnded, ClientPhase.unsent]
    exact run_ended ended continued

theorem local_responses_of_wallet :
    ∃ state, (machine .reference ⟨1024, 8⟩).RunsWhere SendsOpenly (.new walletInput ⟨[], .closed⟩)
        walletSchedule state ∧ (clientFrames state.sent).length = 2 ∧
      RespondsInOrder .reference ⟨1024, 8⟩ walletSchedule state := by
  have outcome : ((machine .reference ⟨1024, 8⟩).runWhere SendsOpenly (.new walletInput ⟨[], .closed⟩)
      walletSchedule).map (fun state => (clientFrames state.sent).length) = some 2 := by decide +kernel
  obtain ⟨state, execution, length⟩ := Option.map_eq_some_iff.mp outcome
  have allowed := Machine.RunsWhere.of_runWhere execution
  exact ⟨state, allowed, length, local_responses_in_order .reference SerdeJson.reference_printsCompactly _ _ _ _ _
    allowed⟩

end Connection

end ElectrumPrivateRelay.Proxy

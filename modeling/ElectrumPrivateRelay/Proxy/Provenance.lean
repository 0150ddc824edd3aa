import ElectrumPrivateRelay.Proxy.Conservation
import ElectrumPrivateRelay.Proxy.WalletStream

/-! Where the lines of the wallet come from.

Every line answers something: a broadcast of the wallet with what the relay
returned for it, a frame that was refused, or a query with a response of the
upstream. Only notifications answer nothing, and they carry no identifier. So
no identifier is answered more often than the wallet has used it.
-/

set_option autoImplicit false

namespace ElectrumPrivateRelay.Proxy
open Json Protocol Relay Semantics

section Asked

variable (json : SerdeJson)

def requestKey (frame : List UInt8) : Option String := do
  let tree ← json.fromSlice frame
  let request ← Request.ofTree json tree
  let id ← request.id
  requestIdKey json id

def Intake.requestKey : Intake → Option String
  | .frame bytes _ => Proxy.requestKey json bytes
  | .endOfStream | .unreadable _ => none

def Intake.queryKey : Intake → Option String
  | .frame bytes (some .reserved) =>
    match classify json bytes with
    | .ok (.passthrough (some id)) => requestIdKey json id
    | .ok (.passthrough none) | .ok (.broadcast _ _) | .error _ => none
  | .frame _ _ | .endOfStream | .unreadable _ => none

def queryKeys (taken : List Intake) : List String := taken.filterMap (Intake.queryKey json)

@[simp] theorem queryKeys_snoc (taken : List Intake) (intake : Intake) :
    queryKeys json (taken ++ [intake]) = queryKeys json taken ++ (intake.queryKey json).toList := by
  cases same : intake.queryKey json <;> simp [queryKeys, same]

/-- Some reader finds an identifier with this key in the line. -/
def Speaks (key : String) (line : List UInt8) : Prop :=
  ∃ tree id, json.fromSlice line = some tree ∧ IdIn tree id ∧ requestIdKey json id.toValue = some key

end Asked

variable {json : SerdeJson} {limits : ConnectionLimits}

theorem requestIdKey_null : requestIdKey json .null = none := rfl

theorem requestKey_eq {frame : List UInt8} {id : Value} (request : RequestId json frame id) :
    requestKey json frame = requestIdKey json id := by
  obtain ⟨tree, request, parsed, decoded, rfl⟩ := request
  cases present : request.id with
  | none => simp [requestKey, parsed, decoded, present, requestIdKey_null]
  | some id => simp [requestKey, parsed, decoded, present]

/-- How often a frame leads to an answer, to a refusal or to a query under this key. -/
def Intake.answered (json : SerdeJson) (key : String) (intake : Intake) : Nat :=
  (intake.queryKey json).toList.count key +
    (intake.answerId json).countP (fun id => requestIdKey json id = some key) +
    (intake.refusal json).toList.countP (fun error => requestIdKey json error.id = some key)

theorem Intake.answerId_unreserved {bytes : List UInt8} {reservation : Option Reservation}
    (kept : reservation ≠ some .reserved) {id : Value} {rawTransaction : String}
    (classified : classify json bytes = .ok (.broadcast id rawTransaction)) (key : String) :
    ((Intake.frame bytes reservation).answerId json).countP (fun id => requestIdKey json id = some key) = 0 := by
  cases id with
  | null => simp [Intake.answerId, classified, requestIdKey_null]
  | bool _ | number _ | string _ | array _ | object _ => simp [Intake.answerId, classified, kept]

theorem Intake.answerId_reserved {bytes : List UInt8} {id : Value} {rawTransaction : String}
    (classified : classify json bytes = .ok (.broadcast id rawTransaction)) :
    (Intake.frame bytes (some .reserved)).answerId json = [id] := by
  cases id <;> simp [Intake.answerId, classified]

theorem count_toList (found : Option String) (key : String) :
    found.toList.count key = if found = some key then 1 else 0 := by
  cases found <;> simp [List.count_singleton]

theorem Intake.answered_le (json : SerdeJson) (key : String) (intake : Intake) :
    intake.answered json key ≤ if intake.requestKey json = some key then 1 else 0 := by
  cases intake with
  | frame bytes reservation =>
    cases classified : classify json bytes with
    | error error =>
      have refused : (Intake.frame bytes reservation).refusal json = some error := by
        simp only [Intake.refusal, classified]
      have unasked : (Intake.frame bytes reservation).queryKey json = none := by
        rcases reservation with _ | _ | _ | _ <;> simp [Intake.queryKey, classified]
      rcases classify_error classified with rfl | ⟨tree, request, parsed, decoded, -, -, rfl⟩
      · simp [Intake.answered, refused, unasked, Intake.answerId, classified, invalidRequest, requestIdKey_null]
      · have same := @requestKey_eq json bytes _ ⟨tree, request, parsed, decoded, rfl⟩
        simp [Intake.answered, refused, unasked, Intake.answerId, classified, Intake.requestKey, same,
          invalidParams, List.countP_singleton]
    | ok request =>
      cases request with
      | passthrough id =>
        cases id with
        | none =>
          rcases reservation with _ | _ | _ | _ <;>
            simp [Intake.answered, Intake.queryKey, Intake.refusal, Intake.answerId, classified, invalidRequest,
              requestIdKey_null]
        | some id =>
          have same := requestKey_eq (passthroughId_eq classified)
          rcases reservation with _ | _ | _ | _ <;>
            simp [Intake.answered, Intake.queryKey, Intake.refusal, Intake.answerId, classified, invalidRequest,
              requestIdKey_null, Intake.requestKey, same, windowFull, count_toList, List.countP_singleton]
      | broadcast id rawTransaction =>
        have same := requestKey_eq (broadcastId_eq classified)
        rcases reservation with _ | _ | _ | _
        · simp [Intake.answered, Intake.queryKey, Intake.refusal, Intake.answerId_unreserved _ classified, classified]
        · simp [Intake.answered, Intake.queryKey, Intake.refusal, Intake.answerId_reserved classified, classified,
            Intake.requestKey, same, List.countP_singleton]
        · simp [Intake.answered, Intake.queryKey, Intake.refusal, Intake.answerId_unreserved _ classified, classified,
            invalidRequest, requestIdKey_null]
        · simp [Intake.answered, Intake.queryKey, Intake.refusal, Intake.answerId_unreserved _ classified, classified,
            Intake.requestKey, same, windowFull, List.countP_singleton]
  | endOfStream => simp [Intake.answered, Intake.queryKey, Intake.answerId, Intake.refusal]
  | unreadable kind =>
    cases kind <;>
      simp [Intake.answered, Intake.queryKey, Intake.answerId, Intake.refusal, invalidRequest, requestIdKey_null]

theorem answered_le_requests (json : SerdeJson) (key : String) (taken : List Intake) :
    (queryKeys json taken).count key +
        (answerIds json taken).countP (fun id => requestIdKey json id = some key) +
        (refusals json taken).countP (fun error => requestIdKey json error.id = some key) ≤
      taken.countP fun intake => intake.requestKey json = some key := by
  induction taken with
  | nil => exact Nat.le_refl 0
  | cons intake rest ih =>
    have one := intake.answered_le json key
    have queries : queryKeys json (intake :: rest) = (intake.queryKey json).toList ++ queryKeys json rest := by
      cases same : intake.queryKey json <;> simp [queryKeys, same]
    have refused : refusals json (intake :: rest) = (intake.refusal json).toList ++ refusals json rest := by
      cases same : intake.refusal json <;> simp [refusals, same]
    rw [queries, refused, answerIds, List.flatMap_cons, ← answerIds, List.count_append, List.countP_append,
      List.countP_append, List.countP_cons]
    simp only [Intake.answered, decide_eq_true_eq] at one ⊢
    omega

def Reserves (json : SerdeJson) (task : ClientTask) : Prop :=
  ∀ key, task.reserved.count (key, .upstream) = (queryKeys json task.taken).count key

theorem Reserves.afterRead {task : ClientTask} (reserves : Reserves json task) :
    Reserves json (task.read json limits) := by
  intro key
  have before := reserves key
  unfold ClientTask.read
  split <;> simpa [Intake.queryKey] using before

theorem Reserves.afterReserve {task : ClientTask} {frame : List UInt8} {id : Value} {key : String}
    {purpose : Purpose} (reserves : Reserves json task) (waits : Waits json task.taken frame id key purpose)
    (outcome : Reservation) : Reserves json (task.reserve json frame id key purpose outcome) := by
  intro other
  obtain ⟨⟨before, last⟩, keyed, classified⟩ := waits
  have counted := reserves other
  rw [last, queryKeys_snoc] at counted
  have added : (if outcome = .reserved then task.reserved ++ [(key, purpose.pendingRequest)] else task.reserved).count
      (other, .upstream) = task.reserved.count (other, .upstream) +
        ((Intake.frame frame (some outcome)).queryKey json).toList.count other := by
    cases purpose with
    | query =>
      cases outcome <;>
        simp [Intake.queryKey, classified, keyed, Purpose.pendingRequest, List.count_singleton]
    | broadcast rawTransaction =>
      cases outcome <;> simp [Intake.queryKey, classified, Purpose.pendingRequest]
  simp only [ClientTask.reserve, last, List.dropLast_concat, queryKeys_snoc, List.count_append, added, counted]
  simp [Intake.queryKey]

namespace Connection

variable {state next : Connection} {input : Input} {past : List Action}

theorem ClientEffect.reserves {action : ClientAction} (effect : state.ClientEffect json limits action next)
    (routed : Routed json limits input state.client) (reserves : Reserves json state.client) :
    Reserves json next.client := by
  cases effect with
  | read _ _ => exact reserves.afterRead
  | reserved phase _ => exact reserves.afterReserve (routed.waiting _ _ _ _ phase) _
  | observed _ _ | wrote _ | writeFailed _ | called _ | returned _ | returnedUnkeyed _ | released _
  | answered _ _ | noticed _ _ | refused _ _ | cancelled _ _ => exact reserves

/-- The responses of the client task come in the order of their calls. The first
one that is lost is the last that was due. -/
def AnswersFront (json : SerdeJson) (past : List Action) (state : Connection) : Prop :=
  ∃ ids, ids <+: answerIds json state.client.taken ∧ ids.length = (outcomes past).length ∧
    clientFrames state.sent <+: List.zipWith (relayResponse json) ids (outcomes past) ++
      (refusals json state.client.taken).map (ProtocolError.response json)

theorem answersFront_of_responds (responds : Responds json past state) : AnswersFront json past state := by
  obtain ⟨ids, all, frames, counted⟩ := responds.returned
  refine ⟨ids, ?_, counted, ?_⟩
  · rw [all]
    exact List.prefix_append _ _
  · rw [← frames]
    exact List.prefix_append _ _

theorem AnswersFront.keep (front : AnswersFront json past state) {action : Action}
    (client : next.client.taken = state.client.taken) (sent : clientFrames next.sent = clientFrames state.sent)
    (quiet : outcomes [action] = []) : AnswersFront json (past ++ [action]) next := by
  unfold AnswersFront
  rw [client, sent, outcomes_snoc, quiet, List.append_nil]
  exact front

def Answering (json : SerdeJson) (past : List Action) (state : Connection) : Prop :=
  Responds json past state ∨ (state.client.phase.isEnded = true ∧ AnswersFront json past state)

theorem ClientEffect.answering {action : ClientAction} (effect : state.ClientEffect json limits action next)
    (routed : Routed json limits input state.client) (responds : Responds json past state) :
    Answering json (past ++ [.client action]) next := by
  by_cases openly : SendsOpenly state (.client action)
  · exact .inl (effect.responds routed openly responds)
  · have front := answersFront_of_responds responds
    cases effect with
    | refused _ _ | cancelled _ _ => exact .inr ⟨rfl, front.keep rfl rfl rfl⟩
    | answered _ room | noticed _ room => simp [SendsOpenly, room.1] at openly
    | observed _ _ | read _ _ | reserved _ _ | wrote _ | writeFailed _ | called _ | returned _ | returnedUnkeyed _
    | released _ => simp [SendsOpenly] at openly

theorem step_answering {action : Action} (routed : Routed json limits input state.client)
    (answering : Answering json past state) (taken : state.step json limits action = some next) :
    Answering json (past ++ [action]) next := by
  rcases answering with responds | ⟨ended, front⟩
  · cases action with
    | client move => exact (step_client taken).answering routed responds
    | upstream _ | writer _ | supervisor _ | beginShutdown =>
      refine .inl (step_responds routed responds ⟨fun same => ?_, fun same => ?_⟩ taken) <;> cases same
  · obtain ⟨client, sent⟩ := step_ended ended taken
    refine .inr ⟨client ▸ ended, ?_⟩
    cases action with
    | client move =>
      rw [(step_client taken).running] at ended
      cases ended
    | upstream _ | writer _ | supervisor _ | beginShutdown => exact front.keep (by rw [client]) sent rfl

structure Traced (json : SerdeJson) (limits : ConnectionLimits) (input : Input) (past : List Action)
    (state : Connection) : Prop where
  routed : Routed json limits input state.client
  conserved : Conserved json state
  reserves : Reserves json state.client
  answering : Answering json past state

theorem step_traced {action : Action} (traced : Traced json limits input past state)
    (taken : state.step json limits action = some next) : Traced json limits input (past ++ [action]) next := by
  refine ⟨step_routed traced.routed taken, step_conserved traced.conserved taken, ?_,
    step_answering traced.routed traced.answering taken⟩
  rcases step_cases taken with ⟨_, -, effect⟩ | ⟨_, -, effect⟩ | quiet
  · exact effect.reserves traced.routed traced.reserves
  · rw [effect.client_eq]
    exact traced.reserves
  · rw [quiet.client]
    exact traced.reserves

theorem run_traced {clientInput upstreamInput : Input} {schedule : List Action}
    (execution : (machine json limits).run (.new clientInput upstreamInput) schedule = some state) :
    Traced json limits clientInput schedule state := by
  have initial : Traced json limits clientInput [] (.new clientInput upstreamInput) :=
    ⟨new_routed clientInput upstreamInput, new_conserved clientInput upstreamInput, fun _ => rfl,
      .inl ⟨⟨[], rfl, rfl, rfl⟩, Nat.zero_le 1⟩⟩
  exact (machine json limits).run_preserves_history (motive := Traced json limits clientInput)
    (fun _ _ _ _ traced taken => step_traced traced taken) initial execution

theorem Traced.front (traced : Traced json limits input past state) : AnswersFront json past state := by
  rcases traced.answering with responds | ⟨-, front⟩
  · exact answersFront_of_responds responds
  · exact front

theorem Traced.delivered_le (traced : Traced json limits input past state) (key : String) :
    (delivered state.sent).count key ≤ (queryKeys json state.client.taken).count key := by
  have balance := traced.conserved.balance key
  obtain ⟨gap, removed, -⟩ := traced.conserved.gap
  rw [removed, List.count_append, traced.reserves key] at balance
  omega

end Connection

/-- What a line of the wallet answers. -/
inductive LineSource (json : SerdeJson) (schedule : List Action) (taken : List Intake) (line : List UInt8) : Prop where
  | answer {id : Value} {outcome : Outcome} (returned : (id, outcome) ∈ (answerIds json taken).zip (outcomes schedule))
      (same : line = relayResponse json id outcome)
  | refusal {error : ProtocolError} (refused : error ∈ refusals json taken) (same : line = error.response json)
  | response {key : String} (asked : key ∈ queryKeys json taken)
      (read : upstreamFrame json line = some (.response key))
  | notification (read : upstreamFrame json line = some .notification)

theorem Connection.Traced.source {input : Input} {past : List Action} {state : Connection}
    (traced : Connection.Traced json limits input past state) {sent : Sent} (member : sent ∈ state.sent) :
    LineSource json past state.client.taken sent.frame := by
  have own : sent.frame ∈ clientFrames state.sent → LineSource json past state.client.taken sent.frame := by
    intro found
    obtain ⟨ids, ⟨later, all⟩, counted, frames⟩ := traced.front
    rcases List.mem_append.mp (frames.mem found) with answered | refused
    · rw [← List.map_uncurry_zip_eq_zipWith] at answered
      obtain ⟨⟨id, outcome⟩, paired, same⟩ := List.mem_map.mp answered
      refine .answer ?_ same.symm
      rw [← all, ← List.append_nil (outcomes past), List.zip_append counted]
      exact List.mem_append_left _ paired
    · obtain ⟨error, inside, same⟩ := List.mem_map.mp refused
      exact .refusal inside same.symm
  cases origin : sent.origin with
  | upstream owner =>
    have read := traced.conserved.framed sent member owner origin
    cases owner with
    | none => exact .notification read
    | some key =>
      have out : key ∈ delivered state.sent :=
        List.mem_filterMap.mpr ⟨sent, member, by rw [Sent.responseKey, origin]⟩
      have counted := traced.delivered_le key
      have positive : 0 < (queryKeys json state.client.taken).count key :=
        Nat.lt_of_lt_of_le (List.count_pos_iff.mpr out) counted
      exact .response (List.count_pos_iff.mp positive) read
  | answer | notice => exact own (List.mem_filterMap.mpr ⟨sent, member, by rw [origin]⟩)

theorem countP_zipWith_le {α β γ : Type} (make : α → β → γ) (counts : γ → Bool) (counted : α → Bool)
    {lefts : List α} (implied : ∀ left ∈ lefts, ∀ right, counts (make left right) = true → counted left = true)
    (rights : List β) : (List.zipWith make lefts rights).countP counts ≤ lefts.countP counted := by
  induction lefts generalizing rights with
  | nil => exact Nat.le_refl 0
  | cons left lefts ih =>
    cases rights with
    | nil => exact Nat.zero_le _
    | cons right rights =>
      have first := implied left List.mem_cons_self right
      have rest := ih (fun other member => implied other (List.mem_cons_of_mem left member)) rights
      simp only [List.zipWith_cons_cons, List.countP_cons]
      split
      · next found =>
        rw [if_pos (first found)]
        omega
      · omega

theorem countP_frames (counts : List UInt8 → Bool) (sent : List Sent) :
    (sent.map Sent.frame).countP counts = (upstreamFrames sent).countP counts + (clientFrames sent).countP counts := by
  induction sent with
  | nil => rfl
  | cons first rest ih =>
    obtain ⟨origin, frame⟩ := first
    simp only [upstreamFrames, clientFrames] at ih
    cases origin with
    | upstream owner =>
      simp only [upstreamFrames, clientFrames, Sent.upstreamFrame, List.map_cons, List.filterMap_cons, List.countP_cons]
      omega
    | answer | notice =>
      simp only [upstreamFrames, clientFrames, Sent.upstreamFrame, List.map_cons, List.filterMap_cons, List.countP_cons]
      omega

theorem upstream_speaks {frame : List UInt8} {owner : Option String} {key : String}
    (read : upstreamFrame json frame = some (frameKind owner)) (speaks : Speaks json key frame) :
    owner = some key := by
  obtain ⟨tree, id, parsed, found, keyed⟩ := speaks
  have present : id ≠ .null := by
    rintro rfl
    cases keyed
  obtain ⟨other, kind, same⟩ := upstreamFrame_id parsed read found present
  cases owner with
  | none => cases kind
  | some held =>
    cases kind
    rw [← same, keyed]

theorem carries_speaks (reads : json.ReadsJson) {line : List UInt8} {id : Value} {reply : Reply} {key : String}
    (carries : Carries line id reply) (speaks : Speaks json key line) : requestIdKey json id = some key := by
  obtain ⟨members, part, text, found, rfl, -⟩ := carries.decoded
  obtain ⟨tree, other, parsed, ⟨message, inside, member⟩, keyed⟩ := speaks
  cases (reads text).symm.trans parsed
  obtain rfl := List.mem_singleton.mp inside
  cases field_unique found member
  exact keyed

theorem countP_frames_of_taken (json : SerdeJson) (key : String) (taken : List Intake) :
    taken.countP (fun intake => intake.requestKey json = some key) =
      (taken.filterMap Intake.bytes?).countP fun frame => requestKey json frame = some key := by
  induction taken with
  | nil => rfl
  | cons intake rest ih =>
    cases intake with
    | frame bytes reservation =>
      have same : (Intake.frame bytes reservation).requestKey json = requestKey json bytes := rfl
      simp only [List.filterMap_cons, Intake.bytes?, List.countP_cons, ih, same]
    | endOfStream | unreadable _ =>
      rw [List.countP_cons, ih]
      rfl

section Speaking

open Classical in
/-- How many of the lines some reader takes for a response under this key. -/
noncomputable def responseCount (json : SerdeJson) (key : String) (lines : List (List UInt8)) : Nat :=
  lines.countP fun line => decide (Speaks json key line)

theorem responseCount_upstream (key : String) {sent : List Sent} (framed : ∀ last ∈ sent, Framed json last) :
    responseCount json key (upstreamFrames sent) ≤ (delivered sent).count key := by
  induction sent with
  | nil => exact Nat.le_refl 0
  | cons first rest ih =>
    have later := ih fun last member => framed last (List.mem_cons_of_mem first member)
    have one := framed first List.mem_cons_self
    obtain ⟨origin, frame⟩ := first
    cases origin with
    | upstream owner =>
      have read := one owner rfl
      have split : delivered (⟨.upstream owner, frame⟩ :: rest) = owner.toList ++ delivered rest := by
        cases owner <;> rfl
      have spoken : upstreamFrames (⟨.upstream owner, frame⟩ :: rest) = frame :: upstreamFrames rest := rfl
      rw [split, spoken, responseCount, List.countP_cons, List.count_append, ← responseCount]
      split
      · next speaks =>
        rw [upstream_speaks read (by simpa using speaks), Option.toList_some, List.count_singleton_self]
        omega
      · omega
    | answer | notice => exact later

theorem responseCount_client (reads : json.ReadsJson) (compact : json.PrintsCompactly) (key : String)
    {taken : List Intake} {ids : List Value} (front : ids <+: answerIds json taken) (returned : List Outcome)
    {frames : List (List UInt8)} (sent : frames <+: List.zipWith (relayResponse json) ids returned ++
      (refusals json taken).map (ProtocolError.response json)) :
    responseCount json key frames ≤ (answerIds json taken).countP (fun id => requestIdKey json id = some key) +
      (refusals json taken).countP fun error => requestIdKey json error.id = some key := by
  have answers : responseCount json key (List.zipWith (relayResponse json) ids returned) ≤
      ids.countP fun id => requestIdKey json id = some key := by
    apply countP_zipWith_le
    intro id member outcome speaks
    have scalar := (answerIds_request (front.mem member)).1
    exact decide_eq_true (carries_speaks reads (relayResponse_carries compact scalar outcome) (by simpa using speaks))
  have notices : responseCount json key ((refusals json taken).map (ProtocolError.response json)) ≤
      (refusals json taken).countP fun error => requestIdKey json error.id = some key := by
    rw [responseCount, List.countP_map]
    apply List.countP_mono_left
    intro error member speaks
    have scalar := (refusals_request member).1
    exact decide_eq_true (carries_speaks reads (response_carries compact scalar) (by simpa using speaks))
  calc responseCount json key frames
      ≤ responseCount json key (List.zipWith (relayResponse json) ids returned ++
          (refusals json taken).map (ProtocolError.response json)) := sent.sublist.countP_le
    _ = responseCount json key (List.zipWith (relayResponse json) ids returned) +
          responseCount json key ((refusals json taken).map (ProtocolError.response json)) := List.countP_append
    _ ≤ _ := Nat.add_le_add (answers.trans front.sublist.countP_le) notices

end Speaking

namespace Connection

structure AnswersRequests (json : SerdeJson) (limits : ConnectionLimits) (clientInput : Input)
    (schedule : List Action) (state : Connection) : Prop where
  sources : ∀ line ∈ (lines state.writer.walletBytes).1, LineSource json schedule state.client.taken line
  /-- No identifier is answered more often than the wallet has used it. -/
  requested : ∀ key, responseCount json key (lines state.writer.walletBytes).1 ≤
    state.client.frames.countP fun frame => requestKey json frame = some key
  read : FramesRead limits.maxFrameBytes clientInput state.client.frames state.client.input

theorem wallet_lines_requested (json : SerdeJson) (reads : json.ReadsJson) (compact : json.PrintsCompactly)
    (limits : ConnectionLimits) (clientInput upstreamInput : Input) (schedule : List Action) (state : Connection)
    (execution : (machine json limits).run (.new clientInput upstreamInput) schedule = some state) :
    AnswersRequests json limits clientInput schedule state := by
  have traced := run_traced execution
  obtain ⟨later, all, -⟩ := run_delivered compact execution
  constructor
  · intro line member
    have inside : line ∈ state.sent.map Sent.frame := by
      rw [all]
      exact List.mem_append_left _ member
    obtain ⟨sent, found, rfl⟩ := List.mem_map.mp inside
    exact traced.source found
  · intro key
    obtain ⟨ids, front, -, frames⟩ := traced.front
    have whole : responseCount json key (lines state.writer.walletBytes).1 ≤
        responseCount json key (state.sent.map Sent.frame) := by
      rw [all]
      exact (List.sublist_append_left _ _).countP_le
    have split : responseCount json key (state.sent.map Sent.frame) =
        responseCount json key (upstreamFrames state.sent) + responseCount json key (clientFrames state.sent) :=
      countP_frames _ state.sent
    have upstream := responseCount_upstream key traced.conserved.framed
    have client := responseCount_client reads compact key front _ frames
    have queries := traced.delivered_le key
    have total := answered_le_requests json key state.client.taken
    have frames := countP_frames_of_taken json key state.client.taken
    rw [ClientTask.frames]
    omega
  · exact traced.routed.read

def answeredSchedule : List Action :=
  collidingSchedule ++ [.client (.relayReturns (.ok "txid")), .client .release, .client .send,
    .writer .receive, .writer (.write 23), .writer .receive, .writer (.write 25)]

theorem wallet_lines_requested_on_collision :
    ∃ state, (machine .reference ⟨1024, 8⟩).run
        (.new ⟨versionQuery ++ broadcastRequest, .closed⟩ upstreamInput) answeredSchedule = some state ∧
      (lines state.writer.walletBytes).1.length = 2 ∧
      AnswersRequests .reference ⟨1024, 8⟩ ⟨versionQuery ++ broadcastRequest, .closed⟩ answeredSchedule state := by
  have outcome : ((machine .reference ⟨1024, 8⟩).run
      (.new ⟨versionQuery ++ broadcastRequest, .closed⟩ upstreamInput) answeredSchedule).map
        (fun state => (lines state.writer.walletBytes).1.length) = some 2 := by decide +kernel
  obtain ⟨state, execution, length⟩ := Option.map_eq_some_iff.mp outcome
  exact ⟨state, execution, length, wallet_lines_requested .reference SerdeJson.reference_readsJson
    SerdeJson.reference_printsCompactly _ _ _ _ _ execution⟩

end Connection

end ElectrumPrivateRelay.Proxy

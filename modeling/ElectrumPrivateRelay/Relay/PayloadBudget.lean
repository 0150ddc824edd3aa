import ElectrumPrivateRelay.Proxy.Routing
import ElectrumPrivateRelay.Relay.Limited

/-! Why the byte budget never binds under an accepted configuration.

No transaction is longer than the frame it was read from, and the configuration
admits only as many concurrent broadcasts as frames of the largest size fit the
budget. A limiter that counts requests alone therefore behaves the same.
-/

set_option autoImplicit false

namespace ElectrumPrivateRelay.Relay.Limited
open ElectrumPrivateRelay.Configuration Json Protocol Proxy Semantics

structure RequestCall where
  rawTransaction : String
  phase : Phase
  invoked : Bool
  deriving DecidableEq, Repr

structure RequestLimiter where
  requests : Nat
  calls : List RequestCall
  deriving DecidableEq, Repr

def RequestLimiter.new (limit : ConcurrentBroadcastLimit) : RequestLimiter := ⟨limit.get, []⟩

/-- One call after another phase, and the free permits after it. A call is
refused only when no request permit is free. -/
def RequestCall.move (requests : Nat) (call : RequestCall) : Action → Option (Nat × RequestCall)
  | .invoke _ => none
  | .acquireRequest _ =>
    match call.phase with
    | .called =>
      if requests = 0 then some (requests, { call with phase := .refused .request })
      else some (requests - 1, { call with phase := .holdingRequest })
    | _ => none
  | .acquirePayload _ =>
    match call.phase with
    | .holdingRequest => some (requests, { call with phase := .inside, invoked := true })
    | _ => none
  | .innerReturns _ outcome =>
    match call.phase with
    | .inside => some (requests, { call with phase := .leaving (some outcome) })
    | _ => none
  | .cancel _ =>
    match call.phase with
    | .called => some (requests, { call with phase := .ended none })
    | .inside => some (requests, { call with phase := .leaving none })
    | _ => none
  | .releasePayload _ =>
    match call.phase with
    | .leaving result => some (requests, { call with phase := .releasing result })
    | _ => none
  | .releaseRequest _ =>
    match call.phase with
    | .releasing result => some (requests + 1, { call with phase := .ended result })
    | _ => none

def RequestLimiter.move (limiter : RequestLimiter) (index : Nat) (action : Action) : Option RequestLimiter :=
  limiter.calls[index]?.bind fun call =>
    (call.move limiter.requests action).map fun moved => ⟨moved.1, limiter.calls.set index moved.2⟩

def RequestLimiter.step (limiter : RequestLimiter) : Action → Option RequestLimiter
  | .invoke rawTransaction => some { limiter with calls := limiter.calls ++ [⟨rawTransaction, .called, false⟩] }
  | .acquireRequest index => limiter.move index (.acquireRequest index)
  | .acquirePayload index => limiter.move index (.acquirePayload index)
  | .innerReturns index outcome => limiter.move index (.innerReturns index outcome)
  | .cancel index => limiter.move index (.cancel index)
  | .releasePayload index => limiter.move index (.releasePayload index)
  | .releaseRequest index => limiter.move index (.releaseRequest index)

def requestMachine : Machine RequestLimiter Action := ⟨RequestLimiter.step⟩

def Call.forget (call : Call) : RequestCall := ⟨call.rawTransaction, call.phase, call.invoked⟩

def Limiter.forget (limiter : Limiter) : RequestLimiter := ⟨limiter.requests, limiter.calls.map Call.forget⟩

structure RequestCall.Fits (maxFrameBytes : Nat) (call : RequestCall) : Prop where
  size : call.rawTransaction.utf8ByteSize ≤ maxFrameBytes
  wound : call.phase ≠ .unwinding
  length : call.phase ≠ .refused .length
  payload : call.phase ≠ .refused .payload

theorem RequestCall.Fits.move {maxFrameBytes requests free : Nat} {call changed : RequestCall}
    {action : Action} (fits : call.Fits maxFrameBytes)
    (moved : call.move requests action = some (free, changed)) : changed.Fits maxFrameBytes := by
  cases action <;> simp only [RequestCall.move] at moved <;> repeat' (split at moved)
  all_goals cases moved
  all_goals exact ⟨fits.size, nofun, nofun, nofun⟩

theorem RequestLimiter.step_fits {maxFrameBytes : Nat} {limiter next : RequestLimiter} {action : Action}
    (fits : ∀ call ∈ limiter.calls, call.Fits maxFrameBytes)
    (sized : ∀ rawTransaction, action = .invoke rawTransaction → rawTransaction.utf8ByteSize ≤ maxFrameBytes)
    (taken : limiter.step action = some next) : ∀ call ∈ next.calls, call.Fits maxFrameBytes := by
  have moves : ∀ index, limiter.move index action = some next → ∀ call ∈ next.calls, call.Fits maxFrameBytes := by
    intro index moved
    obtain ⟨call, selected, result⟩ := Option.bind_eq_some_iff.mp moved
    obtain ⟨⟨free, changed⟩, change, rfl⟩ := Option.map_eq_some_iff.mp result
    exact forall_set index fits ((fits call (List.mem_of_getElem? selected)).move change)
  cases action with
  | invoke rawTransaction =>
    cases taken
    intro call member
    rcases List.mem_append.mp member with old | new
    · exact fits call old
    · obtain rfl := List.mem_singleton.mp new
      exact ⟨sized rawTransaction rfl, nofun, nofun, nofun⟩
  | acquireRequest index | acquirePayload index | innerReturns index _ | cancel index
  | releasePayload index | releaseRequest index => exact moves index taken

theorem Call.bytesHeld_le {maxFrameBytes : Nat} {call : Call} (fits : call.forget.Fits maxFrameBytes) :
    call.bytesHeld ≤ maxFrameBytes * call.requestHeld := by
  have size : call.payloadPermits ≤ maxFrameBytes := fits.size
  unfold bytesHeld requestHeld
  cases call.phase <;> simp [size]

/-- A call between its two acquisitions leaves a whole frame of its share unused. -/
theorem room_for_payload {limit maxFrameBytes payloadBudget : Nat} {limiter : Limiter}
    (budget : limit * maxFrameBytes ≤ payloadBudget)
    (conserved : Conserved limit payloadBudget limiter)
    (fits : ∀ call ∈ limiter.calls, call.forget.Fits maxFrameBytes) {index : Nat} {call : Call}
    (selected : limiter.calls[index]? = some call) (holding : call.phase = .holdingRequest) :
    call.payloadPermits ≤ limiter.payloadBytes := by
  have mine := fits call (List.mem_of_getElem? selected)
  -- the same table with this call taken out of the account
  let others := limiter.calls.set index { call with phase := .ended none }
  have othersFit : ∀ other ∈ others, other.forget.Fits maxFrameBytes :=
    forall_set index fits ⟨mine.size, nofun, nofun, nofun⟩
  have bytesTotal : total Call.bytesHeld others + call.bytesHeld = total Call.bytesHeld limiter.calls :=
    total_set Call.bytesHeld selected _
  have requestTotal : total Call.requestHeld others + call.requestHeld =
      total Call.requestHeld limiter.calls :=
    total_set Call.requestHeld selected _
  have noBytes : call.bytesHeld = 0 := by simp [Call.bytesHeld, holding]
  have oneRequest : call.requestHeld = 1 := by simp [Call.requestHeld, holding]
  have held : total Call.bytesHeld others ≤ maxFrameBytes * total Call.requestHeld others := by
    rw [← total_mul]
    exact total_mono others fun other member => Call.bytesHeld_le (othersFit other member)
  have share : maxFrameBytes * (total Call.requestHeld others + 1) ≤ payloadBudget := by
    refine Nat.le_trans (Nat.mul_le_mul_left maxFrameBytes ?_) (Nat.mul_comm limit maxFrameBytes ▸ budget)
    have requests := conserved.requests
    omega
  have bytes := conserved.bytes
  have size : call.payloadPermits ≤ maxFrameBytes := mine.size
  rw [Nat.mul_succ] at share
  omega

theorem Limiter.forget_move {limiter : Limiter} {index : Nat} {action : Action}
    {stepCall : Call → Option Limiter}
    (alike : ∀ call, limiter.calls[index]? = some call → (stepCall call).map Limiter.forget =
      (call.forget.move limiter.requests action).map fun moved =>
        ⟨moved.1, limiter.forget.calls.set index moved.2⟩) :
    (limiter.calls[index]?.bind stepCall).map Limiter.forget = limiter.forget.move index action := by
  have lookup : limiter.forget.calls[index]? = limiter.calls[index]?.map Call.forget := by
    simp [Limiter.forget]
  rw [RequestLimiter.move, lookup]
  cases selected : limiter.calls[index]? with
  | none => rfl
  | some call => exact alike call selected

theorem Limiter.forget_step {limiter : Limiter}
    (short : ∀ call ∈ limiter.calls, call.payloadPermits ≤ u32Max)
    (wound : ∀ call ∈ limiter.calls, call.phase ≠ .unwinding)
    (room : ∀ call ∈ limiter.calls, call.phase = .holdingRequest → call.payloadPermits ≤ limiter.payloadBytes)
    (action : Action) : (limiter.step action).map Limiter.forget = limiter.forget.step action := by
  cases action with
  | invoke rawTransaction => simp [step, RequestLimiter.step, Limiter.forget, Call.forget, Call.new]
  | acquireRequest index =>
    apply forget_move
    intro call selected
    have length := Nat.not_lt.mpr (short call (List.mem_of_getElem? selected))
    by_cases free : limiter.requests = 0 <;> cases phase : call.phase <;>
      simp [acquireRequest, RequestCall.move, Call.forget, phase, length, free, Limiter.forget, setCall]
  | acquirePayload index =>
    apply forget_move
    intro call selected
    have fits := room call (List.mem_of_getElem? selected)
    cases phase : call.phase with
    | holdingRequest =>
      have enough := Nat.not_lt.mpr (fits phase)
      simp [acquirePayload, RequestCall.move, Call.forget, phase, enough, Limiter.forget, setCall]
    | called | unwinding | inside | leaving _ | releasing _ | ended _ | refused _ =>
      simp [acquirePayload, RequestCall.move, Call.forget, phase]
  | innerReturns index outcome =>
    apply forget_move
    intro call _
    cases phase : call.phase <;>
      simp [innerReturns, RequestCall.move, Call.forget, phase, Limiter.forget, setCall]
  | cancel index =>
    apply forget_move
    intro call _
    cases phase : call.phase <;>
      simp [cancel, RequestCall.move, Call.forget, phase, Limiter.forget, setCall]
  | releasePayload index =>
    apply forget_move
    intro call _
    cases phase : call.phase <;>
      simp [releasePayload, RequestCall.move, Call.forget, phase, Limiter.forget, setCall]
  | releaseRequest index =>
    -- No call is giving back its permit because its bytes were refused.
    apply forget_move
    intro call selected
    have unwound := wound call (List.mem_of_getElem? selected)
    cases phase : call.phase <;>
      simp_all [releaseRequest, RequestCall.move, Call.forget, Limiter.forget, setCall]

structure Roomy (config : Config) (limiter : Limiter) : Prop where
  conserved : Conserved config.maxConcurrentBroadcasts.get maxConfigurableInFlightBroadcastBytes limiter
  fits : ∀ call ∈ limiter.calls, call.forget.Fits config.maxFrameBytes

theorem Roomy.commutes {config : Config} (within : WithinBudget config) {limiter : Limiter}
    (roomy : Roomy config limiter) (action : Action) :
    (limiter.step action).map Limiter.forget = limiter.forget.step action := by
  apply Limiter.forget_step
  · intro call member
    have size : call.payloadPermits ≤ config.maxFrameBytes := (roomy.fits call member).size
    have bound : config.maxFrameBytes ≤ 16 * 1024 * 1024 := within.frame_max
    simp only [u32Max]
    omega
  · exact fun call member => (roomy.fits call member).wound
  · intro call member holding
    obtain ⟨index, selected⟩ := List.mem_iff_getElem?.mp member
    exact room_for_payload within.budget roomy.conserved roomy.fits selected holding

/-- A transaction that a wallet can hand to the relay: read from a stream within
the frame limit and classified as a broadcast. -/
def ClientBroadcast (json : SerdeJson) (config : Config) (rawTransaction : String) : Prop :=
  ∃ input frame rest id, readFrame config.maxFrameBytes input = .frame frame rest ∧
    classify json frame = .ok (.broadcast id rawTransaction)

theorem ClientBroadcast.size {json : SerdeJson} (decodes : json.DecodesWithinText) {config : Config}
    {rawTransaction : String} (sourced : ClientBroadcast json config rawTransaction) :
    rawTransaction.utf8ByteSize ≤ config.maxFrameBytes := by
  obtain ⟨input, frame, rest, id, found, classified⟩ := sourced
  obtain ⟨-, -, length, -⟩ := readFrame_eq_frame found
  exact Nat.le_trans (classify_broadcast_size decodes classified) length

def FromClient (json : SerdeJson) (config : Config) (action : Action) : Prop :=
  ∀ rawTransaction, action = .invoke rawTransaction → ClientBroadcast json config rawTransaction

theorem Roomy.step {json : SerdeJson} (decodes : json.DecodesWithinText) {config : Config}
    (within : WithinBudget config) {limiter next : Limiter} {action : Action}
    (roomy : Roomy config limiter) (sourced : FromClient json config action)
    (taken : limiter.step action = some next) : Roomy config next := by
  refine ⟨roomy.conserved.step taken, ?_⟩
  -- The calls stay within the frame limit because the abstract step keeps them so.
  have abstract : limiter.forget.step action = some next.forget := by
    rw [← roomy.commutes within action, taken]
    rfl
  have before : ∀ call ∈ limiter.forget.calls, call.Fits config.maxFrameBytes := by
    simpa [Limiter.forget] using roomy.fits
  have after := RequestLimiter.step_fits before (fun _ same => (sourced _ same).size decodes) abstract
  simpa [Limiter.forget] using after

theorem Roomy.new (config : Config) : Roomy config (.new config.maxConcurrentBroadcasts) :=
  ⟨.initially _ _, nofun⟩

/-- The limiter behaves as one that counts requests alone. -/
structure CountsRequestsAlone (config : Config) (schedule : List Action) : Prop where
  /-- No call fails for its length or for want of byte permits. -/
  admitted : ∀ limiter, machine.run (.new config.maxConcurrentBroadcasts) schedule = some limiter →
    ∀ call ∈ limiter.calls, call.phase ≠ .refused .length ∧ call.phase ≠ .unwinding ∧
      call.phase ≠ .refused .payload
  behaves : (machine.run (.new config.maxConcurrentBroadcasts) schedule).map Limiter.forget =
    requestMachine.run (.new config.maxConcurrentBroadcasts) schedule

theorem payload_budget_never_binds (json : SerdeJson) (decodes : json.DecodesWithinText) (cli : Cli)
    (config : Config) (accepted : Config.tryFrom cli = .ok config) (schedule : List Action)
    (sourced : ∀ action ∈ schedule, FromClient json config action) :
    CountsRequestsAlone config schedule := by
  have within := Config.tryFrom_withinBudget accepted
  constructor
  · intro limiter execution call member
    have roomy : Roomy config limiter :=
      (Machine.RunsWhere.of_forall sourced execution).preserves
        (fun _ _ _ before origin taken => before.step decodes within origin taken) (.new config)
    have fits := roomy.fits call member
    exact ⟨fits.length, fits.wound, fits.payload⟩
  · exact machine.run_project requestMachine Limiter.forget
      (fun _ _ _ before origin taken => Roomy.step decodes within before origin taken)
      (fun _ action before _ => before.commutes within action) (.new config) sourced

def busySchedule : List Action :=
  [.invoke "00aa", .acquireRequest 0, .invoke "00aa", .acquireRequest 1, .acquirePayload 0,
    .acquirePayload 1, .cancel 1, .innerReturns 0 (.ok "txid"), .releasePayload 1, .releaseRequest 1]

theorem payload_budget_never_binds_by_default :
    Config.tryFrom .default = .ok .default ∧ CountsRequestsAlone .default busySchedule := by
  refine ⟨rfl, payload_budget_never_binds .reference SerdeJson.reference_decodesWithinText .default
    .default rfl busySchedule ?_⟩
  have sourced : ClientBroadcast .reference .default "00aa" :=
    ⟨⟨broadcastRequest, .closed⟩, broadcastRequest, ⟨[], .closed⟩, .number (.posInt 2), by decide +kernel, rfl⟩
  intro action member rawTransaction same
  subst same
  obtain rfl : rawTransaction = "00aa" := by simpa [busySchedule] using member
  exact sourced

theorem framesRead_mem {maxFrameBytes : Nat} {input rest : Input} {frames : List (List UInt8)}
    (read : FramesRead maxFrameBytes input frames rest) {frame : List UInt8} (member : frame ∈ frames) :
    ∃ before after, readFrame maxFrameBytes before = .frame frame after := by
  induction read with
  | nil => cases member
  | @snoc frames middle after last _ found ih =>
    rcases List.mem_append.mp member with earlier | final
    · exact ih earlier
    · obtain rfl := List.mem_singleton.mp final
      exact ⟨middle, after, found⟩

theorem relayed_classified {json : SerdeJson} {intake : Intake} {rawTransaction : String}
    (member : rawTransaction ∈ intake.relayed json) :
    ∃ frame id, intake.bytes? = some frame ∧ classify json frame = .ok (.broadcast id rawTransaction) := by
  cases intake with
  | endOfStream | unreadable _ => cases member
  | frame bytes reservation =>
    simp only [Intake.relayed] at member
    split at member
    · next classified =>
      obtain rfl := List.mem_singleton.mp member
      exact ⟨bytes, _, rfl, classified⟩
    · next classified =>
      split at member
      · obtain rfl := List.mem_singleton.mp member
        exact ⟨bytes, _, rfl, classified⟩
      · cases member
    · cases member
    · cases member

theorem relayCalls_clientBroadcast {json : SerdeJson} {config : Config} {maxPendingRequests : Nat}
    {clientInput upstreamInput : Input} {schedule : List Proxy.Action} {state : Connection}
    (execution : (Connection.machine json ⟨config.maxFrameBytes, maxPendingRequests⟩).run
      (.new clientInput upstreamInput) schedule = some state)
    {rawTransaction : String} (called : rawTransaction ∈ state.client.relayCalls) :
    ClientBroadcast json config rawTransaction := by
  have routed := Connection.run_routed execution
  have asked : rawTransaction ∈ broadcasts json state.client.taken :=
    routed.called ▸ List.mem_append_left _ called
  obtain ⟨intake, taken, relayed⟩ := List.mem_flatMap.mp asked
  obtain ⟨frame, id, bytes, classified⟩ := relayed_classified relayed
  obtain ⟨before, after, found⟩ :=
    framesRead_mem routed.read (List.mem_filterMap.mpr ⟨intake, taken, bytes⟩)
  exact ⟨before, frame, after, id, found, classified⟩

end ElectrumPrivateRelay.Relay.Limited

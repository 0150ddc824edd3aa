import ElectrumPrivateRelay.Proxy.LocalResponses

/-! Where a shutdown cuts the stream of a wallet.

Once the flag is up the client task takes up no further frame. It completes the
one it has, which can still be reserved, written, relayed and answered, and
returns between two frames.
-/

set_option autoImplicit false

namespace ElectrumPrivateRelay.Proxy
open Json Protocol Relay Semantics

variable {json : SerdeJson} {limits : ConnectionLimits}

structure Completes (before after : ClientTask) : Prop where
  input : after.input = before.input
  waiting : ∀ frame id key purpose, after.phase = .reserving frame id key purpose →
    before.phase = after.phase ∧ after.taken = before.taken ∧ after.reserved = before.reserved
  decided : (after.taken = before.taken ∧ after.reserved = before.reserved) ∨
    ∃ frame id key purpose outcome, before.phase = .reserving frame id key purpose ∧
      after.taken = before.taken.dropLast ++ [.frame frame (some outcome)] ∧
      after.reserved = if outcome = .reserved then before.reserved ++ [(key, purpose.pendingRequest)]
        else before.reserved
  written : before.upstreamBytes <+: after.upstreamBytes
  called : before.relayCalls <+: after.relayCalls

theorem Completes.refl (task : ClientTask) : Completes task task :=
  ⟨rfl, fun _ _ _ _ _ => ⟨rfl, rfl, rfl⟩, .inl ⟨rfl, rfl⟩, List.prefix_refl _, List.prefix_refl _⟩

theorem Completes.proceed {start task : ClientTask} (completes : Completes start task) {phase : ClientPhase}
    {bytes : List UInt8} {calls : List String}
    (decided : ∀ frame id key purpose, phase ≠ .reserving frame id key purpose)
    (written : task.upstreamBytes <+: bytes) (called : task.relayCalls <+: calls) :
    Completes start { task with phase, upstreamBytes := bytes, relayCalls := calls } where
  input := completes.input
  waiting frame id key purpose same := absurd same (decided frame id key purpose)
  decided := completes.decided
  written := completes.written.trans written
  called := completes.called.trans called

theorem Completes.enter {start task : ClientTask} (completes : Completes start task) {phase : ClientPhase}
    (decided : ∀ frame id key purpose, phase ≠ .reserving frame id key purpose) :
    Completes start { task with phase } :=
  completes.proceed decided (List.prefix_refl _) (List.prefix_refl _)

theorem reservedPhase_decided (frame : List UInt8) (id : Value) (key : String) (purpose : Purpose)
    (outcome : Reservation) : ∀ otherFrame otherId otherKey otherPurpose,
    reservedPhase json frame id key purpose outcome ≠ .reserving otherFrame otherId otherKey otherPurpose := by
  cases purpose <;> cases outcome <;> simp [reservedPhase]

theorem writingPhase_decided (remaining : List UInt8) : ∀ frame id key purpose,
    writingPhase remaining ≠ .reserving frame id key purpose := by
  unfold writingPhase
  split <;> simp

theorem Completes.reserve {start task : ClientTask} (completes : Completes start task) {frame : List UInt8}
    {id : Value} {key : String} {purpose : Purpose} (reserving : task.phase = .reserving frame id key purpose)
    (outcome : Reservation) : Completes start (task.reserve json frame id key purpose outcome) := by
  obtain ⟨same, taken, reserved⟩ := completes.waiting frame id key purpose reserving
  refine ⟨completes.input, ?_, .inr ⟨frame, id, key, purpose, outcome, same.trans reserving, ?_, ?_⟩,
    completes.written, completes.called⟩
  · intro otherFrame otherId otherKey otherPurpose phase
    exact absurd phase (reservedPhase_decided frame id key purpose outcome _ _ _ _)
  · simp only [ClientTask.reserve, taken]
  · simp only [ClientTask.reserve, reserved]

namespace Connection

variable {state next final : Connection}

theorem ClientEffect.completes {action : ClientAction} (effect : state.ClientEffect json limits action next)
    (flag : state.shutdown = true) {start : ClientTask} (completes : Completes start state.client) :
    Completes start next.client := by
  cases effect with
  | read _ unset =>
    -- the select is biased towards the flag
    rw [flag] at unset
    cases unset
  | reserved phase _ => exact completes.reserve phase _
  | wrote _ => exact completes.proceed (writingPhase_decided _) (List.prefix_append _ _) (List.prefix_refl _)
  | called _ => exact completes.proceed (by simp) (List.prefix_refl _) (List.prefix_append _ _)
  | observed _ _ | writeFailed _ | returned _ | returnedUnkeyed _ | released _ | answered _ _ | noticed _ _
  | refused _ _ | cancelled _ _ => exact completes.enter (by simp)

theorem ClientEffect.shutdown_eq {action : ClientAction} (effect : state.ClientEffect json limits action next) :
    next.shutdown = state.shutdown := by
  cases effect <;> rfl

theorem UpstreamEffect.shutdown_eq {action : UpstreamAction}
    (effect : state.UpstreamEffect json limits action next) : next.shutdown = state.shutdown := by
  cases effect <;> rfl

theorem step_shutdown {action : Action} (flag : state.shutdown = true)
    (taken : state.step json limits action = some next) : next.shutdown = true := by
  cases action with
  | client _ => exact (step_client taken).shutdown_eq.trans flag
  | upstream _ => exact (step_upstream taken).shutdown_eq.trans flag
  | writer move =>
    cases move <;> simp only [step, writerStep] at taken <;> repeat' (split at taken)
    all_goals
      cases taken
      try exact flag
  | supervisor move =>
    cases move <;> simp only [step, supervisorStep] at taken <;> repeat' (split at taken)
    all_goals
      cases taken
      try exact flag
  | beginShutdown =>
    cases taken
    rfl

theorem step_completes {action : Action} {start : ClientTask} (flag : state.shutdown = true)
    (completes : Completes start state.client) (taken : state.step json limits action = some next) :
    Completes start next.client := by
  rcases step_cases taken with ⟨_, -, effect⟩ | ⟨_, -, effect⟩ | quiet
  · exact effect.completes flag completes
  · exact effect.client_eq ▸ completes
  · exact quiet.client ▸ completes

theorem run_completes {schedule : List Action} (flag : state.shutdown = true)
    (execution : (machine json limits).run state schedule = some final) :
    Completes state.client final.client := by
  refine ((machine json limits).run_preserves
    (motive := fun later => later.shutdown = true ∧ Completes state.client later.client) ?_
    ⟨flag, .refl _⟩ execution).2
  rintro middle action later ⟨raised, completes⟩ taken
  exact ⟨step_shutdown raised taken, step_completes raised completes taken⟩

end Connection

/-- A frame that was taken up is either decided or waits for its reservation,
and no frame before it has closed the connection. -/
structure Orderly (json : SerdeJson) (task : ClientTask) : Prop where
  earlier : ∀ intake ∈ task.taken.dropLast, intake.stops json = false
  undecided : ∀ before frame, task.taken = before ++ [.frame frame none] →
    ∀ id rawTransaction key, classify json frame = .ok (.broadcast id rawTransaction) →
      requestIdKey json id = some key → task.phase = .reserving frame id key (.broadcast rawTransaction)
  whole : task.phase = .ended .ok → task.upstreamBytes = forwarded json task.taken

theorem Orderly.proceed {task : ClientTask} (orderly : Orderly json task) {phase : ClientPhase}
    {bytes : List UInt8} {calls : List String}
    (decided : ∀ frame id key purpose, task.phase ≠ .reserving frame id key purpose)
    (whole : phase = .ended .ok → bytes = forwarded json task.taken) :
    Orderly json { task with phase, upstreamBytes := bytes, relayCalls := calls } := by
  refine ⟨orderly.earlier, ?_, whole⟩
  intro before frame taken id rawTransaction key classified keyed
  exact absurd (orderly.undecided before frame taken id rawTransaction key classified keyed)
    (decided frame id key (.broadcast rawTransaction))

theorem takenUpPhase_broadcast {frame : List UInt8} {id : Value} {rawTransaction key : String}
    (classified : classify json frame = .ok (.broadcast id rawTransaction))
    (keyed : requestIdKey json id = some key) :
    takenUpPhase json frame = .reserving frame id key (.broadcast rawTransaction) := by
  simp only [takenUpPhase, classified, keyed]

theorem takenUpPhase_running (frame : List UInt8) : takenUpPhase json frame ≠ .ended .ok := by
  unfold takenUpPhase
  repeat' split
  all_goals simp

theorem Orderly.afterRead {input : Input} {task : ClientTask} (routed : Routed json limits input task)
    (reading : task.phase = .reading) : Orderly json (task.read json limits) := by
  have idle : task.phase.Idle := by
    rw [reading]
    exact ⟨rfl, rfl, rfl⟩
  have continues : ∀ last : Intake, ∀ intake ∈ (task.taken ++ [last]).dropLast, intake.stops json = false := by
    intro last intake member
    rw [List.dropLast_concat] at member
    exact routed.continues idle member
  -- what is not a frame has no reservation to wait for
  have unread : ∀ last : Intake, last.bytes? = none → ∀ before frame,
      task.taken ++ [last] ≠ before ++ [.frame frame none] := by
    intro last none before frame same
    obtain ⟨-, found⟩ := List.append_inj' same rfl
    cases found
    cases none
  obtain ⟨written, -⟩ := routed.upToDate idle
  unfold ClientTask.read
  split
  · next frame rest found =>
    refine ⟨continues _, ?_, fun ended => absurd ended (takenUpPhase_running frame)⟩
    intro before other taken id rawTransaction key classified keyed
    obtain ⟨-, same⟩ := List.append_inj' taken rfl
    cases same
    exact takenUpPhase_broadcast classified keyed
  · refine ⟨continues _, fun before frame same => absurd same (unread _ rfl before frame), fun _ => ?_⟩
    simp only [forwarded_snoc, Intake.written, List.append_nil, written]
  · exact ⟨continues _, fun before frame same => absurd same (unread _ rfl before frame), by simp⟩
  · exact ⟨continues _, fun before frame same => absurd same (unread _ rfl before frame), by simp⟩

theorem Orderly.afterReserve {task : ClientTask} (orderly : Orderly json task) (frame : List UInt8) (id : Value)
    (key : String) (purpose : Purpose) (outcome : Reservation) :
    Orderly json (task.reserve json frame id key purpose outcome) := by
  refine ⟨?_, ?_, ?_⟩
  · intro intake member
    simp only [ClientTask.reserve, List.dropLast_concat] at member
    exact orderly.earlier intake member
  · intro before other taken
    obtain ⟨-, same⟩ := List.append_inj' taken rfl
    cases same
  · intro ended
    cases purpose <;> cases outcome <;> cases ended

namespace Connection

variable {state next final : Connection}

theorem ClientEffect.orderly {action : ClientAction} (effect : state.ClientEffect json limits action next)
    (openly : SendsOpenly state (.client action)) {input : Input}
    (routed : Routed json limits input state.client) (orderly : Orderly json state.client) :
    Orderly json next.client := by
  have upToDate : ∀ phase, state.client.phase = phase → phase.isEnded = false → phase.unwritten = [] →
      state.client.upstreamBytes = forwarded json state.client.taken := by
    intro phase same live unwritten
    have written := routed.running (same ▸ live)
    rwa [same, unwritten, List.append_nil] at written
  cases effect with
  | observed phase _ => exact orderly.proceed (by simp [phase]) fun _ => upToDate _ phase rfl rfl
  | read phase _ => exact .afterRead routed phase
  | reserved _ _ => exact orderly.afterReserve _ _ _ _ _
  | @wrote remaining count phase =>
    refine orderly.proceed (by simp [phase]) fun ended => ?_
    unfold writingPhase at ended
    split at ended <;> cases ended
  | noticed phase _ => exact orderly.proceed (by simp [phase]) fun _ => upToDate _ phase rfl rfl
  | writeFailed phase | called phase | returned phase | returnedUnkeyed phase | released phase
  | answered phase _ => exact orderly.proceed (by simp [phase]) (by simp)
  | refused _ closed =>
    rw [openly.1 rfl] at closed
    cases closed
  | cancelled _ _ => exact absurd rfl openly.2

theorem step_orderly {action : Action} {input : Input} (routed : Routed json limits input state.client)
    (orderly : Orderly json state.client) (openly : SendsOpenly state action)
    (taken : state.step json limits action = some next) : Orderly json next.client := by
  rcases step_cases taken with ⟨_, rfl, effect⟩ | ⟨_, -, effect⟩ | quiet
  · exact effect.orderly openly routed orderly
  · exact effect.client_eq ▸ orderly
  · exact quiet.client ▸ orderly

theorem run_orderly {clientInput upstreamInput : Input} {schedule : List Action}
    (execution : (machine json limits).RunsWhere SendsOpenly (.new clientInput upstreamInput) schedule state) :
    Orderly json state.client := by
  have initial : Orderly json (Connection.new clientInput upstreamInput).client :=
    ⟨by simp [Connection.new], by simp [Connection.new], by simp [Connection.new]⟩
  refine (execution.preserves (motive := fun later =>
    Routed json limits clientInput later.client ∧ Orderly json later.client) ?_
    ⟨new_routed clientInput upstreamInput, initial⟩).2
  rintro state action next ⟨routed, orderly⟩ openly taken
  exact ⟨step_routed routed taken, step_orderly routed orderly openly taken⟩

end Connection

/-- Between the two states at most the last frame taken up has moved on. -/
structure CutsAfterLast (json : SerdeJson) (before after : ClientTask) : Prop where
  input : after.input = before.input
  frames : after.frames = before.frames
  earlier : after.taken.dropLast = before.taken.dropLast
  /-- What is still reserved is the identifier of the last frame. -/
  reserved : after.reserved = before.reserved ∨ ∃ frame id key purpose,
    Waits json before.taken frame id key purpose ∧
      after.reserved = before.reserved ++ [(key, purpose.pendingRequest)]
  /-- What is still written or relayed belongs to it as well. -/
  written : forwarded json before.taken.dropLast <+: before.upstreamBytes ∧
    before.upstreamBytes <+: after.upstreamBytes ∧ after.upstreamBytes <+: forwarded json after.taken
  relayed : broadcasts json before.taken.dropLast <+: before.relayCalls ∧
    before.relayCalls <+: after.relayCalls ∧ after.relayCalls <+: broadcasts json after.taken

theorem Completes.cutsAfterLast {input : Input} {before after : ClientTask} (completes : Completes before after)
    (routed : Routed json limits input before) (later : Routed json limits input after) :
    CutsAfterLast json before after := by
  have written := And.intro routed.writtenBefore (And.intro completes.written later.written)
  have relayed := And.intro routed.calledBefore
    (And.intro completes.called (later.called ▸ List.prefix_append _ after.phase.uncalled))
  rcases completes.decided with ⟨taken, reserved⟩ | ⟨frame, id, key, purpose, outcome, phase, taken, reserved⟩
  · exact ⟨completes.input, by simp only [ClientTask.frames, taken], by rw [taken], .inl reserved, written, relayed⟩
  · have waits := routed.waiting frame id key purpose phase
    obtain ⟨earlier, last⟩ := waits.last
    refine ⟨completes.input, ?_, ?_, ?_, written, relayed⟩
    · simp [ClientTask.frames, taken, last, Intake.bytes?]
    · rw [taken, List.dropLast_concat]
    · split at reserved
      · exact .inr ⟨frame, id, key, purpose, waits, reserved⟩
      · exact .inl reserved

def refusalOf (id : Value) : Reservation → Option ProtocolError
  | .reserved => none
  | .duplicate => some invalidRequest
  | .limitExceeded => some (windowFull id)

/-- How a broadcast that was taken up last is answered. -/
inductive AnswersLast (json : SerdeJson) (schedule : List Action) (task : ClientTask) (frames : List (List UInt8))
    (id : Value) (rawTransaction : String) (reservation : Option Reservation) : Prop where
  | relayed (granted : id = .null ∨ reservation = some .reserved)
      (called : ∃ earlier, task.relayCalls = earlier ++ [rawTransaction])
      (enqueued : ∃ earlier outcome, frames = earlier ++ [relayResponse json id outcome] ∧
        (outcomes schedule).getLast? = some outcome)
  | refused {refusal : Reservation} {error : ProtocolError} (denied : reservation = some refusal)
      (reason : refusalOf id refusal = some error)
      (enqueued : ∃ earlier, frames = earlier ++ [error.response json])

theorem refusals_of_last {task : ClientTask} (orderly : Orderly json task) {before : List Intake} {last : Intake}
    (taken : task.taken = before ++ [last]) : refusals json task.taken = (last.refusal json).toList := by
  have none : refusals json before = [] := by
    rw [refusals, List.filterMap_eq_nil_iff]
    intro intake member
    have continues := orderly.earlier intake (by rw [taken, List.dropLast_concat]; exact member)
    cases refused : intake.refusal json with
    | none => rfl
    | some error =>
      rw [refusal_stops refused] at continues
      cases continues
  rw [taken, refusals_snoc, none, List.nil_append]

theorem zipWith_last (json : SerdeJson) {ids : List Value} {id : Value} {returned : List Outcome}
    (counted : (ids ++ [id]).length = returned.length) :
    ∃ earlier outcome, List.zipWith (relayResponse json) (ids ++ [id]) returned =
      earlier ++ [relayResponse json id outcome] ∧ returned.getLast? = some outcome := by
  rcases List.eq_nil_or_concat returned with rfl | ⟨before, outcome, rfl⟩
  · simp at counted
  · rw [List.concat_eq_append] at counted ⊢
    have same : ids.length = before.length := by simpa using counted
    refine ⟨List.zipWith (relayResponse json) ids before, outcome, ?_, by simp⟩
    rw [List.zipWith_append same]
    rfl

namespace Connection

variable {state next final : Connection}

theorem last_broadcast_answered {clientInput upstreamInput : Input} {schedule : List Action}
    (execution : (machine json limits).RunsWhere SendsOpenly (.new clientInput upstreamInput) schedule final)
    (ended : final.client.phase = .ended .ok) {before : List Intake} {frame : List UInt8}
    {reservation : Option Reservation} {id : Value} {rawTransaction : String}
    (taken : final.client.taken = before ++ [.frame frame reservation])
    (classified : classify json frame = .ok (.broadcast id rawTransaction)) :
    AnswersLast json schedule final.client (clientFrames final.sent) id rawTransaction reservation := by
  have routed := run_routed execution.run
  have orderly := run_orderly execution
  obtain ⟨⟨ids, all, frames, counted⟩, -⟩ := run_responds execution
  have called := routed.called
  have quiet : final.client.phase.unreturned = [] ∧ final.client.phase.unsent = [] ∧
      final.client.phase.uncalled = [] := by
    rw [ended]
    exact ⟨rfl, rfl, rfl⟩
  rw [quiet.1, List.append_nil] at all
  rw [quiet.2.1, List.append_nil, refusals_of_last orderly taken] at frames
  rw [quiet.2.2, List.append_nil] at called
  -- Once the frame has been relayed, its identifier is the last to be answered.
  have relayed : (Intake.frame frame reservation).answerId json = [id] →
      (Intake.frame frame reservation).relayed json = [rawTransaction] →
      (Intake.frame frame reservation).refusal json = none →
      (∃ earlier, final.client.relayCalls = earlier ++ [rawTransaction]) ∧
      ∃ earlier outcome, clientFrames final.sent = earlier ++ [relayResponse json id outcome] ∧
        (outcomes schedule).getLast? = some outcome := by
    intro answer call unrefused
    rw [taken, broadcasts_snoc, call] at called
    rw [taken, answerIds_snoc, answer] at all
    rw [unrefused, Option.toList_none, List.map_nil, List.append_nil, ← all] at frames
    obtain ⟨earlier, outcome, last, returned⟩ := zipWith_last json (all ▸ counted)
    exact ⟨⟨_, called⟩, earlier, outcome, frames.trans last, returned⟩
  have denied : ∀ refusal error, reservation = some refusal → refusalOf id refusal = some error →
      (Intake.frame frame reservation).refusal json = some error →
      AnswersLast json schedule final.client (clientFrames final.sent) id rawTransaction reservation := by
    intro refusal error chosen reason found
    rw [found] at frames
    exact .refused chosen reason ⟨_, frames⟩
  cases reservation with
  | none =>
    cases keyed : requestIdKey json id with
    | none =>
      obtain ⟨made, enqueued⟩ := relayed (Intake.answerId_unkeyed classified keyed none)
        (Intake.relayed_unkeyed classified keyed none) (by simp [Intake.refusal, classified])
      exact .relayed (.inl (broadcast_unkeyed classified keyed)) made enqueued
    | some key =>
      -- without its reservation the task could not have returned
      have waiting := orderly.undecided before frame taken id rawTransaction key classified keyed
      rw [ended] at waiting
      cases waiting
  | some outcome =>
    cases outcome with
    | reserved =>
      have granted : (Intake.frame frame (some .reserved)).answerId json = [id] ∧
          (Intake.frame frame (some .reserved)).relayed json = [rawTransaction] := by
        cases id <;> simp [Intake.answerId, Intake.relayed, classified]
      obtain ⟨made, enqueued⟩ := relayed granted.1 granted.2 (by simp [Intake.refusal, classified])
      exact .relayed (.inr rfl) made enqueued
    | duplicate => exact denied .duplicate invalidRequest rfl rfl (by simp [Intake.refusal, classified])
    | limitExceeded => exact denied .limitExceeded (windowFull id) rfl rfl (by simp [Intake.refusal, classified])

end Connection

end ElectrumPrivateRelay.Proxy

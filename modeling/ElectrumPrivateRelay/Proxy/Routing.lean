import ElectrumPrivateRelay.Proxy.Connection

/-! Where the bytes of a wallet go.

Each frame taken up is routed once: to the upstream, to the relay, or to
neither. Both sinks stay prefixes of what the frames taken up so far ask for,
and neither moves again after the first frame that closes the connection.
-/

set_option autoImplicit false

namespace ElectrumPrivateRelay.Proxy
open Json Protocol Semantics

section Asked

variable (json : SerdeJson)

/-- The bytes a frame sends to the upstream: a query without an identifier, or
with one that was reserved. -/
def Intake.written : Intake → List UInt8
  | .frame bytes reservation =>
    match classify json bytes with
    | .ok (.passthrough none) => bytes
    | .ok (.passthrough (some _)) => if reservation = some .reserved then bytes else []
    | .ok (.broadcast _ _) | .error _ => []
  | .endOfStream | .unreadable _ => []

def Intake.relayed : Intake → List String
  | .frame bytes reservation =>
    match classify json bytes with
    | .ok (.broadcast .null rawTransaction) => [rawTransaction]
    | .ok (.broadcast _ rawTransaction) =>
      if reservation = some .reserved then [rawTransaction] else []
    | .ok (.passthrough _) | .error _ => []
  | .endOfStream | .unreadable _ => []

/-- A frame after which nothing more is taken up: oversized or unterminated,
rejected, a duplicate or over the window, or the end of the stream. -/
def Intake.stops : Intake → Bool
  | .frame bytes reservation =>
    match classify json bytes with
    | .ok _ => reservation = some .duplicate || reservation = some .limitExceeded
    | .error _ => true
  | .endOfStream | .unreadable _ => true

def forwarded (taken : List Intake) : List UInt8 := taken.flatMap (Intake.written json)

def broadcasts (taken : List Intake) : List String := taken.flatMap (Intake.relayed json)

@[simp] theorem forwarded_snoc (taken : List Intake) (intake : Intake) :
    forwarded json (taken ++ [intake]) = forwarded json taken ++ intake.written json := by
  simp [forwarded]

@[simp] theorem broadcasts_snoc (taken : List Intake) (intake : Intake) :
    broadcasts json (taken ++ [intake]) = broadcasts json taken ++ intake.relayed json := by
  simp [broadcasts]

end Asked

inductive FramesRead (maxFrameBytes : Nat) (input : Input) : List (List UInt8) → Input → Prop where
  | nil : FramesRead maxFrameBytes input [] input
  | snoc {frames : List (List UInt8)} {middle rest : Input} {frame : List UInt8} :
      FramesRead maxFrameBytes input frames middle →
      readFrame maxFrameBytes middle = .frame frame rest →
      FramesRead maxFrameBytes input (frames ++ [frame]) rest

def Intake.bytes? : Intake → Option (List UInt8)
  | .frame bytes _ => some bytes
  | .endOfStream | .unreadable _ => none

def ClientPhase.unwritten : ClientPhase → List UInt8
  | .writing remaining => remaining
  | _ => []

def ClientPhase.uncalled : ClientPhase → List String
  | .calling _ _ rawTransaction => [rawTransaction]
  | _ => []

def ClientPhase.isStopped : ClientPhase → Bool
  | .closing _ | .ended _ => true
  | _ => false

def ClientTask.frames (task : ClientTask) : List (List UInt8) := task.taken.filterMap Intake.bytes?

structure Waits (json : SerdeJson) (taken : List Intake) (frame : List UInt8) (id : Value)
    (key : String) (purpose : Purpose) : Prop where
  last : ∃ before, taken = before ++ [.frame frame none]
  keyed : requestIdKey json id = some key
  classified : classify json frame = .ok (match purpose with
    | .query => .passthrough (some id)
    | .broadcast rawTransaction => .broadcast id rawTransaction)

structure Routed (json : SerdeJson) (limits : ConnectionLimits) (input : Input) (task : ClientTask) :
    Prop where
  read : FramesRead limits.maxFrameBytes input task.frames task.input
  unreadable : ∀ kind, .unreadable kind ∈ task.taken →
    readFrame limits.maxFrameBytes task.input = .error kind
  waiting : ∀ frame id key purpose, task.phase = .reserving frame id key purpose →
    Waits json task.taken frame id key purpose
  running : task.phase.isEnded = false →
    task.upstreamBytes ++ task.phase.unwritten = forwarded json task.taken
  written : task.upstreamBytes <+: forwarded json task.taken
  writtenBefore : forwarded json task.taken.dropLast <+: task.upstreamBytes
  called : task.relayCalls ++ task.phase.uncalled = broadcasts json task.taken
  calledBefore : broadcasts json task.taken.dropLast <+: task.relayCalls
  stopped : (∃ intake ∈ task.taken, intake.stops json = true) → task.phase.isStopped = true

variable {json : SerdeJson} {limits : ConnectionLimits} {input : Input} {task : ClientTask}

structure ClientPhase.Idle (phase : ClientPhase) : Prop where
  live : phase.isStopped = false
  unwritten : phase.unwritten = []
  uncalled : phase.uncalled = []

theorem ClientPhase.isEnded_of_not_stopped {phase : ClientPhase} (live : phase.isStopped = false) :
    phase.isEnded = false := by
  cases phase <;> first | rfl | cases live

theorem Routed.upToDate (routed : Routed json limits input task) (idle : task.phase.Idle) :
    task.upstreamBytes = forwarded json task.taken ∧ task.relayCalls = broadcasts json task.taken := by
  have written := routed.running (ClientPhase.isEnded_of_not_stopped idle.live)
  have called := routed.called
  rw [idle.unwritten, List.append_nil] at written
  rw [idle.uncalled, List.append_nil] at called
  exact ⟨written, called⟩

theorem Routed.continues (routed : Routed json limits input task) (idle : task.phase.Idle)
    {intake : Intake} (member : intake ∈ task.taken) : intake.stops json = false := by
  by_contra stopping
  have stopped := routed.stopped ⟨intake, member, by simpa using stopping⟩
  rw [idle.live] at stopped
  cases stopped

/-- The phase a frame leads to has outstanding exactly what the frame asks for. -/
structure Decides (json : SerdeJson) (before : List Intake) (intake : Intake) (phase : ClientPhase) :
    Prop where
  waiting : ∀ frame id key purpose, phase = .reserving frame id key purpose →
    Waits json (before ++ [intake]) frame id key purpose
  writes : intake.written json = phase.unwritten
  calls : intake.relayed json = phase.uncalled
  stops : intake.stops json = true → phase.isStopped = true

/-- Deciding what becomes of the last frame leaves its bytes or its call
outstanding. The frames before it are done. -/
theorem Routed.decide (routed : Routed json limits input task) (idle : task.phase.Idle)
    {before : List Intake} {intake : Intake} {rest : Input} {phase : ClientPhase}
    {reserved : List (String × PendingRequest)}
    (earlier : ∀ other ∈ before, other ∈ task.taken)
    (doneWrites : forwarded json before = forwarded json task.taken)
    (doneCalls : broadcasts json before = broadcasts json task.taken)
    (read : FramesRead limits.maxFrameBytes input ((before ++ [intake]).filterMap Intake.bytes?) rest)
    (unreadable : ∀ kind, intake = .unreadable kind →
      readFrame limits.maxFrameBytes rest = .error kind)
    (decides : Decides json before intake phase) :
    Routed json limits input
      { task with phase, input := rest, taken := before ++ [intake], reserved } := by
  obtain ⟨written, called⟩ := routed.upToDate idle
  -- Nothing was outstanding, so both sinks hold exactly what the frames before
  -- the last one asked for, and the last one adds what the new phase still has
  -- to do.
  refine
    { read
      waiting := decides.waiting
      unreadable := ?_
      running := fun _ => by rw [forwarded_snoc, written, doneWrites, decides.writes]
      written := by
        rw [forwarded_snoc, written, doneWrites]
        exact List.prefix_append _ _
      writtenBefore := by
        simp only [List.dropLast_concat, written, doneWrites, List.prefix_refl]
      called := by rw [broadcasts_snoc, called, doneCalls, decides.calls]
      calledBefore := by
        simp only [List.dropLast_concat, called, doneCalls, List.prefix_refl]
      stopped := ?_ }
  · intro kind member
    rcases List.mem_append.mp member with previous | last
    · have continuing := routed.continues idle (earlier _ previous)
      cases continuing
    · exact unreadable kind (List.mem_singleton.mp last).symm
  · rintro ⟨other, member, stopping⟩
    rcases List.mem_append.mp member with previous | last
    · rw [routed.continues idle (earlier other previous)] at stopping
      cases stopping
    · exact decides.stops (List.mem_singleton.mp last ▸ stopping)

theorem Routed.advance (routed : Routed json limits input task) {phase : ClientPhase}
    {bytes : List UInt8} {calls : List String}
    (live : task.phase.isEnded = false)
    (waiting : ∀ frame id key purpose, phase ≠ .reserving frame id key purpose)
    (stays : task.phase.isStopped = true → phase.isStopped = true)
    (longer : task.upstreamBytes <+: bytes)
    (writes : bytes ++ phase.unwritten = task.upstreamBytes ++ task.phase.unwritten)
    (more : task.relayCalls <+: calls)
    (made : calls ++ phase.uncalled = task.relayCalls ++ task.phase.uncalled) :
    Routed json limits input { task with phase, upstreamBytes := bytes, relayCalls := calls } := by
  -- What is written and what is outstanding keep their sum.
  have running : bytes ++ phase.unwritten = forwarded json task.taken :=
    writes.trans (routed.running live)
  exact
    { read := routed.read
      unreadable := routed.unreadable
      waiting := fun frame id key purpose same => absurd same (waiting frame id key purpose)
      running := fun _ => running
      written := running ▸ List.prefix_append _ _
      writtenBefore := routed.writtenBefore.trans longer
      called := made.trans routed.called
      calledBefore := routed.calledBefore.trans more
      stopped := fun some => stays (routed.stopped some) }

theorem Routed.proceed (routed : Routed json limits input task) {phase : ClientPhase}
    (idle : task.phase.Idle) (continued : phase.Idle)
    (waiting : ∀ frame id key purpose, phase ≠ .reserving frame id key purpose) :
    Routed json limits input { task with phase } := by
  refine routed.advance (ClientPhase.isEnded_of_not_stopped idle.live) waiting ?_
    (List.prefix_refl _) ?_ (List.prefix_refl _) ?_
  · rw [idle.live]
    nofun
  · rw [idle.unwritten, continued.unwritten]
  · rw [idle.uncalled, continued.uncalled]

/-- A task that is dropped or returns may leave bytes unwritten, but no call unmade. -/
theorem Routed.finish (routed : Routed json limits input task) (awaiting : task.phase.isAwaiting = true)
    (result : TaskEnd) : Routed json limits input { task with phase := .ended result } := by
  -- The one phase with a call outstanding does not await and cannot be dropped.
  have quiet : task.phase.uncalled = [] := by
    cases same : task.phase <;> first | rfl | simp [same, ClientPhase.isAwaiting] at awaiting
  have called := routed.called
  rw [quiet] at called
  exact
    { read := routed.read
      unreadable := routed.unreadable
      waiting := nofun
      running := nofun
      written := routed.written
      writtenBefore := routed.writtenBefore
      called
      calledBefore := routed.calledBefore
      stopped := fun _ => rfl }

theorem broadcast_unkeyed {frame : List UInt8} {id : Value} {rawTransaction : String}
    (classified : classify json frame = .ok (.broadcast id rawTransaction))
    (unkeyed : requestIdKey json id = none) : id = .null := by
  obtain ⟨tree, request, -, -, rfl, accepted, -⟩ := classify_broadcast classified
  cases present : request.id with
  | none => rfl
  | some value =>
    have valid := accepted value present
    rw [← requestIdKey_isSome json value] at valid
    rw [present, Option.getD_some] at unkeyed
    rw [unkeyed] at valid
    cases valid

theorem Intake.relayed_unkeyed {frame : List UInt8} {id : Value} {rawTransaction : String}
    (classified : classify json frame = .ok (.broadcast id rawTransaction))
    (unkeyed : requestIdKey json id = none) (reservation : Option Reservation) :
    (Intake.frame frame reservation).relayed json = [rawTransaction] := by
  obtain rfl := broadcast_unkeyed classified unkeyed
  simp only [Intake.relayed, classified]

theorem Intake.relayed_keyed {frame : List UInt8} {id : Value} {rawTransaction key : String}
    (classified : classify json frame = .ok (.broadcast id rawTransaction))
    (keyed : requestIdKey json id = some key) (reservation : Option Reservation) :
    (Intake.frame frame reservation).relayed json =
      if reservation = some .reserved then [rawTransaction] else [] := by
  cases id with
  | null => cases keyed
  | bool _ | number _ | string _ | array _ | object _ => simp only [Intake.relayed, classified]

theorem Waits.undecided {taken : List Intake} {frame : List UInt8} {id : Value} {key : String}
    {purpose : Purpose} (waits : Waits json taken frame id key purpose) :
    (Intake.frame frame none).written json = [] ∧ (Intake.frame frame none).relayed json = [] := by
  obtain ⟨-, keyed, classified⟩ := waits
  cases purpose with
  | query => simp [Intake.written, Intake.relayed, classified]
  | broadcast rawTransaction => simp [Intake.written, classified, Intake.relayed_keyed classified keyed]

theorem takenUpPhase_decides (before : List Intake) (frame : List UInt8) :
    Decides json before (.frame frame none) (takenUpPhase json frame) := by
  unfold takenUpPhase
  split
  · next classified =>
    exact ⟨nofun, by simp [Intake.written, classified, ClientPhase.unwritten],
      by simp [Intake.relayed, classified, ClientPhase.uncalled],
      by simp [Intake.stops, classified]⟩
  · next id classified =>
    split
    · next key keyed =>
      refine ⟨?_, by simp [Intake.written, classified, ClientPhase.unwritten],
        by simp [Intake.relayed, classified, ClientPhase.uncalled],
        by simp [Intake.stops, classified]⟩
      intro frame id key purpose same
      cases same
      exact ⟨⟨before, rfl⟩, keyed, classified⟩
    · exact ⟨nofun, by simp [Intake.written, classified, ClientPhase.unwritten],
        by simp [Intake.relayed, classified, ClientPhase.uncalled], fun _ => rfl⟩
  · next id rawTransaction classified =>
    -- With a key the call has to wait for its reservation, without one it is made.
    split
    · next key keyed =>
      refine ⟨?_, by simp [Intake.written, classified, ClientPhase.unwritten],
        by simp [Intake.relayed_keyed classified keyed, ClientPhase.uncalled],
        by simp [Intake.stops, classified]⟩
      intro frame id key purpose same
      cases same
      exact ⟨⟨before, rfl⟩, keyed, classified⟩
    · next unkeyed =>
      exact ⟨nofun, by simp [Intake.written, classified, ClientPhase.unwritten],
        by simp [Intake.relayed_unkeyed classified unkeyed, ClientPhase.uncalled],
        by simp [Intake.stops, classified]⟩
  · next error classified =>
    exact ⟨nofun, by simp [Intake.written, classified, ClientPhase.unwritten],
      by simp [Intake.relayed, classified, ClientPhase.uncalled], fun _ => rfl⟩

theorem reservedPhase_decides {before : List Intake} {frame : List UInt8} {id : Value} {key : String}
    {purpose : Purpose} (waits : Waits json (before ++ [.frame frame none]) frame id key purpose)
    (outcome : Reservation) :
    Decides json before (.frame frame (some outcome)) (reservedPhase json frame id key purpose outcome) := by
  obtain ⟨-, keyed, classified⟩ := waits
  cases purpose with
  | query =>
    cases outcome <;>
      exact ⟨nofun, by simp [Intake.written, classified, reservedPhase, ClientPhase.unwritten],
        by simp [Intake.relayed, classified, reservedPhase, ClientPhase.uncalled],
        by simp [Intake.stops, classified, reservedPhase, ClientPhase.isStopped]⟩
  | broadcast rawTransaction =>
    cases outcome <;>
      exact ⟨nofun, by simp [Intake.written, classified, reservedPhase, ClientPhase.unwritten],
        by simp [Intake.relayed_keyed classified keyed, reservedPhase, ClientPhase.uncalled],
        by simp [Intake.stops, classified, reservedPhase, ClientPhase.isStopped]⟩

theorem Routed.afterRead (routed : Routed json limits input task) (reading : task.phase = .reading) :
    Routed json limits input (task.read json limits) := by
  have idle : task.phase.Idle := by rw [reading]; exact ⟨rfl, rfl, rfl⟩
  have unread : ∀ intake : Intake, intake.bytes? = none →
      FramesRead limits.maxFrameBytes input ((task.taken ++ [intake]).filterMap Intake.bytes?) task.input := by
    intro intake none
    simpa [none, ClientTask.frames] using routed.read
  unfold ClientTask.read
  split
  · next frame rest found =>
    refine routed.decide idle (fun _ => id) rfl rfl ?_ nofun (takenUpPhase_decides task.taken frame)
    simpa [Intake.bytes?, ClientTask.frames] using routed.read.snoc found
  · exact routed.decide idle (fun _ => id) rfl rfl (unread _ rfl) nofun ⟨nofun, rfl, rfl, fun _ => rfl⟩
  · next failed =>
    refine routed.decide idle (fun _ => id) rfl rfl (unread _ rfl) ?_ ⟨nofun, rfl, rfl, fun _ => rfl⟩
    rintro kind ⟨⟩
    exact failed
  · next failed =>
    refine routed.decide idle (fun _ => id) rfl rfl (unread _ rfl) ?_ ⟨nofun, rfl, rfl, fun _ => rfl⟩
    rintro kind ⟨⟩
    exact failed

theorem Routed.afterReserve (routed : Routed json limits input task) {frame : List UInt8} {id : Value}
    {key : String} {purpose : Purpose} (reserving : task.phase = .reserving frame id key purpose)
    (outcome : Reservation) :
    Routed json limits input (task.reserve json frame id key purpose outcome) := by
  have idle : task.phase.Idle := by rw [reserving]; exact ⟨rfl, rfl, rfl⟩
  have waits := routed.waiting frame id key purpose reserving
  -- The frame was recorded when it was taken up; its outcome replaces that entry.
  obtain ⟨before, taken⟩ := waits.last
  have read := routed.read
  rw [taken] at waits
  have decides := reservedPhase_decides waits outcome
  have nothing := waits.undecided
  simp only [ClientTask.frames, taken] at read
  unfold ClientTask.reserve
  rw [taken, List.dropLast_concat]
  refine routed.decide idle ?_ ?_ ?_ ?_ nofun decides
  · intro other member
    rw [taken]
    exact List.mem_append_left _ member
  · rw [taken, forwarded_snoc, nothing.1, List.append_nil]
  · rw [taken, broadcasts_snoc, nothing.2, List.append_nil]
  · simpa [Intake.bytes?] using read

namespace Connection

variable {state next final : Connection}

theorem ClientEffect.routed {action : ClientAction}
    (effect : state.ClientEffect json limits action next)
    (routed : Routed json limits input state.client) : Routed json limits input next.client := by
  cases effect with
  | observed phase _ => exact routed.finish (by rw [phase]; rfl) .ok
  | read phase _ => exact routed.afterRead phase
  | reserved phase _ => exact routed.afterReserve phase _
  | @wrote remaining count phase =>
    have rest : (writingPhase (remaining.drop count)).unwritten = remaining.drop count := by
      unfold writingPhase
      split
      · next done => exact (List.isEmpty_iff.mp done).symm
      · rfl
    refine routed.advance (by rw [phase]; rfl) ?_ (by rw [phase]; nofun) (List.prefix_append _ _) ?_
      (List.prefix_refl _) ?_
    · intro _ _ _ _ same
      unfold writingPhase at same
      split at same <;> cases same
    · rw [rest, phase, List.append_assoc, List.take_append_drop]
      rfl
    · rw [phase]
      unfold writingPhase
      split <;> rfl
  | writeFailed phase => exact routed.finish (by rw [phase]; rfl) .error
  | called phase =>
    refine routed.advance (by rw [phase]; rfl) nofun (by rw [phase]; nofun) (List.prefix_refl _)
      (by rw [phase]; rfl) (List.prefix_append _ _) ?_
    rw [phase]
    simp [ClientPhase.uncalled]
  | returned phase => exact routed.proceed (by rw [phase]; exact ⟨rfl, rfl, rfl⟩) ⟨rfl, rfl, rfl⟩ nofun
  | returnedUnkeyed phase =>
    exact routed.proceed (by rw [phase]; exact ⟨rfl, rfl, rfl⟩) ⟨rfl, rfl, rfl⟩ nofun
  | released phase => exact routed.proceed (by rw [phase]; exact ⟨rfl, rfl, rfl⟩) ⟨rfl, rfl, rfl⟩ nofun
  | answered phase _ => exact routed.proceed (by rw [phase]; exact ⟨rfl, rfl, rfl⟩) ⟨rfl, rfl, rfl⟩ nofun
  | noticed phase _ => exact routed.finish (by rw [phase]; rfl) .ok
  | refused phase _ =>
    apply routed.finish
    rcases phase with phase | phase <;> rw [phase] <;> rfl
  | cancelled _ awaiting => exact routed.finish awaiting .cancelled

theorem step_routed {action : Action} (routed : Routed json limits input state.client)
    (taken : state.step json limits action = some next) : Routed json limits input next.client := by
  rcases step_cases taken with ⟨_, -, effect⟩ | ⟨_, -, effect⟩ | quiet
  · exact effect.routed routed
  · exact effect.client_eq ▸ routed
  · exact quiet.client ▸ routed

theorem new_routed (clientInput upstreamInput : Input) :
    Routed json limits clientInput (Connection.new clientInput upstreamInput).client where
  read := .nil
  unreadable := nofun
  waiting := nofun
  running _ := rfl
  written := List.prefix_refl _
  writtenBefore := List.prefix_refl _
  called := rfl
  calledBefore := List.prefix_refl _
  stopped := nofun

theorem run_routed {clientInput upstreamInput : Input} {schedule : List Action}
    (execution : (machine json limits).run (.new clientInput upstreamInput) schedule = some state) :
    Routed json limits clientInput state.client :=
  (machine json limits).run_preserves (motive := fun later => Routed json limits clientInput later.client)
    (fun _ _ _ => step_routed) (new_routed clientInput upstreamInput) execution

structure SameRouting (before after : ClientTask) : Prop where
  input : after.input = before.input
  taken : after.taken = before.taken
  upstreamBytes : after.upstreamBytes = before.upstreamBytes
  relayCalls : after.relayCalls = before.relayCalls

theorem ClientEffect.stopped {action : ClientAction}
    (effect : state.ClientEffect json limits action next)
    (stopped : state.client.phase.isStopped = true) :
    next.client.phase.isStopped = true ∧ SameRouting state.client next.client := by
  cases effect with
  | observed phase _ | read phase _ | reserved phase _ | wrote phase | writeFailed phase
  | called phase | returned phase | returnedUnkeyed phase | released phase | answered phase _ =>
    rw [phase] at stopped
    cases stopped
  | noticed _ _ | refused _ _ | cancelled _ _ => exact ⟨rfl, ⟨rfl, rfl, rfl, rfl⟩⟩

theorem run_stopped {schedule : List Action} (stopped : state.client.phase.isStopped = true)
    (execution : (machine json limits).run state schedule = some final) :
    SameRouting state.client final.client := by
  have kept := (machine json limits).run_preserves
    (motive := fun later => later.client.phase.isStopped = true ∧ SameRouting state.client later.client)
    ?_ ⟨stopped, ⟨rfl, rfl, rfl, rfl⟩⟩ execution
  · exact kept.2
  · rintro middle action later ⟨halted, same⟩ taken
    rcases step_cases taken with ⟨_, -, effect⟩ | ⟨_, -, effect⟩ | quiet
    · obtain ⟨still, after⟩ := effect.stopped halted
      exact ⟨still, after.input.trans same.input, after.taken.trans same.taken,
        after.upstreamBytes.trans same.upstreamBytes, after.relayCalls.trans same.relayCalls⟩
    · rw [effect.client_eq]
      exact ⟨halted, same⟩
    · rw [quiet.client]
      exact ⟨halted, same⟩

/-- The routing of one client stream, at one point of a run. -/
structure RoutesExactly (json : SerdeJson) (limits : ConnectionLimits) (input : Input)
    (state : Connection) : Prop where
  read : FramesRead limits.maxFrameBytes input state.client.frames state.client.input
  unreadable : ∀ kind, .unreadable kind ∈ state.client.taken →
    readFrame limits.maxFrameBytes state.client.input = .error kind
  written : state.client.upstreamBytes <+: forwarded json state.client.taken
  called : state.client.relayCalls <+: broadcasts json state.client.taken
  /-- Every frame before the last has been handled. -/
  writtenBefore : forwarded json state.client.taken.dropLast <+: state.client.upstreamBytes
  calledBefore : broadcasts json state.client.taken.dropLast <+: state.client.relayCalls
  settled : state.client.phase = .reading →
    state.client.upstreamBytes = forwarded json state.client.taken ∧
      state.client.relayCalls = broadcasts json state.client.taken
  /-- The first frame that closes the connection is the last to count. -/
  stops : (∃ intake ∈ state.client.taken, intake.stops json = true) →
    state.client.phase.isStopped = true ∧
      ∀ schedule final, (machine json limits).run state schedule = some final →
        SameRouting state.client final.client

theorem client_stream_routed (json : SerdeJson) (limits : ConnectionLimits)
    (clientInput upstreamInput : Input) (schedule : List Action) (state : Connection)
    (execution : (machine json limits).run (.new clientInput upstreamInput) schedule = some state) :
    RoutesExactly json limits clientInput state := by
  have routed := run_routed execution
  exact
    { read := routed.read
      unreadable := routed.unreadable
      written := routed.written
      called := routed.called ▸ List.prefix_append _ _
      writtenBefore := routed.writtenBefore
      calledBefore := routed.calledBefore
      settled := fun reading => routed.upToDate (by rw [reading]; exact ⟨rfl, rfl, rfl⟩)
      stops := fun stopping =>
        ⟨routed.stopped stopping, fun _ _ continued => run_stopped (routed.stopped stopping) continued⟩ }

def walletInput : Input := ⟨versionQuery ++ broadcastRequest ++ utf8 "?\n" ++ versionQuery, .closed⟩

def walletSchedule : List Action :=
  [.client .read, .client .reserve, .client (.write 20),
    .client (.write (versionQuery.length - 20)), .client .read, .client .reserve, .client .call,
    .client (.relayReturns (.ok "txid")), .client .release, .client .send, .client .read, .client .send]

theorem client_stream_routed_until_rejected :
    ∃ state, (machine .reference ⟨1024, 8⟩).run (.new walletInput ⟨[], .closed⟩) walletSchedule =
        some state ∧ state.client.relayCalls = ["00aa"] ∧ state.client.upstreamBytes = versionQuery ∧
      RoutesExactly .reference ⟨1024, 8⟩ walletInput state := by
  have outcome : ((machine .reference ⟨1024, 8⟩).run (.new walletInput ⟨[], .closed⟩) walletSchedule).map
      (fun state => (state.client.relayCalls, state.client.upstreamBytes)) =
        some (["00aa"], versionQuery) := by decide +kernel
  obtain ⟨state, execution, same⟩ := Option.map_eq_some_iff.mp outcome
  obtain ⟨calls, bytes⟩ := Prod.mk.inj same
  exact ⟨state, execution, calls, bytes, client_stream_routed _ _ _ _ _ _ execution⟩

end Connection

end ElectrumPrivateRelay.Proxy

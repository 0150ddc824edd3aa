import ElectrumPrivateRelay.Proxy.Correlation
import ElectrumPrivateRelay.Proxy.Frames
import ElectrumPrivateRelay.Relay.Outcome
import ElectrumPrivateRelay.Semantics.Machine

/-! One wallet connection: the supervised tasks of `proxy_streams_until`.

Every await is a point where the other tasks may move, so each action carries
a task from one await to the next: a critical section of the table, one send,
one part of a write, the start or the return of a relay call. What the peers
and the relay do is part of the schedule. The fields below the line of each
task record its past and are read by no step.
-/

set_option autoImplicit false

namespace ElectrumPrivateRelay.Proxy
open Json Protocol Relay Semantics

structure ConnectionLimits where
  maxFrameBytes : Nat
  maxPendingRequests : Nat

inductive TaskEnd where
  | ok
  | error
  | panicked
  | cancelled
  deriving DecidableEq, Repr

inductive Purpose where
  | query
  | broadcast (rawTransaction : String)
  deriving DecidableEq, Repr

def Purpose.pendingRequest : Purpose → PendingRequest
  | .query => .upstream
  | .broadcast _ => .broadcast

inductive ClientPhase where
  | reading
  | reserving (frame : List UInt8) (id : Value) (key : String) (purpose : Purpose)
  | writing (remaining : List UInt8)
  | calling (id : Value) (key : Option String) (rawTransaction : String)
  | relaying (id : Value) (key : Option String)
  | releasing (key : String) (response : List UInt8)
  | responding (response : List UInt8)
  | closing (response : List UInt8)
  | ended (result : TaskEnd)

/-- A completed `read_frame`, with the reservation its frame was given once it has one. -/
inductive Intake where
  | frame (bytes : List UInt8) (reservation : Option Reservation)
  | endOfStream
  | unreadable (kind : IoErrorKind)
  deriving DecidableEq, Repr

/-- From `taken` on, the fields record the run: the completed reads, the bytes
written to the upstream, the relay calls and the granted reservations. -/
structure ClientTask where
  phase : ClientPhase
  input : Input
  taken : List Intake
  upstreamBytes : List UInt8
  relayCalls : List String
  reserved : List (String × PendingRequest)

/-- The arms of `classify` up to their first await. -/
def takenUpPhase (json : SerdeJson) (frame : List UInt8) : ClientPhase :=
  match classify json frame with
  | .ok (.passthrough none) => .writing frame
  | .ok (.passthrough (some id)) =>
    match requestIdKey json id with
    | some key => .reserving frame id key .query
    -- The source expects a key here and panics without one.
    | none => .ended .panicked
  | .ok (.broadcast id rawTransaction) =>
    match requestIdKey json id with
    | some key => .reserving frame id key (.broadcast rawTransaction)
    -- Nothing can collide with a broadcast that has no identifier.
    | none => .calling id none rawTransaction
  | .error error => .closing (error.response json)

def ClientTask.read (json : SerdeJson) (limits : ConnectionLimits) (task : ClientTask) : ClientTask :=
  match readFrame limits.maxFrameBytes task.input with
  | .frame frame rest =>
    { task with
      phase := takenUpPhase json frame
      input := rest
      taken := task.taken ++ [.frame frame none] }
  | .endOfStream => { task with phase := .ended .ok, taken := task.taken ++ [.endOfStream] }
  -- An oversized or unterminated frame is answered, a broken socket is not.
  | .error .invalidData =>
    { task with
      phase := .closing (invalidFrameResponse json)
      taken := task.taken ++ [.unreadable .invalidData] }
  | .error .other => { task with phase := .ended .error, taken := task.taken ++ [.unreadable .other] }

/-- Where the task goes with the outcome of its reservation. -/
def reservedPhase (json : SerdeJson) (frame : List UInt8) (id : Value) (key : String) :
    Purpose → Reservation → ClientPhase
  | .query, .reserved => .writing frame
  | .broadcast rawTransaction, .reserved => .calling id (some key) rawTransaction
  | _, .duplicate => .closing (invalidFrameResponse json)
  | _, .limitExceeded => .closing (pendingRequestLimitResponse json id)

def ClientTask.reserve (json : SerdeJson) (task : ClientTask) (frame : List UInt8) (id : Value)
    (key : String) (purpose : Purpose) (outcome : Reservation) : ClientTask :=
  { task with
    phase := reservedPhase json frame id key purpose outcome
    taken := task.taken.dropLast ++ [.frame frame (some outcome)]
    reserved := if outcome = .reserved then task.reserved ++ [(key, purpose.pendingRequest)]
      else task.reserved }

def relayResponse (json : SerdeJson) (id : Value) : Outcome → List UInt8
  | .ok transactionId => successResponse json id transactionId
  | .err error => relayErrorResponse json id (error.kind = .disabled)

def writingPhase (remaining : List UInt8) : ClientPhase :=
  if remaining.isEmpty then .reading else .writing remaining

inductive UpstreamPhase where
  | reading
  | locking (frame : List UInt8) (key : String)
  /-- The key of a response is no longer in the table. -/
  | sending (frame : List UInt8) (key : Option String)
  | ended (result : TaskEnd)
  deriving DecidableEq, Repr

/-- `removed` records the keys that were taken out of the table. -/
structure UpstreamTask where
  phase : UpstreamPhase
  input : Input
  removed : List String
  deriving DecidableEq, Repr

def UpstreamTask.read (json : SerdeJson) (limits : ConnectionLimits) (task : UpstreamTask) :
    UpstreamTask :=
  match readFrame limits.maxFrameBytes task.input with
  | .frame frame rest =>
    match upstreamFrame json frame with
    | some (.response key) => { task with phase := .locking frame key, input := rest }
    | some .notification => { task with phase := .sending frame none, input := rest }
    | none => { task with phase := .ended .error, input := rest }
  | .endOfStream => { task with phase := .ended .ok }
  | .error _ => { task with phase := .ended .error }

inductive WriterPhase where
  | receiving
  | writing (remaining : List UInt8)
  | shuttingDown
  | ended (result : TaskEnd)
  deriving DecidableEq, Repr

/-- `walletBytes` records what was written to the wallet. -/
structure WriterTask where
  phase : WriterPhase
  walletBytes : List UInt8
  deriving DecidableEq, Repr

inductive FinishedTask where
  | writer
  | upstream
  | client
  deriving DecidableEq, Repr

inductive SupervisorPhase where
  | selecting
  | joining (finished : FinishedTask)
  | flushing
  | aborting
  | returned
  | cancelled
  deriving DecidableEq, Repr

/-- A task whose handle was aborted is dropped at its current await. -/
structure Supervisor where
  phase : SupervisorPhase
  writerAborted : Bool
  upstreamAborted : Bool
  clientAborted : Bool
  deriving DecidableEq, Repr

def Supervisor.abortSiblings (supervisor : Supervisor) (finished : FinishedTask) : Supervisor :=
  match finished with
  | .writer => { supervisor with phase := .joining .writer, upstreamAborted := true, clientAborted := true }
  -- Whatever the client task is waiting for, a relay call included.
  | .upstream => { supervisor with phase := .joining .upstream, clientAborted := true }
  | .client => { supervisor with phase := .joining .client, upstreamAborted := true }

/-! ## The connection -/

inductive Origin where
  /-- The response of a broadcast. -/
  | answer
  /-- The last response of the client task. -/
  | notice
  /-- A frame of the upstream with the key it took out of the table. -/
  | upstream (key : Option String)
  deriving DecidableEq, Repr

structure Sent where
  origin : Origin
  frame : List UInt8
  deriving DecidableEq, Repr

/-- `sent` records the frames that were put into the channel. -/
structure Connection where
  client : ClientTask
  upstream : UpstreamTask
  writer : WriterTask
  supervisor : Supervisor
  pending : PendingRequests
  /-- The frames in the channel to the writer. -/
  output : List (List UInt8)
  shutdown : Bool
  sent : List Sent

def outputCapacity : Nat := 32

def Connection.new (clientInput upstreamInput : Input) : Connection where
  client := ⟨.reading, clientInput, [], [], [], []⟩
  upstream := ⟨.reading, upstreamInput, []⟩
  writer := ⟨.receiving, []⟩
  supervisor := ⟨.selecting, false, false, false⟩
  pending := ∅
  output := []
  shutdown := false
  sent := []

def ClientPhase.isEnded : ClientPhase → Bool
  | .ended _ => true
  | _ => false

def ClientPhase.isCancelled : ClientPhase → Bool
  | .ended .cancelled => true
  | _ => false

def UpstreamPhase.isEnded : UpstreamPhase → Bool
  | .ended _ => true
  | _ => false

def WriterPhase.isEnded : WriterPhase → Bool
  | .ended _ => true
  | _ => false

/-- Where the task can be dropped. Between a reservation and the start of the
relay call it does not await. -/
def ClientPhase.isAwaiting : ClientPhase → Bool
  | .calling _ _ _ | .ended _ => false
  | _ => true

inductive ClientAction where
  | observeShutdown
  | read
  | reserve
  | write (count : Nat)
  | failWrite
  | call
  | relayReturns (outcome : Outcome)
  | release
  | send
  | cancel
  deriving DecidableEq, Repr

inductive UpstreamAction where
  | read
  | lock
  | send
  | cancel
  deriving DecidableEq, Repr

inductive WriterAction where
  | receive
  | write (count : Nat)
  | failWrite
  | finish (result : TaskEnd)
  | cancel
  deriving DecidableEq, Repr

inductive SupervisorAction where
  | select (finished : FinishedTask)
  | joined
  | flushed
  | expire
  | cancel
  deriving DecidableEq, Repr

inductive Action where
  | client (action : ClientAction)
  | upstream (action : UpstreamAction)
  | writer (action : WriterAction)
  | supervisor (action : SupervisorAction)
  | beginShutdown
  deriving DecidableEq, Repr

namespace Connection

/-- A completed send: refused once the writer has dropped its end, otherwise
possible when the channel has room. -/
def enqueue (state : Connection) (origin : Origin) (frame : List UInt8)
    (closed delivered : Connection → Connection) : Option Connection :=
  if state.writer.phase.isEnded then some (closed state)
  else if state.output.length < outputCapacity then
    some (delivered { state with
      output := state.output ++ [frame]
      sent := state.sent ++ [⟨origin, frame⟩] })
  else none

def enterClient (phase : ClientPhase) (state : Connection) : Connection :=
  { state with client := { state.client with phase } }

def enterUpstream (phase : UpstreamPhase) (state : Connection) : Connection :=
  { state with upstream := { state.upstream with phase } }

def clientStep (json : SerdeJson) (limits : ConnectionLimits) (state : Connection) :
    ClientAction → Option Connection
  | .observeShutdown =>
    match state.client.phase, state.shutdown with
    | .reading, true => some (state.enterClient (.ended .ok))
    | _, _ => none
  | .read =>
    match state.client.phase, state.shutdown with
    -- the select is biased: a frame is taken up only while the flag is down
    | .reading, false => some { state with client := state.client.read json limits }
    | _, _ => none
  | .reserve =>
    match state.client.phase with
    | .reserving frame id key purpose =>
      let (outcome, pending) :=
        reserveRequest state.pending key purpose.pendingRequest limits.maxPendingRequests
      some { state with
        client := state.client.reserve json frame id key purpose outcome
        pending }
    | _ => none
  | .write count =>
    match state.client.phase with
    | .writing remaining =>
      if 1 ≤ count ∧ count ≤ remaining.length then
        some { state with client := { state.client with
          phase := writingPhase (remaining.drop count)
          upstreamBytes := state.client.upstreamBytes ++ remaining.take count } }
      else none
    | _ => none
  | .failWrite =>
    match state.client.phase with
    | .writing _ => some (state.enterClient (.ended .error))
    | _ => none
  | .call =>
    match state.client.phase with
    | .calling id key rawTransaction =>
      some { state with client := { state.client with
        phase := .relaying id key
        relayCalls := state.client.relayCalls ++ [rawTransaction] } }
    | _ => none
  | .relayReturns outcome =>
    match state.client.phase with
    -- The entry is taken out of the table before the response goes out.
    | .relaying id (some key) =>
      some (state.enterClient (.releasing key (relayResponse json id outcome)))
    | .relaying id none => some (state.enterClient (.responding (relayResponse json id outcome)))
    | _ => none
  | .release =>
    match state.client.phase with
    | .releasing key response =>
      some { state with
        client := { state.client with phase := .responding response }
        pending := state.pending.erase key }
    | _ => none
  | .send =>
    match state.client.phase with
    | .responding response =>
      state.enqueue .answer response (enterClient (.ended .ok)) (enterClient .reading)
    | .closing response =>
      state.enqueue .notice response (enterClient (.ended .ok)) (enterClient (.ended .ok))
    | _ => none
  | .cancel =>
    if state.supervisor.clientAborted && state.client.phase.isAwaiting then
      some (state.enterClient (.ended .cancelled))
    else none

def upstreamStep (json : SerdeJson) (limits : ConnectionLimits) (state : Connection) :
    UpstreamAction → Option Connection
  | .read =>
    match state.upstream.phase with
    | .reading => some { state with upstream := state.upstream.read json limits }
    | _ => none
  | .lock =>
    match state.upstream.phase with
    | .locking frame key =>
      match takeResponse state.pending key with
      -- The lock is released here: the key is free before its response is sent.
      | (true, pending) =>
        some { state with
          upstream := { state.upstream with
            phase := .sending frame (some key)
            removed := state.upstream.removed ++ [key] }
          pending }
      | (false, pending) => some { state.enterUpstream .reading with pending }
    | _ => none
  | .send =>
    match state.upstream.phase with
    | .sending frame key =>
      state.enqueue (.upstream key) frame (enterUpstream (.ended .ok)) (enterUpstream .reading)
    | _ => none
  | .cancel =>
    if state.supervisor.upstreamAborted && !state.upstream.phase.isEnded then
      some (state.enterUpstream (.ended .cancelled))
    else none

def writerStep (state : Connection) : WriterAction → Option Connection
  | .receive =>
    match state.writer.phase, state.output with
    | .receiving, frame :: rest =>
      some { state with writer := { state.writer with phase := .writing frame }, output := rest }
    | .receiving, [] =>
      -- both senders are gone
      if state.client.phase.isEnded && state.upstream.phase.isEnded then
        some { state with writer := { state.writer with phase := .shuttingDown } }
      else none
    | _, _ => none
  | .write count =>
    match state.writer.phase with
    | .writing remaining =>
      if 1 ≤ count ∧ count ≤ remaining.length then
        some { state with writer := {
          phase := if (remaining.drop count).isEmpty then .receiving else .writing (remaining.drop count)
          walletBytes := state.writer.walletBytes ++ remaining.take count } }
      else none
    | _ => none
  | .failWrite =>
    match state.writer.phase with
    | .writing _ => some { state with writer := { state.writer with phase := .ended .error } }
    | _ => none
  | .finish result =>
    match state.writer.phase, result with
    | .shuttingDown, .ok | .shuttingDown, .error =>
      some { state with writer := { state.writer with phase := .ended result } }
    | _, _ => none
  | .cancel =>
    if state.supervisor.writerAborted && !state.writer.phase.isEnded then
      some { state with writer := { state.writer with phase := .ended .cancelled } }
    else none

def hasFinished (state : Connection) : FinishedTask → Bool
  | .writer => state.writer.phase.isEnded
  | .upstream => state.upstream.phase.isEnded
  | .client => state.client.phase.isEnded

def supervisorStep (state : Connection) : SupervisorAction → Option Connection
  | .select finished =>
    if state.supervisor.phase = .selecting ∧ state.hasFinished finished then
      some { state with supervisor := state.supervisor.abortSiblings finished }
    else none
  | .joined =>
    match state.supervisor.phase with
    -- Without a writer there is nothing left to flush.
    | .joining .writer =>
      if state.upstream.phase.isEnded && state.client.phase.isEnded then
        some { state with supervisor := { state.supervisor with phase := .returned } }
      else none
    | .joining .upstream =>
      if state.client.phase.isEnded then
        some { state with supervisor := { state.supervisor with phase := .flushing } }
      else none
    | .joining .client =>
      if state.upstream.phase.isEnded then
        some { state with supervisor := { state.supervisor with phase := .flushing } }
      else none
    | _ => none
  | .flushed =>
    match state.supervisor.phase, state.writer.phase.isEnded with
    | .flushing, true | .aborting, true =>
      some { state with supervisor := { state.supervisor with phase := .returned } }
    | _, _ => none
  | .expire =>
    match state.supervisor.phase with
    | .flushing =>
      some { state with supervisor := { state.supervisor with phase := .aborting, writerAborted := true } }
    | _ => none
  -- the outer task is dropped, and with it the three handles
  | .cancel =>
    match state.supervisor.phase with
    | .returned | .cancelled => none
    | _ => some { state with supervisor := ⟨.cancelled, true, true, true⟩ }

def step (json : SerdeJson) (limits : ConnectionLimits) (state : Connection) : Action → Option Connection
  | .client action => state.clientStep json limits action
  | .upstream action => state.upstreamStep json limits action
  | .writer action => state.writerStep action
  | .supervisor action => state.supervisorStep action
  | .beginShutdown => some { state with shutdown := true }

def machine (json : SerdeJson) (limits : ConnectionLimits) : Machine Connection Action := ⟨step json limits⟩

/-! ## What a step can do -/

section Effects

variable (json : SerdeJson) (limits : ConnectionLimits) (state : Connection)

def HasRoom : Prop := state.writer.phase.isEnded = false ∧ state.output.length < outputCapacity

def push (origin : Origin) (frame : List UInt8) : Connection :=
  { state with output := state.output ++ [frame], sent := state.sent ++ [⟨origin, frame⟩] }

inductive ClientEffect : ClientAction → Connection → Prop where
  | observed (phase : state.client.phase = .reading) (set : state.shutdown = true) :
      ClientEffect .observeShutdown (state.enterClient (.ended .ok))
  | read (phase : state.client.phase = .reading) (unset : state.shutdown = false) :
      ClientEffect .read { state with client := state.client.read json limits }
  | reserved {frame : List UInt8} {id : Value} {key : String} {purpose : Purpose}
      {outcome : Reservation} {pending : PendingRequests}
      (phase : state.client.phase = .reserving frame id key purpose)
      (decided : reserveRequest state.pending key purpose.pendingRequest limits.maxPendingRequests =
        (outcome, pending)) :
      ClientEffect .reserve { state with
        client := state.client.reserve json frame id key purpose outcome
        pending }
  | wrote {remaining : List UInt8} {count : Nat} (phase : state.client.phase = .writing remaining) :
      ClientEffect (.write count) { state with client := { state.client with
        phase := writingPhase (remaining.drop count)
        upstreamBytes := state.client.upstreamBytes ++ remaining.take count } }
  | writeFailed {remaining : List UInt8} (phase : state.client.phase = .writing remaining) :
      ClientEffect .failWrite (state.enterClient (.ended .error))
  | called {id : Value} {key : Option String} {rawTransaction : String}
      (phase : state.client.phase = .calling id key rawTransaction) :
      ClientEffect .call { state with client := { state.client with
        phase := .relaying id key
        relayCalls := state.client.relayCalls ++ [rawTransaction] } }
  | returned {id : Value} {key : String} {outcome : Outcome}
      (phase : state.client.phase = .relaying id (some key)) :
      ClientEffect (.relayReturns outcome) (state.enterClient (.releasing key (relayResponse json id outcome)))
  | returnedUnkeyed {id : Value} {outcome : Outcome} (phase : state.client.phase = .relaying id none) :
      ClientEffect (.relayReturns outcome) (state.enterClient (.responding (relayResponse json id outcome)))
  | released {key : String} {response : List UInt8}
      (phase : state.client.phase = .releasing key response) :
      ClientEffect .release { state with
        client := { state.client with phase := .responding response }
        pending := state.pending.erase key }
  | answered {response : List UInt8} (phase : state.client.phase = .responding response)
      (room : state.HasRoom) :
      ClientEffect .send ((state.push .answer response).enterClient .reading)
  | noticed {response : List UInt8} (phase : state.client.phase = .closing response)
      (room : state.HasRoom) :
      ClientEffect .send ((state.push .notice response).enterClient (.ended .ok))
  | refused {response : List UInt8}
      (phase : state.client.phase = .responding response ∨ state.client.phase = .closing response)
      (closed : state.writer.phase.isEnded = true) :
      ClientEffect .send (state.enterClient (.ended .ok))
  | cancelled (aborted : state.supervisor.clientAborted = true)
      (awaiting : state.client.phase.isAwaiting = true) :
      ClientEffect .cancel (state.enterClient (.ended .cancelled))

inductive UpstreamEffect : UpstreamAction → Connection → Prop where
  | read (phase : state.upstream.phase = .reading) :
      UpstreamEffect .read { state with upstream := state.upstream.read json limits }
  | took {frame : List UInt8} {key : String} (phase : state.upstream.phase = .locking frame key)
      (held : state.pending.lookup key = some .upstream) :
      UpstreamEffect .lock { state with
        upstream := { state.upstream with
          phase := .sending frame (some key)
          removed := state.upstream.removed ++ [key] }
        pending := state.pending.erase key }
  | dropped {frame : List UInt8} {key : String} (phase : state.upstream.phase = .locking frame key)
      (other : state.pending.lookup key ≠ some .upstream) :
      UpstreamEffect .lock (state.enterUpstream .reading)
  | sent {frame : List UInt8} {key : Option String}
      (phase : state.upstream.phase = .sending frame key) (room : state.HasRoom) :
      UpstreamEffect .send ((state.push (.upstream key) frame).enterUpstream .reading)
  | refused {frame : List UInt8} {key : Option String}
      (phase : state.upstream.phase = .sending frame key)
      (closed : state.writer.phase.isEnded = true) :
      UpstreamEffect .send (state.enterUpstream (.ended .ok))
  | cancelled (aborted : state.supervisor.upstreamAborted = true) :
      UpstreamEffect .cancel (state.enterUpstream (.ended .cancelled))

end Effects

variable {json : SerdeJson} {limits : ConnectionLimits} {state next : Connection}

theorem enqueue_cases {origin : Origin} {frame : List UInt8} {closed delivered : Connection → Connection}
    (sent : state.enqueue origin frame closed delivered = some next) :
    (state.writer.phase.isEnded = true ∧ next = closed state) ∨
      (state.HasRoom ∧ next = delivered (state.push origin frame)) := by
  unfold enqueue at sent
  split at sent
  · next ended => exact .inl ⟨ended, (Option.some.inj sent).symm⟩
  · next running =>
    split at sent
    · next room => exact .inr ⟨⟨by simpa using running, room⟩, (Option.some.inj sent).symm⟩
    · cases sent

theorem clientStep_effect {action : ClientAction}
    (taken : state.clientStep json limits action = some next) :
    state.ClientEffect json limits action next := by
  cases action with
  | observeShutdown =>
    simp only [clientStep] at taken
    split at taken
    · next phase set =>
      cases taken
      exact .observed phase set
    · cases taken
  | read =>
    simp only [clientStep] at taken
    split at taken
    · next phase unset =>
      cases taken
      exact .read phase unset
    · cases taken
  | reserve =>
    simp only [clientStep] at taken
    split at taken
    · next phase =>
      cases taken
      exact .reserved phase rfl
    · cases taken
  | write count =>
    simp only [clientStep] at taken
    split at taken
    · next phase =>
      split at taken
      · cases taken
        exact .wrote phase
      · cases taken
    · cases taken
  | failWrite =>
    simp only [clientStep] at taken
    split at taken
    · next phase =>
      cases taken
      exact .writeFailed phase
    · cases taken
  | call =>
    simp only [clientStep] at taken
    split at taken
    · next phase =>
      cases taken
      exact .called phase
    · cases taken
  | relayReturns outcome =>
    simp only [clientStep] at taken
    split at taken
    · next phase =>
      cases taken
      exact .returned phase
    · next phase =>
      cases taken
      exact .returnedUnkeyed phase
    · cases taken
  | release =>
    simp only [clientStep] at taken
    split at taken
    · next phase =>
      cases taken
      exact .released phase
    · cases taken
  | send =>
    simp only [clientStep] at taken
    split at taken
    · next response phase =>
      rcases enqueue_cases taken with ⟨closed, rfl⟩ | ⟨room, rfl⟩
      · exact .refused (.inl phase) closed
      · exact .answered phase room
    · next response phase =>
      rcases enqueue_cases taken with ⟨closed, rfl⟩ | ⟨room, rfl⟩
      · exact .refused (.inr phase) closed
      · exact .noticed phase room
    · cases taken
  | cancel =>
    simp only [clientStep] at taken
    split at taken
    · next both =>
      cases taken
      obtain ⟨aborted, awaiting⟩ := Bool.and_eq_true_iff.mp both
      exact .cancelled aborted awaiting
    · cases taken

theorem upstreamStep_effect {action : UpstreamAction}
    (taken : state.upstreamStep json limits action = some next) :
    state.UpstreamEffect json limits action next := by
  cases action with
  | read =>
    simp only [upstreamStep] at taken
    split at taken
    · next phase =>
      cases taken
      exact .read phase
    · cases taken
  | lock =>
    simp only [upstreamStep] at taken
    split at taken
    · next frame key phase =>
      simp only [takeResponse] at taken
      cases held : state.pending.lookup key with
      | none =>
        simp only [held] at taken
        cases taken
        exact .dropped phase (by simp [held])
      | some request =>
        cases request with
        | upstream =>
          simp only [held] at taken
          cases taken
          exact .took phase held
        | broadcast =>
          simp only [held] at taken
          cases taken
          exact .dropped phase (by simp [held])
    · cases taken
  | send =>
    simp only [upstreamStep] at taken
    split at taken
    · next frame key phase =>
      rcases enqueue_cases taken with ⟨closed, rfl⟩ | ⟨room, rfl⟩
      · exact .refused phase closed
      · exact .sent phase room
    · cases taken
  | cancel =>
    simp only [upstreamStep] at taken
    split at taken
    · next both =>
      cases taken
      exact .cancelled (Bool.and_eq_true_iff.mp both).1
    · cases taken

theorem step_client {action : ClientAction} (taken : state.step json limits (.client action) = some next) :
    state.ClientEffect json limits action next :=
  clientStep_effect taken

theorem step_upstream {action : UpstreamAction}
    (taken : state.step json limits (.upstream action) = some next) :
    state.UpstreamEffect json limits action next :=
  upstreamStep_effect taken

/-- A step of the writer, the supervisor or the process: the two tasks that
share the table stay where they are. -/
structure Undisturbed (state next : Connection) : Prop where
  client : next.client = state.client
  upstream : next.upstream = state.upstream
  pending : next.pending = state.pending
  sent : next.sent = state.sent

theorem writerStep_undisturbed {action : WriterAction} (taken : state.writerStep action = some next) :
    Undisturbed state next := by
  cases action <;> simp only [writerStep] at taken <;> repeat' (split at taken)
  all_goals
    cases taken
    try exact ⟨rfl, rfl, rfl, rfl⟩

theorem supervisorStep_undisturbed {action : SupervisorAction}
    (taken : state.supervisorStep action = some next) : Undisturbed state next := by
  cases action <;> simp only [supervisorStep] at taken <;> repeat' (split at taken)
  all_goals
    cases taken
    try exact ⟨rfl, rfl, rfl, rfl⟩

theorem step_cases {action : Action} (taken : state.step json limits action = some next) :
    (∃ move, action = .client move ∧ state.ClientEffect json limits move next) ∨
      (∃ move, action = .upstream move ∧ state.UpstreamEffect json limits move next) ∨
      Undisturbed state next := by
  cases action with
  | client move => exact .inl ⟨move, rfl, step_client taken⟩
  | upstream move => exact .inr (.inl ⟨move, rfl, step_upstream taken⟩)
  | writer move => exact .inr (.inr (writerStep_undisturbed taken))
  | supervisor move => exact .inr (.inr (supervisorStep_undisturbed taken))
  | beginShutdown =>
    cases taken
    exact .inr (.inr ⟨rfl, rfl, rfl, rfl⟩)

theorem UpstreamEffect.client_eq {action : UpstreamAction}
    (effect : state.UpstreamEffect json limits action next) :
    next.client = state.client := by
  cases effect <;> rfl

theorem ClientEffect.upstream_eq {action : ClientAction}
    (effect : state.ClientEffect json limits action next) :
    next.upstream = state.upstream := by
  cases effect <;> rfl

theorem ClientEffect.running {action : ClientAction} (effect : state.ClientEffect json limits action next) :
    state.client.phase.isEnded = false := by
  cases effect with
  | observed phase _ | read phase _ | reserved phase _ | wrote phase | writeFailed phase | called phase
  | returned phase | returnedUnkeyed phase | released phase | answered phase _ | noticed phase _ =>
    rw [phase]
    rfl
  | refused phase _ => rcases phase with phase | phase <;> rw [phase] <;> rfl
  | cancelled _ awaiting =>
    cases phase : state.client.phase with
    | ended result =>
      rw [phase] at awaiting
      cases awaiting
    | _ => rfl

end Connection

end ElectrumPrivateRelay.Proxy

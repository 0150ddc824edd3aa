import ElectrumPrivateRelay.Configuration.Config
import ElectrumPrivateRelay.Proxy.Supervision
import ElectrumPrivateRelay.Semantics.Slots

/-! The server: `serve_until` and the connection tasks of its `JoinSet`.

The listener, the shutdown future, the deadline of the drain and every
connection task are parties of one schedule. Between two polls of a select the
other parties may move, so any branch that is ready can be the one taken.
-/

set_option autoImplicit false

namespace ElectrumPrivateRelay.Proxy
open ElectrumPrivateRelay.Configuration Json Semantics

structure ShutdownReport where
  allConnectionsDrained : Bool
  deriving DecidableEq, Repr

structure ProxyError where
  message : String
  deriving DecidableEq, Repr

def connectionLimits (config : Config) : ConnectionLimits :=
  ⟨config.maxFrameBytes, config.maxPendingRequests.get⟩

inductive TaskPhase where
  | connecting
  | proxying
  | ended (result : TaskEnd)
  deriving DecidableEq, Repr

/-- One spawned task. Its connection is kept when the task is over: the three
subtasks run on until they have ended themselves. -/
structure ConnectionTask where
  phase : TaskPhase
  connection : Option Connection
  aborted : Bool
  joined : Bool

def ConnectionTask.spawned : ConnectionTask := ⟨.connecting, none, false, false⟩

/-- A task holds its permit until it is over, however it ends. -/
def ConnectionTask.isLive (task : ConnectionTask) : Bool :=
  match task.phase with
  | .ended _ => false
  | .connecting | .proxying => true

inductive TaskAction where
  | observeShutdown
  | connected (clientInput upstreamInput : Input)
  /-- The upstream refused, or the connect timeout expired. -/
  | connectFails
  | connection (action : Action)
  | subtaskPanics (subtask : FinishedTask)
  | returns
  | panics
  | cancel
  deriving DecidableEq, Repr

def Connection.panic (state : Connection) : FinishedTask → Option Connection
  | .writer =>
    if state.writer.phase.isEnded then none
    else some { state with writer := { state.writer with phase := .ended .panicked } }
  | .upstream =>
    if state.upstream.phase.isEnded then none else some (state.enterUpstream (.ended .panicked))
  | .client => if state.client.phase.isEnded then none else some (state.enterClient (.ended .panicked))

/-- The future of `proxy_streams_until` is dropped, unless it has returned before. -/
def Connection.dropHandles (state : Connection) : Connection :=
  (state.supervisorStep .cancel).getD state

namespace ConnectionTask

/-- A panic or an abort drops everything the task owns. -/
def stop (task : ConnectionTask) (result : TaskEnd) : Option ConnectionTask :=
  if task.isLive then
    some { task with phase := .ended result, connection := task.connection.map Connection.dropHandles }
  else none

def mapConnection (task : ConnectionTask) (change : Connection → Option Connection) :
    Option ConnectionTask :=
  match task.connection with
  | some connection => (change connection).map fun next => { task with connection := some next }
  | none => none

def step (json : SerdeJson) (limits : ConnectionLimits) (stopping : Bool) (task : ConnectionTask) :
    TaskAction → Option ConnectionTask
  | .observeShutdown =>
    match task.phase, stopping with
    | .connecting, true => some { task with phase := .ended .ok }
    | _, _ => none
  | .connected clientInput upstreamInput =>
    match task.phase with
    | .connecting => some { task with
        phase := .proxying
        connection := some { Connection.new clientInput upstreamInput with shutdown := stopping } }
    | _ => none
  | .connectFails =>
    match task.phase with
    | .connecting => some { task with phase := .ended .ok }
    | _ => none
  -- the flag is the server's to raise and the handles are the task's to drop
  | .connection .beginShutdown | .connection (.supervisor .cancel) => none
  | .connection action => task.mapConnection fun connection => connection.step json limits action
  | .subtaskPanics subtask => task.mapConnection fun connection => connection.panic subtask
  | .returns =>
    match task.phase, task.connection with
    | .proxying, some connection =>
      if connection.supervisor.phase = .returned then some { task with phase := .ended .ok } else none
    | _, _ => none
  | .panics => task.stop .panicked
  | .cancel => if task.aborted then task.stop .cancelled else none

end ConnectionTask

inductive ServePhase where
  | binding
  | accepting
  | draining
  /-- The drain was given up: what is left is aborted and awaited. -/
  | aborting
  /-- The same after a connection task failed while clients were accepted. -/
  | failing
  | returned (result : Except ProxyError ShutdownReport)
  deriving DecidableEq, Repr

/-- `stopping` is what a receiver of the watch channel makes of it: the flag
is up, or the sender is gone. -/
structure Server where
  phase : ServePhase
  slots : Nat
  tasks : List ConnectionTask
  signalled : Bool
  stopping : Bool

inductive ServeAction where
  | bind
  | bindFails (message : String)
  | signal
  | observeShutdown
  | accept
  | acceptFails (message : String)
  | join (index : Nat)
  | expire
  | finish
  | task (index : Nat) (action : TaskAction)
  deriving DecidableEq, Repr

namespace Server

def new (config : Config) : Server := ⟨.binding, config.maxConnections, [], false, false⟩

def live (server : Server) : Nat := total (fun task => task.isLive.toNat) server.tasks

/-- `shutdown_sender.send_replace(true)`, or the sender is dropped. -/
def raise (server : Server) : Server :=
  { server with
    stopping := true
    tasks := server.tasks.map fun task =>
      { task with connection := task.connection.map fun connection => { connection with shutdown := true } } }

def abortAll (server : Server) : Server :=
  { server with tasks := server.tasks.map fun task => { task with aborted := true } }

def observeShutdown (server : Server) : Option Server :=
  match server.phase, server.signalled with
  | .accepting, true => some { server.raise with phase := .draining }
  | _, _ => none

def accept (server : Server) : Option Server :=
  match server.phase with
  | .accepting =>
    -- without a permit the client is dropped and nothing is spawned
    if server.slots = 0 then some server
    else some { server with slots := server.slots - 1, tasks := server.tasks ++ [.spawned] }
  | _ => none

def acceptFails (server : Server) (message : String) : Option Server :=
  match server.phase with
  -- the set is dropped with its tasks, and none of them is awaited
  | .accepting => some { server.abortAll.raise with phase := .returned (.error ⟨message⟩) }
  | _ => none

/-- `join_next` yields a task that has ended, in whatever order they ended. -/
def join (server : Server) (index : Nat) : Option Server :=
  match server.tasks[index]? with
  | some ⟨.ended result, connection, aborted, false⟩ =>
    let joined :=
      { server with tasks := server.tasks.set index ⟨.ended result, connection, aborted, true⟩ }
    match server.phase with
    | .accepting =>
      if result = .ok then some joined else some { joined.abortAll with phase := .failing }
    | .draining =>
      if result = .ok then some joined else some { joined.abortAll with phase := .aborting }
    | .aborting | .failing => some joined
    | .binding | .returned _ => none
  | _ => none

def expire (server : Server) : Option Server :=
  match server.phase with
  | .draining => some { server.abortAll with phase := .aborting }
  | _ => none

def finish (server : Server) : Option Server :=
  if server.tasks.all (·.joined) then
    match server.phase with
    | .draining => some { server with phase := .returned (.ok ⟨true⟩) }
    | .aborting => some { server with phase := .returned (.ok ⟨false⟩) }
    | .failing => some { server.raise with phase := .returned (.error ⟨"connection task failed"⟩) }
    | .binding | .accepting | .returned _ => none
  else none

def taskStep (json : SerdeJson) (config : Config) (server : Server) (index : Nat) (action : TaskAction) :
    Option Server :=
  match server.tasks[index]? with
  | some task =>
    (task.step json (connectionLimits config) server.stopping action).map fun next =>
      { server with
        slots := if task.isLive && !next.isLive then server.slots + 1 else server.slots
        tasks := server.tasks.set index next }
  | none => none

def step (json : SerdeJson) (config : Config) (server : Server) : ServeAction → Option Server
  | .bind =>
    match server.phase with
    | .binding => some { server with phase := .accepting }
    | _ => none
  | .bindFails message =>
    match server.phase with
    | .binding => some { server with phase := .returned (.error ⟨message⟩) }
    | _ => none
  | .signal => some { server with signalled := true }
  | .observeShutdown => server.observeShutdown
  | .accept => server.accept
  | .acceptFails message => server.acceptFails message
  | .join index => server.join index
  | .expire => server.expire
  | .finish => server.finish
  | .task index action => server.taskStep json config index action

def machine (json : SerdeJson) (config : Config) : Machine Server ServeAction := ⟨step json config⟩

end Server

namespace ConnectionTask

inductive Effect (json : SerdeJson) (limits : ConnectionLimits) (stopping : Bool) (task : ConnectionTask) :
    TaskAction → ConnectionTask → Prop where
  | gaveUp {action : TaskAction} (phase : task.phase = .connecting)
      (which : action = .observeShutdown ∨ action = .connectFails) :
      Effect json limits stopping task action { task with phase := .ended .ok }
  | connected {clientInput upstreamInput : Input} (phase : task.phase = .connecting) :
      Effect json limits stopping task (.connected clientInput upstreamInput) { task with
        phase := .proxying
        connection := some { Connection.new clientInput upstreamInput with shutdown := stopping } }
  | moved {action : Action} {connection next : Connection} (found : task.connection = some connection)
      (taken : connection.step json limits action = some next)
      (own : action ≠ .beginShutdown ∧ action ≠ .supervisor .cancel) :
      Effect json limits stopping task (.connection action) { task with connection := some next }
  | panicked {subtask : FinishedTask} {connection next : Connection} (found : task.connection = some connection)
      (taken : connection.panic subtask = some next) :
      Effect json limits stopping task (.subtaskPanics subtask) { task with connection := some next }
  | returned {connection : Connection} (phase : task.phase = .proxying)
      (found : task.connection = some connection) (complete : connection.supervisor.phase = .returned) :
      Effect json limits stopping task .returns { task with phase := .ended .ok }
  | stopped {action : TaskAction} {result : TaskEnd} (running : task.isLive = true) (failed : result ≠ .ok)
      (which : action = .panics ∨ action = .cancel) :
      Effect json limits stopping task action
        { task with phase := .ended result, connection := task.connection.map Connection.dropHandles }

variable {json : SerdeJson} {limits : ConnectionLimits} {stopping : Bool} {task next : ConnectionTask}

theorem stop_cases {result : TaskEnd} (taken : task.stop result = some next) :
    task.isLive = true ∧
      next = { task with phase := .ended result, connection := task.connection.map Connection.dropHandles } := by
  unfold stop at taken
  split at taken
  · next running => exact ⟨running, (Option.some.inj taken).symm⟩
  · cases taken

theorem mapConnection_cases {change : Connection → Option Connection}
    (taken : task.mapConnection change = some next) :
    ∃ connection changed, task.connection = some connection ∧ change connection = some changed ∧
      next = { task with connection := some changed } := by
  unfold mapConnection at taken
  split at taken
  · next connection found =>
    obtain ⟨changed, moved, rfl⟩ := Option.map_eq_some_iff.mp taken
    exact ⟨connection, changed, found, moved, rfl⟩
  · cases taken

theorem step_effect {action : TaskAction} (taken : task.step json limits stopping action = some next) :
    task.Effect json limits stopping action next := by
  cases action with
  | observeShutdown =>
    simp only [step] at taken
    split at taken
    · next phase =>
      cases taken
      exact .gaveUp phase (.inl rfl)
    · cases taken
  | connected clientInput upstreamInput =>
    simp only [step] at taken
    split at taken
    · next phase =>
      cases taken
      exact .connected phase
    · cases taken
  | connectFails =>
    simp only [step] at taken
    split at taken
    · next phase =>
      cases taken
      exact .gaveUp phase (.inr rfl)
    · cases taken
  | connection action =>
    by_cases raised : action = .beginShutdown
    · subst raised
      cases taken
    by_cases dropped : action = .supervisor .cancel
    · subst dropped
      cases taken
    -- every other action is the connection's own
    have own : task.mapConnection (fun connection => connection.step json limits action) = some next := by
      rw [← taken, step]
      · exact raised
      · exact dropped
    obtain ⟨connection, changed, found, moved, rfl⟩ := mapConnection_cases own
    exact .moved found moved ⟨raised, dropped⟩
  | subtaskPanics subtask =>
    obtain ⟨connection, changed, found, moved, rfl⟩ := mapConnection_cases taken
    exact .panicked found moved
  | returns =>
    simp only [step] at taken
    split at taken
    · next connection phase found =>
      split at taken
      · next complete =>
        cases taken
        exact .returned phase found complete
      · cases taken
    · cases taken
  | panics =>
    obtain ⟨running, rfl⟩ := stop_cases taken
    exact .stopped running (by decide) (.inl rfl)
  | cancel =>
    simp only [step] at taken
    split at taken
    · obtain ⟨running, rfl⟩ := stop_cases taken
      exact .stopped running (by decide) (.inr rfl)
    · cases taken

end ConnectionTask

namespace Server

inductive Effect (json : SerdeJson) (config : Config) (server : Server) : ServeAction → Server → Prop where
  | bound (phase : server.phase = .binding) :
      Effect json config server .bind { server with phase := .accepting }
  | unbound {message : String} (phase : server.phase = .binding) :
      Effect json config server (.bindFails message) { server with phase := .returned (.error ⟨message⟩) }
  | signalled : Effect json config server .signal { server with signalled := true }
  | stopped (phase : server.phase = .accepting) (signalled : server.signalled = true) :
      Effect json config server .observeShutdown { server.raise with phase := .draining }
  | turnedAway (phase : server.phase = .accepting) (full : server.slots = 0) :
      Effect json config server .accept server
  | spawned (phase : server.phase = .accepting) (free : server.slots ≠ 0) :
      Effect json config server .accept
        { server with slots := server.slots - 1, tasks := server.tasks ++ [.spawned] }
  | broke {message : String} (phase : server.phase = .accepting) :
      Effect json config server (.acceptFails message)
        { server.abortAll.raise with phase := .returned (.error ⟨message⟩) }
  | joined {index : Nat} {result : TaskEnd} {connection : Option Connection} {aborted : Bool}
      (selected : server.tasks[index]? = some ⟨.ended result, connection, aborted, false⟩)
      (phase : (result = .ok ∧ (server.phase = .accepting ∨ server.phase = .draining)) ∨
        server.phase = .aborting ∨ server.phase = .failing) :
      Effect json config server (.join index)
        { server with tasks := server.tasks.set index ⟨.ended result, connection, aborted, true⟩ }
  | joinFailed {index : Nat} {result : TaskEnd} {connection : Option Connection} {aborted : Bool}
      {phase : ServePhase}
      (selected : server.tasks[index]? = some ⟨.ended result, connection, aborted, false⟩)
      (entered : (server.phase = .accepting ∧ phase = .failing) ∨
        (server.phase = .draining ∧ phase = .aborting)) :
      Effect json config server (.join index)
        { abortAll { server with tasks := server.tasks.set index ⟨.ended result, connection, aborted, true⟩ } with
          phase }
  | expired (phase : server.phase = .draining) :
      Effect json config server .expire { server.abortAll with phase := .aborting }
  | finished {report : ShutdownReport} (all : ∀ task ∈ server.tasks, task.joined = true)
      (entered : (server.phase = .draining ∧ report = ⟨true⟩) ∨ (server.phase = .aborting ∧ report = ⟨false⟩)) :
      Effect json config server .finish { server with phase := .returned (.ok report) }
  | failed (phase : server.phase = .failing) :
      Effect json config server .finish
        { server.raise with phase := .returned (.error ⟨"connection task failed"⟩) }
  | moved {index : Nat} {action : TaskAction} {task next : ConnectionTask}
      (selected : server.tasks[index]? = some task)
      (effect : task.Effect json (connectionLimits config) server.stopping action next) :
      Effect json config server (.task index action) { server with
        slots := if task.isLive && !next.isLive then server.slots + 1 else server.slots
        tasks := server.tasks.set index next }

variable {json : SerdeJson} {config : Config} {server next : Server}

theorem join_effect {index : Nat} (taken : server.join index = some next) :
    server.Effect json config (.join index) next := by
  unfold join at taken
  split at taken
  · next result connection aborted selected =>
    split at taken
    · next accepting =>
      split at taken
      · next succeeded =>
        cases taken
        exact .joined selected (.inl ⟨succeeded, .inl accepting⟩)
      · cases taken
        exact .joinFailed selected (.inl ⟨accepting, rfl⟩)
    · next draining =>
      split at taken
      · next succeeded =>
        cases taken
        exact .joined selected (.inl ⟨succeeded, .inr draining⟩)
      · cases taken
        exact .joinFailed selected (.inr ⟨draining, rfl⟩)
    · next aborting =>
      cases taken
      exact .joined selected (.inr (.inl aborting))
    · next failing =>
      cases taken
      exact .joined selected (.inr (.inr failing))
    · cases taken
    · cases taken
  · cases taken

theorem finish_effect (taken : server.finish = some next) : server.Effect json config .finish next := by
  unfold finish at taken
  split at taken
  · next all =>
    have joined : ∀ task ∈ server.tasks, task.joined = true := List.all_eq_true.mp all
    split at taken
    · next draining =>
      cases taken
      exact .finished joined (.inl ⟨draining, rfl⟩)
    · next aborting =>
      cases taken
      exact .finished joined (.inr ⟨aborting, rfl⟩)
    · next failing =>
      cases taken
      exact .failed failing
    · cases taken
    · cases taken
    · cases taken
  · cases taken

theorem accept_effect (taken : server.accept = some next) : server.Effect json config .accept next := by
  unfold accept at taken
  split at taken
  · next accepting =>
    split at taken
    · next full =>
      cases taken
      exact .turnedAway accepting full
    · next free =>
      cases taken
      exact .spawned accepting free
  · cases taken

theorem step_effect {action : ServeAction} (taken : server.step json config action = some next) :
    server.Effect json config action next := by
  cases action with
  | bind =>
    simp only [step] at taken
    split at taken
    · next binding =>
      cases taken
      exact .bound binding
    · cases taken
  | bindFails message =>
    simp only [step] at taken
    split at taken
    · next binding =>
      cases taken
      exact .unbound binding
    · cases taken
  | signal =>
    cases taken
    exact .signalled
  | observeShutdown =>
    simp only [step, observeShutdown] at taken
    split at taken
    · next accepting signalled =>
      cases taken
      exact .stopped accepting signalled
    · cases taken
  | accept => exact accept_effect taken
  | acceptFails message =>
    simp only [step, acceptFails] at taken
    split at taken
    · next accepting =>
      cases taken
      exact .broke accepting
    · cases taken
  | join index => exact join_effect taken
  | expire =>
    simp only [step, expire] at taken
    split at taken
    · next draining =>
      cases taken
      exact .expired draining
    · cases taken
  | finish => exact finish_effect taken
  | task index action =>
    simp only [step, taskStep] at taken
    split at taken
    · next task selected =>
      obtain ⟨changed, moved, rfl⟩ := Option.map_eq_some_iff.mp taken
      exact .moved selected (ConnectionTask.step_effect moved)
    · cases taken

end Server

end ElectrumPrivateRelay.Proxy

import ElectrumPrivateRelay.Proxy.Server

/-! What the report of `serve_until` says about the connections it accepted. -/

set_option autoImplicit false

namespace ElectrumPrivateRelay.Proxy
open ElectrumPrivateRelay.Configuration Json Semantics

namespace Connection

variable {json : SerdeJson} {limits : ConnectionLimits} {state next : Connection}

/-- Behind every phase of the supervisor stand the subtasks it has seen end. -/
def Supervised (state : Connection) : Prop :=
  match state.supervisor.phase with
  | .selecting | .cancelled => True
  | .joining finished => state.hasFinished finished = true
  | .flushing | .aborting => state.hasFinished .upstream = true ∧ state.hasFinished .client = true
  | .returned => ∀ subtask, state.hasFinished subtask = true

structure Proceeds (state next : Connection) : Prop where
  supervisor : next.supervisor.phase = state.supervisor.phase
  finished : ∀ subtask, state.hasFinished subtask = true → next.hasFinished subtask = true

theorem Supervised.proceeds (supervised : state.Supervised) (proceeds : Proceeds state next) :
    next.Supervised := by
  obtain ⟨same, finished⟩ := proceeds
  unfold Supervised at supervised ⊢
  rw [same]
  split at supervised
  · trivial
  · trivial
  · exact finished _ supervised
  · exact ⟨finished _ supervised.1, finished _ supervised.2⟩
  · exact ⟨finished _ supervised.1, finished _ supervised.2⟩
  · exact fun subtask => finished subtask (supervised subtask)

theorem ClientEffect.proceeds {action : ClientAction} (effect : state.ClientEffect json limits action next) :
    Proceeds state next := by
  obtain ⟨writer, supervisor⟩ := effect.supervision
  refine ⟨by rw [supervisor], fun subtask finished => ?_⟩
  cases subtask with
  | writer => simpa only [hasFinished, writer] using finished
  | upstream => simpa only [hasFinished, effect.upstream_eq] using finished
  | client =>
    rw [hasFinished, effect.running] at finished
    cases finished

theorem UpstreamEffect.proceeds {action : UpstreamAction} (effect : state.UpstreamEffect json limits action next) :
    Proceeds state next := by
  obtain ⟨writer, supervisor⟩ := effect.supervision
  refine ⟨by rw [supervisor], fun subtask finished => ?_⟩
  cases subtask with
  | writer => simpa only [hasFinished, writer] using finished
  | client => simpa only [hasFinished, effect.client_eq] using finished
  | upstream =>
    -- a step that left the task running would have found it running
    cases after : next.upstream.phase.isEnded with
    | true => exact after
    | false =>
      rw [hasFinished, effect.running after] at finished
      cases finished

theorem writerStep_proceeds {action : WriterAction} (taken : state.writerStep action = some next) :
    Proceeds state next := by
  obtain ⟨supervisor, running⟩ := writerStep_supervision taken
  have quiet := writerStep_undisturbed taken
  refine ⟨by rw [supervisor], fun subtask finished => ?_⟩
  cases subtask with
  | writer =>
    rw [hasFinished, running] at finished
    cases finished
  | upstream => simpa only [hasFinished, quiet.upstream] using finished
  | client => simpa only [hasFinished, quiet.client] using finished

theorem panic_proceeds {subtask : FinishedTask} (taken : state.panic subtask = some next) :
    Proceeds state next := by
  cases subtask with
  | writer | upstream | client =>
    simp only [panic] at taken
    split at taken
    · cases taken
    · cases taken
      refine ⟨rfl, fun other finished => ?_⟩
      cases other <;> first | exact finished | rfl

theorem allFinished (writer : state.hasFinished .writer = true) (upstream : state.hasFinished .upstream = true)
    (client : state.hasFinished .client = true) : ∀ subtask, state.hasFinished subtask = true := by
  intro subtask
  cases subtask with
  | writer => exact writer
  | upstream => exact upstream
  | client => exact client

theorem supervisorStep_supervised {action : SupervisorAction} (supervised : state.Supervised)
    (taken : state.supervisorStep action = some next) : next.Supervised := by
  cases action with
  | select finished =>
    simp only [supervisorStep] at taken
    split at taken
    · next both =>
      cases taken
      cases finished <;> exact both.2
    · cases taken
  | joined =>
    simp only [supervisorStep] at taken
    split at taken
    · next phase =>
      split at taken
      · next both =>
        cases taken
        rw [Supervised, phase] at supervised
        obtain ⟨upstream, client⟩ := Bool.and_eq_true_iff.mp both
        exact allFinished supervised upstream client
      · cases taken
    · next phase =>
      split at taken
      · next client =>
        cases taken
        rw [Supervised, phase] at supervised
        exact ⟨supervised, client⟩
      · cases taken
    · next phase =>
      split at taken
      · next upstream =>
        cases taken
        rw [Supervised, phase] at supervised
        exact ⟨upstream, supervised⟩
      · cases taken
    · cases taken
  | flushed =>
    simp only [supervisorStep] at taken
    split at taken
    · next phase writer =>
      cases taken
      rw [Supervised, phase] at supervised
      exact allFinished writer supervised.1 supervised.2
    · next phase writer =>
      cases taken
      rw [Supervised, phase] at supervised
      exact allFinished writer supervised.1 supervised.2
    · cases taken
  | expire =>
    simp only [supervisorStep] at taken
    split at taken
    · next phase =>
      cases taken
      rw [Supervised, phase] at supervised
      exact supervised
    · cases taken
  | cancel =>
    simp only [supervisorStep] at taken
    split at taken
    · cases taken
    · cases taken
    · cases taken
      trivial

theorem step_supervised {action : Action} (supervised : state.Supervised)
    (taken : state.step json limits action = some next) : next.Supervised := by
  cases action with
  | client _ => exact supervised.proceeds (step_client taken).proceeds
  | upstream _ => exact supervised.proceeds (step_upstream taken).proceeds
  | writer _ => exact supervised.proceeds (writerStep_proceeds taken)
  | supervisor _ => exact supervisorStep_supervised supervised taken
  | beginShutdown =>
    cases taken
    exact supervised

theorem step_returned {action : Action} (complete : state.supervisor.phase = .returned)
    (taken : state.step json limits action = some next) : next.supervisor.phase = .returned := by
  cases action with
  | client _ => exact (step_client taken).proceeds.supervisor.trans complete
  | upstream _ => exact (step_upstream taken).proceeds.supervisor.trans complete
  | writer _ => exact (writerStep_proceeds taken).supervisor.trans complete
  | supervisor move =>
    cases move <;> simp [step, supervisorStep, complete] at taken
  | beginShutdown =>
    cases taken
    exact complete

theorem dropHandles_supervised (supervised : state.Supervised) : state.dropHandles.Supervised := by
  unfold dropHandles
  cases dropped : state.supervisorStep .cancel with
  | none => exact supervised
  | some next => exact supervisorStep_supervised supervised dropped

end Connection

namespace ConnectionTask

variable {json : SerdeJson} {limits : ConnectionLimits} {stopping : Bool} {task next : ConnectionTask}

structure Sound (task : ConnectionTask) : Prop where
  unopened : task.phase = .connecting → task.connection = none
  supervised : ∀ connection, task.connection = some connection → connection.Supervised
  complete : task.phase = .ended .ok → ∀ connection, task.connection = some connection →
    connection.supervisor.phase = .returned
  joined : task.joined = true → task.isLive = false

theorem Sound.spawned : Sound spawned := by
  refine ⟨fun _ => rfl, ?_, ?_, ?_⟩
  · intro connection found
    cases found
  · intro ended
    cases ended
  · intro joined
    cases joined

theorem Sound.withConnection (sound : task.Sound) {connection changed : Connection}
    (found : task.connection = some connection) (supervised : connection.Supervised → changed.Supervised)
    (complete : connection.supervisor.phase = .returned → changed.supervisor.phase = .returned) :
    Sound { task with connection := some changed } := by
  constructor
  · intro connecting
    have unopened := sound.unopened connecting
    rw [found] at unopened
    cases unopened
  · rintro _ ⟨⟩
    exact supervised (sound.supervised connection found)
  · rintro ended _ ⟨⟩
    exact complete (sound.complete ended connection found)
  · exact sound.joined

theorem Effect.sound {action : TaskAction} (effect : task.Effect json limits stopping action next)
    (sound : task.Sound) : next.Sound := by
  cases effect with
  | gaveUp phase _ =>
    have unopened := sound.unopened phase
    refine ⟨fun _ => unopened, sound.supervised, fun _ connection found => ?_, fun _ => rfl⟩
    rw [unopened] at found
    cases found
  | connected phase =>
    constructor
    · intro connecting
      cases connecting
    · rintro _ ⟨⟩
      trivial
    · intro ended
      cases ended
    · intro joined
      have live : task.isLive = true := by rw [isLive, phase]
      rw [sound.joined joined] at live
      cases live
  | moved found taken _ =>
    exact sound.withConnection found (fun supervised => Connection.step_supervised supervised taken)
      fun complete => Connection.step_returned complete taken
  | panicked found taken =>
    have proceeds := Connection.panic_proceeds taken
    exact sound.withConnection found (fun supervised => supervised.proceeds proceeds)
      fun complete => proceeds.supervisor.trans complete
  | returned phase found complete =>
    refine ⟨?_, sound.supervised, ?_, fun _ => rfl⟩
    · intro connecting
      cases connecting
    · intro _ other same
      rw [found] at same
      cases same
      exact complete
  | stopped running failed _ =>
    constructor
    · intro connecting
      cases connecting
    · intro connection found
      obtain ⟨before, inside, rfl⟩ := Option.map_eq_some_iff.mp found
      exact Connection.dropHandles_supervised (sound.supervised before inside)
    · intro ended
      cases ended
      exact absurd rfl failed
    · exact fun _ => rfl

structure Follows (task next : ConnectionTask) : Prop where
  ended : ∀ result, task.phase = .ended result → next.phase = .ended result
  aborted : next.aborted = task.aborted
  joined : next.joined = task.joined

theorem Effect.follows {action : TaskAction} (effect : task.Effect json limits stopping action next) :
    Follows task next := by
  cases effect with
  | gaveUp phase _ | connected phase | returned phase _ _ =>
    refine ⟨fun result ended => ?_, rfl, rfl⟩
    rw [phase] at ended
    cases ended
  | moved _ _ _ | panicked _ _ => exact ⟨fun _ ended => ended, rfl, rfl⟩
  | stopped running _ _ =>
    refine ⟨fun result ended => ?_, rfl, rfl⟩
    rw [isLive, ended] at running
    cases running

theorem Follows.dead (follows : Follows task next) (dead : task.isLive = false) : next.isLive = false := by
  unfold isLive at dead
  split at dead
  · next result ended => rw [isLive, follows.ended result ended]
  · cases dead
  · cases dead

theorem Sound.raised (sound : task.Sound) :
    Sound { task with connection := task.connection.map fun connection => { connection with shutdown := true } } := by
  obtain ⟨unopened, supervised, complete, joined⟩ := sound
  constructor
  · intro connecting
    simp only [unopened connecting, Option.map_none]
  · intro connection found
    obtain ⟨before, inside, rfl⟩ := Option.map_eq_some_iff.mp found
    exact supervised before inside
  · intro ended connection found
    obtain ⟨before, inside, rfl⟩ := Option.map_eq_some_iff.mp found
    exact complete ended before inside
  · exact joined

theorem Sound.markedAborted (sound : task.Sound) : Sound { task with aborted := true } :=
  ⟨sound.unopened, sound.supervised, sound.complete, sound.joined⟩

end ConnectionTask

/-- The phases in which no task has been aborted. -/
def ServePhase.isOrderly : ServePhase → Bool
  | .binding | .accepting | .draining => true
  | .returned (.ok report) => report.allConnectionsDrained
  | .returned (.error _) | .aborting | .failing => false

namespace Server

variable {json : SerdeJson} {config : Config} {server next : Server}

@[simp] theorem live_raise (server : Server) : server.raise.live = server.live := by
  simp [live, raise, total, ConnectionTask.isLive, Function.comp_def]

@[simp] theorem live_abortAll (server : Server) : server.abortAll.live = server.live := by
  simp [live, abortAll, total, ConnectionTask.isLive, Function.comp_def]

/-- A property of tasks that the server keeps, whatever it does to one of them. -/
structure Keeps (json : SerdeJson) (config : Config) (allowed : TaskAction → Prop)
    (motive : ConnectionTask → Prop) : Prop where
  spawned : motive .spawned
  raised : ∀ task, motive task → motive
    { task with connection := task.connection.map fun connection => { connection with shutdown := true } }
  aborted : ∀ task, motive task → motive { task with aborted := true }
  joined : ∀ result connection aborted, motive ⟨.ended result, connection, aborted, false⟩ →
    motive ⟨.ended result, connection, aborted, true⟩
  moved : ∀ stopping action task next, allowed action → motive task →
    task.Effect json (connectionLimits config) stopping action next → motive next

theorem forall_raise {motive : ConnectionTask → Prop} {allowed : TaskAction → Prop}
    (keeps : Keeps json config allowed motive) (all : ∀ task ∈ server.tasks, motive task) :
    ∀ task ∈ server.raise.tasks, motive task := by
  intro task member
  obtain ⟨before, inside, rfl⟩ := List.mem_map.mp member
  exact keeps.raised before (all before inside)

theorem forall_abortAll {motive : ConnectionTask → Prop} {allowed : TaskAction → Prop}
    (keeps : Keeps json config allowed motive) (all : ∀ task ∈ server.tasks, motive task) :
    ∀ task ∈ server.abortAll.tasks, motive task := by
  intro task member
  obtain ⟨before, inside, rfl⟩ := List.mem_map.mp member
  exact keeps.aborted before (all before inside)

theorem Effect.forall {motive : ConnectionTask → Prop} {allowed : TaskAction → Prop}
    (keeps : Keeps json config allowed motive) {action : ServeAction}
    (effect : server.Effect json config action next) (all : ∀ task ∈ server.tasks, motive task)
    (permitted : ∀ index move, action = .task index move → allowed move) :
    ∀ task ∈ next.tasks, motive task := by
  cases effect with
  | bound _ | unbound _ | signalled | turnedAway _ _ | finished _ _ => exact all
  | stopped _ _ | failed _ => exact forall_raise keeps all
  | expired _ => exact forall_abortAll keeps all
  | broke _ => exact forall_raise keeps (forall_abortAll keeps all)
  | spawned _ _ =>
    intro task member
    rcases List.mem_append.mp member with old | new
    · exact all task old
    · exact List.mem_singleton.mp new ▸ keeps.spawned
  | joined selected _ =>
    exact forall_set _ all (keeps.joined _ _ _ (all _ (List.mem_of_getElem? selected)))
  | @joinFailed index result connection aborted _ selected _ =>
    have own := keeps.joined result connection aborted (all _ (List.mem_of_getElem? selected))
    intro task member
    obtain ⟨before, inside, rfl⟩ := List.mem_map.mp member
    exact keeps.aborted before (forall_set index all own before inside)
  | @moved index move task changed selected effect =>
    have before := all task (List.mem_of_getElem? selected)
    exact forall_set index all (keeps.moved _ move task changed (permitted index move rfl) before effect)

theorem Effect.balanced {action : ServeAction} (effect : server.Effect json config action next) :
    next.slots + next.live = server.slots + server.live := by
  cases effect with
  | bound _ | unbound _ | signalled | turnedAway _ _ | finished _ _ => rfl
  | stopped _ _ | failed _ => exact congrArg (server.slots + ·) (live_raise server)
  | expired _ => exact congrArg (server.slots + ·) (live_abortAll server)
  | broke _ => exact congrArg (server.slots + ·) ((live_raise _).trans (live_abortAll server))
  | spawned _ free =>
    have one : ConnectionTask.spawned.isLive.toNat = 1 := rfl
    simp only [live, total_append, total_cons, total_nil, one]
    omega
  | @joined index result connection aborted selected _ =>
    have kept := total_set (fun task => task.isLive.toNat) selected ⟨.ended result, connection, aborted, true⟩
    exact congrArg (server.slots + ·) kept
  | @joinFailed index result connection aborted phase selected _ =>
    have kept := total_set (fun task => task.isLive.toNat) selected ⟨.ended result, connection, aborted, true⟩
    exact congrArg (server.slots + ·) ((live_abortAll _).trans kept)
  | @moved index move task changed selected effect =>
    have exchanged := total_set (fun task => task.isLive.toNat) selected changed
    simp only [live]
    cases before : task.isLive with
    | false =>
      rw [before, effect.follows.dead before] at exchanged
      simp only [Bool.false_and, Bool.false_eq_true, if_false] at exchanged ⊢
      omega
    | true =>
      cases after : changed.isLive with
      | true =>
        rw [before, after] at exchanged
        simp only [Bool.not_true, Bool.and_false, Bool.false_eq_true, if_false] at exchanged ⊢
        omega
      | false =>
        rw [before, after] at exchanged
        simp only [Bool.not_false, Bool.and_true, if_true, Bool.toNat_true, Bool.toNat_false] at exchanged ⊢
        omega

/-- A task that has not been aborted and, once it is joined, has succeeded. -/
structure Undisturbed (task : ConnectionTask) : Prop where
  aborted : task.aborted = false
  succeeded : task.joined = true → task.phase = .ended .ok

structure Sound (config : Config) (server : Server) : Prop where
  balanced : server.slots + server.live = config.maxConnections
  tasks : ∀ task ∈ server.tasks, task.Sound
  orderly : server.phase.isOrderly = true → ∀ task ∈ server.tasks, Undisturbed task
  awaited : ∀ report, server.phase = .returned (.ok report) → ∀ task ∈ server.tasks, task.joined = true

theorem Sound.new (config : Config) : Sound config (.new config) :=
  ⟨rfl, by simp [Server.new], by simp [Server.new], by simp [Server.new]⟩

theorem keeps_sound (json : SerdeJson) (config : Config) :
    Keeps json config (fun _ => True) ConnectionTask.Sound where
  spawned := .spawned
  raised _ sound := sound.raised
  aborted _ sound := sound.markedAborted
  joined _ _ _ sound := ⟨sound.unopened, sound.supervised, sound.complete, fun _ => rfl⟩
  moved _ _ _ _ _ sound effect := effect.sound sound

theorem Effect.orderly {action : ServeAction} (effect : server.Effect json config action next)
    (sound : server.Sound config) (still : next.phase.isOrderly = true) :
    ∀ task ∈ next.tasks, Undisturbed task := by
  cases effect with
  | bound phase | turnedAway phase _ => exact sound.orderly (by rw [phase]; rfl)
  | signalled => exact sound.orderly still
  | stopped phase _ =>
    have all := sound.orderly (by rw [phase]; rfl)
    intro task member
    obtain ⟨before, inside, rfl⟩ := List.mem_map.mp member
    exact ⟨(all before inside).aborted, (all before inside).succeeded⟩
  | spawned phase _ =>
    have all := sound.orderly (by rw [phase]; rfl)
    intro task member
    rcases List.mem_append.mp member with old | new
    · exact all task old
    · obtain rfl := List.mem_singleton.mp new
      exact ⟨rfl, by simp [ConnectionTask.spawned]⟩
  | joined selected phase =>
    have all := sound.orderly still
    rcases phase with ⟨rfl, -⟩ | aborting | failing
    · exact forall_set _ all ⟨(all _ (List.mem_of_getElem? selected)).aborted, fun _ => rfl⟩
    · rw [aborting] at still
      cases still
    · rw [failing] at still
      cases still
  | joinFailed _ entered => rcases entered with ⟨-, rfl⟩ | ⟨-, rfl⟩ <;> cases still
  | finished _ entered =>
    rcases entered with ⟨phase, -⟩ | ⟨-, rfl⟩
    · exact sound.orderly (by rw [phase]; rfl)
    · cases still
  | unbound _ | broke _ | expired _ | failed _ => cases still
  | @moved index move task changed selected effect =>
    have all := sound.orderly still
    have before := all task (List.mem_of_getElem? selected)
    have follows := effect.follows
    refine forall_set index all ⟨follows.aborted.trans before.aborted, fun joined => ?_⟩
    exact follows.ended _ (before.succeeded (follows.joined ▸ joined))

theorem Effect.awaited {action : ServeAction} (effect : server.Effect json config action next)
    (sound : server.Sound config) (report : ShutdownReport) (returned : next.phase = .returned (.ok report)) :
    ∀ task ∈ next.tasks, task.joined = true := by
  cases effect with
  | bound _ | unbound _ | stopped _ _ | broke _ | expired _ | failed _ => cases returned
  | turnedAway phase _ | spawned phase _ =>
    have running := phase.symm.trans returned
    cases running
  | signalled => exact sound.awaited report returned
  | joined _ phase =>
    rcases phase with ⟨-, phase | phase⟩ | phase | phase
    all_goals
      have running := phase.symm.trans returned
      cases running
  | joinFailed _ entered => rcases entered with ⟨-, rfl⟩ | ⟨-, rfl⟩ <;> cases returned
  | finished all _ => exact all
  | @moved index move task changed selected effect =>
    have all := sound.awaited report returned
    exact forall_set index all (effect.follows.joined.trans (all task (List.mem_of_getElem? selected)))

theorem Sound.step (sound : server.Sound config) {action : ServeAction}
    (taken : server.step json config action = some next) : next.Sound config := by
  have effect := step_effect taken
  constructor
  · rw [effect.balanced, sound.balanced]
  · exact effect.forall (keeps_sound json config) sound.tasks fun _ _ _ => trivial
  · exact effect.orderly sound
  · exact effect.awaited sound

theorem run_sound {schedule : List ServeAction}
    (execution : (machine json config).run (.new config) schedule = some server) : server.Sound config :=
  (machine json config).run_preserves (fun _ _ _ before taken => before.step taken) (.new config) execution

end Server

def ClientPhase.isRelaying : ClientPhase → Bool
  | .relaying _ _ => true
  | _ => false

namespace Server

structure TruthfulReport (config : Config) (server : Server) : Prop where
  bounded : server.live ≤ config.maxConnections
  balanced : server.slots + server.live = config.maxConnections
  /-- However the drain went, no connection task is left. -/
  returned : ∀ report, server.phase = .returned (.ok report) →
    server.live = 0 ∧ ∀ task ∈ server.tasks, task.joined = true
  /-- After a clean drain nothing that a connection started is left either. -/
  drained : ∀ report, server.phase = .returned (.ok report) → report.allConnectionsDrained = true →
    ∀ task ∈ server.tasks, task.phase = .ended .ok ∧ task.aborted = false ∧
      ∀ connection, task.connection = some connection →
        connection.writer.phase.isEnded = true ∧ connection.upstream.phase.isEnded = true ∧
        connection.client.phase.isEnded = true ∧ connection.client.phase.isRelaying = false

theorem shutdown_report_truthful (json : SerdeJson) (config : Config) (schedule : List ServeAction)
    (server : Server) (execution : (machine json config).run (.new config) schedule = some server) :
    TruthfulReport config server := by
  have sound := run_sound execution
  constructor
  · have balanced := sound.balanced
    omega
  · exact sound.balanced
  · intro report returned
    have joined := sound.awaited report returned
    refine ⟨total_eq_zero fun task member => ?_, joined⟩
    rw [(sound.tasks task member).joined (joined task member), Bool.toNat_false]
  · intro report returned clean task member
    have orderly : server.phase.isOrderly = true := by
      rw [returned]
      exact clean
    have undisturbed := sound.orderly orderly task member
    have ended := undisturbed.succeeded (sound.awaited report returned task member)
    refine ⟨ended, undisturbed.aborted, fun connection found => ?_⟩
    have own := sound.tasks task member
    have supervised := own.supervised connection found
    rw [Connection.Supervised, own.complete ended connection found] at supervised
    have client := supervised .client
    refine ⟨supervised .writer, supervised .upstream, client, ?_⟩
    cases phase : connection.client.phase with
    | relaying id key =>
      rw [Connection.hasFinished, phase] at client
      cases client
    | _ => rfl

def singleSlot : Config := { Config.default with maxConnections := 1 }

def onlyConnection (schedule : List Action) : List ServeAction :=
  schedule.map fun action => .task 0 (.connection action)

def flushSchedule : List Action :=
  [.client (.relayReturns (.ok "t")), .client .release, .client .send, .client .observeShutdown,
    .supervisor (.select .client), .upstream .cancel, .supervisor .joined, .writer .receive, .writer (.write 22),
    .writer .receive, .writer (.finish .ok), .supervisor .flushed]

def drainSchedule : List ServeAction :=
  .bind :: .accept :: .accept :: .task 0 (.connected ⟨Protocol.broadcastRequest, .closed⟩ ⟨[], .closed⟩) ::
    (onlyConnection Connection.callSchedule ++ .signal :: .observeShutdown ::
      (onlyConnection flushSchedule ++ [.task 0 .returns, .join 0, .finish]))

theorem drain_with_broadcast_in_flight :
    ∃ server, (machine .reference singleSlot).run (.new singleSlot) drainSchedule = some server ∧
      server.phase = .returned (.ok ⟨true⟩) ∧ server.tasks.length = 1 ∧ TruthfulReport singleSlot server := by
  have outcome : ((machine .reference singleSlot).run (.new singleSlot) drainSchedule).map
      (fun server => (server.phase, server.tasks.length)) = some (.returned (.ok ⟨true⟩), 1) := by
    decide +kernel
  obtain ⟨server, execution, same⟩ := Option.map_eq_some_iff.mp outcome
  simp only [Prod.mk.injEq] at same
  obtain ⟨phase, length⟩ := same
  exact ⟨server, execution, phase, length, shutdown_report_truthful _ _ _ _ execution⟩

end Server

end ElectrumPrivateRelay.Proxy

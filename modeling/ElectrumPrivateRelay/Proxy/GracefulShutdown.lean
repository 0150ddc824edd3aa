import ElectrumPrivateRelay.Proxy.Collision
import ElectrumPrivateRelay.Proxy.FrameBoundary
import ElectrumPrivateRelay.Proxy.Process

/-! The order of a graceful shutdown.

The gate is closed before the server learns of the shutdown, so that a call
that has not passed the gate by then never does, and the connections that
still make one answer it with the generic failure.
-/

set_option autoImplicit false

namespace ElectrumPrivateRelay.Proxy
open ElectrumPrivateRelay.Configuration Json Protocol Relay Semantics
open Connection (reusingRequest)
open Relay.Draining (Accounted Call Drain)

namespace Server

variable {json : SerdeJson} {config : Config} {server next : Server}

structure Flags (server next : Server) : Prop where
  signalled : next.signalled = server.signalled
  stopping : next.stopping = true → server.stopping = true ∨ server.signalled = true ∨
    ∃ error, next.phase = .returned (.error error)
  returned : ∀ result, server.phase = .returned result → next.phase = .returned result

theorem Flags.running (same : next.signalled = server.signalled ∧ next.stopping = server.stopping)
    (running : ∀ result, server.phase ≠ .returned result) : Flags server next :=
  ⟨same.1, fun raised => .inl (same.2 ▸ raised), fun result returned => absurd returned (running result)⟩

theorem Effect.flags {action : ServeAction} (effect : server.Effect json config action next)
    (other : action ≠ .signal) : Flags server next := by
  cases effect with
  | signalled => exact absurd rfl other
  | bound phase | unbound phase | turnedAway phase _ | spawned phase _ | expired phase =>
    exact .running ⟨rfl, rfl⟩ (by simp [phase])
  | stopped phase signalled => exact ⟨rfl, fun _ => .inr (.inl signalled), by simp [phase]⟩
  | broke phase | failed phase => exact ⟨rfl, fun _ => .inr (.inr ⟨_, rfl⟩), by simp [phase]⟩
  | joined _ phase =>
    rcases phase with ⟨-, phase | phase⟩ | phase | phase <;> exact .running ⟨rfl, rfl⟩ (by simp [phase])
  | joinFailed _ entered =>
    rcases entered with ⟨phase, -⟩ | ⟨phase, -⟩ <;> exact .running ⟨rfl, rfl⟩ (by simp [phase])
  | finished _ entered =>
    rcases entered with ⟨phase, -⟩ | ⟨phase, -⟩ <;> exact .running ⟨rfl, rfl⟩ (by simp [phase])
  | moved _ _ => exact ⟨rfl, .inl, fun _ returned => returned⟩

end Server

namespace Connection

variable {json : SerdeJson} {limits : ConnectionLimits} {state next : Connection}

theorem ClientEffect.relayCalls {action : ClientAction} (effect : state.ClientEffect json limits action next) :
    next.client.relayCalls.length = state.client.relayCalls.length + if action = .call then 1 else 0 := by
  cases effect with
  | read _ _ =>
    rw [if_neg (by simp), Nat.add_zero]
    exact congrArg List.length (read_betweenCalls json limits state.client).2
  | called _ => simp
  | observed _ _ | reserved _ _ | wrote _ | writeFailed _ | returned _ | returnedUnkeyed _ | released _
  | answered _ _ | noticed _ _ | refused _ _ | cancelled _ _ => rfl

theorem step_relayCalls {action : Action} (taken : state.step json limits action = some next) :
    next.client.relayCalls.length =
      state.client.relayCalls.length + if action = .client .call then 1 else 0 := by
  cases action with
  | client move => simpa using (step_client taken).relayCalls
  | upstream _ => simp [(step_upstream taken).client_eq]
  | writer _ => simp [(writerStep_undisturbed taken).client]
  | supervisor _ => simp [(supervisorStep_undisturbed taken).client]
  | beginShutdown =>
    cases taken
    simp

theorem panic_relayCalls {subtask : FinishedTask} (taken : state.panic subtask = some next) :
    next.client.relayCalls = state.client.relayCalls := by
  cases subtask with
  | writer | upstream | client =>
    simp only [panic] at taken
    split at taken <;> cases taken
    rfl

theorem dropHandles_client (state : Connection) : state.dropHandles.client = state.client := by
  unfold dropHandles
  cases dropped : state.supervisorStep .cancel with
  | none => rfl
  | some next => exact (supervisorStep_undisturbed dropped).client

end Connection

def ConnectionTask.relayCalls (task : ConnectionTask) : Nat :=
  (task.connection.map fun connection => connection.client.relayCalls.length).getD 0

theorem ConnectionTask.Effect.relayCalls {json : SerdeJson} {limits : ConnectionLimits} {stopping : Bool}
    {task next : ConnectionTask} {action : TaskAction} (effect : task.Effect json limits stopping action next)
    (sound : task.Sound) :
    next.relayCalls = task.relayCalls + if action = .connection (.client .call) then 1 else 0 := by
  cases effect with
  | gaveUp phase which => rcases which with rfl | rfl <;> simp [ConnectionTask.relayCalls]
  | connected phase => simp [ConnectionTask.relayCalls, sound.unopened phase, Connection.new]
  | moved found taken _ =>
    simpa [ConnectionTask.relayCalls, found] using Connection.step_relayCalls taken
  | panicked found taken => simp [ConnectionTask.relayCalls, found, Connection.panic_relayCalls taken]
  | returned _ found _ => simp [ConnectionTask.relayCalls]
  | stopped _ _ which =>
    have dropped : (task.connection.map Connection.dropHandles).map
        (fun connection => connection.client.relayCalls.length) =
        task.connection.map fun connection => connection.client.relayCalls.length := by
      simp [Function.comp_def, Connection.dropHandles_client]
    rcases which with rfl | rfl <;> simp [ConnectionTask.relayCalls, dropped]

namespace Server

variable {json : SerdeJson} {config : Config} {server next : Server}

def relayCalls (server : Server) : Nat := total ConnectionTask.relayCalls server.tasks

def startsCall : ServeAction → Bool
  | .task _ (.connection (.client .call)) => true
  | _ => false

@[simp] theorem relayCalls_raise (server : Server) : server.raise.relayCalls = server.relayCalls := by
  simp only [relayCalls, raise, total, List.map_map]
  apply congrArg fun weight => (server.tasks.map weight).sum
  funext task
  simp [ConnectionTask.relayCalls, Function.comp_def]

@[simp] theorem relayCalls_abortAll (server : Server) : server.abortAll.relayCalls = server.relayCalls := by
  simp only [relayCalls, abortAll, total, List.map_map]
  apply congrArg fun weight => (server.tasks.map weight).sum
  funext task
  rfl

theorem startsCall_task (index : Nat) (action : TaskAction) :
    startsCall (.task index action) = decide (action = .connection (.client .call)) := by
  unfold startsCall
  split
  · next equal =>
    cases equal
    rfl
  · next other =>
    symm
    rw [decide_eq_false_iff_not]
    rintro rfl
    exact other index rfl

theorem Effect.relayCalls {action : ServeAction} (effect : server.Effect json config action next)
    (sound : server.Sound config) :
    next.relayCalls = server.relayCalls + if startsCall action then 1 else 0 := by
  cases effect with
  | bound _ | unbound _ | signalled | turnedAway _ _ | finished _ _ => rfl
  | stopped _ _ | failed _ => exact relayCalls_raise server
  | expired _ => exact relayCalls_abortAll server
  | broke _ => exact (relayCalls_raise _).trans (relayCalls_abortAll server)
  | spawned _ _ =>
    simp only [relayCalls, total_append, total_cons, total_nil]
    rfl
  | @joined index result connection aborted selected _ =>
    have exchanged := total_set ConnectionTask.relayCalls selected ⟨.ended result, connection, aborted, true⟩
    exact Nat.add_right_cancel exchanged
  | @joinFailed index result connection aborted _ selected _ =>
    have exchanged := total_set ConnectionTask.relayCalls selected ⟨.ended result, connection, aborted, true⟩
    exact (relayCalls_abortAll _).trans (Nat.add_right_cancel exchanged)
  | @moved index move task changed selected effect =>
    have own := sound.tasks task (List.mem_of_getElem? selected)
    have grown := effect.relayCalls own
    have exchanged := total_set ConnectionTask.relayCalls selected changed
    simp only [relayCalls, startsCall_task, decide_eq_true_eq]
    omega

end Server

namespace Process

variable {json : SerdeJson} {config : Config} {process next final : Process}

/-- The server never runs ahead of the gate, and the calls of the gate are
those the connections have started. -/
structure Gated (config : Config) (process : Process) : Prop where
  sound : process.server.Sound config
  accounted : Accounted process.drain
  consistent : ∀ call ∈ process.drain.calls, call.Consistent
  signalled : process.server.signalled = true → process.drain.ShutdownBegun
  stopping : process.server.stopping = true →
    process.server.signalled = true ∨ ∃ error, process.server.phase = .returned (.error error)
  counted : process.server.relayCalls = process.drain.calls.length

theorem Gated.new (config : Config) : Gated config (.new config) where
  sound := .new config
  accounted := .new
  consistent := by simp [Process.new, Drain.new]
  signalled := by simp [Process.new, Server.new]
  stopping := by simp [Process.new, Server.new]
  counted := rfl

theorem Gated.stoppingAfter (gated : process.Gated config) {action : ServeAction} {server : Server}
    (other : action ≠ .signal) (taken : process.server.step json config action = some server) :
    server.stopping = true → server.signalled = true ∨ ∃ error, server.phase = .returned (.error error) := by
  have flags := (Server.step_effect taken).flags other
  intro raised
  rw [flags.signalled]
  rcases flags.stopping raised with earlier | signalled | failed
  · rcases gated.stopping earlier with signalled | ⟨error, returned⟩
    · exact .inl signalled
    · exact .inr ⟨error, flags.returned _ returned⟩
  · exact .inl signalled
  · exact .inr failed

theorem Gated.serve (gated : process.Gated config) {action : ServeAction} {server : Server}
    (other : action ≠ .signal) (quiet : Server.startsCall action = false)
    (taken : process.server.step json config action = some server) :
    Gated config { process with server } where
  sound := gated.sound.step taken
  accounted := gated.accounted
  consistent := gated.consistent
  signalled signalled := gated.signalled (((Server.step_effect taken).flags other).signalled ▸ signalled)
  stopping := gated.stoppingAfter other taken
  counted := by
    rw [(Server.step_effect taken).relayCalls gated.sound, quiet]
    exact gated.counted

theorem Gated.gate (gated : process.Gated config) {action : Draining.Action} {drain : Drain}
    (own : action ≠ .invoke) (taken : process.drain.step action = some drain) :
    Gated config { process with drain } where
  sound := gated.sound
  accounted := gated.accounted.step taken
  consistent := Drain.step_consistent taken gated.consistent
  signalled signalled := Drain.step_begun (gated.signalled signalled) taken
  stopping := gated.stopping
  counted := by rw [Drain.step_calls_length own taken, gated.counted]

theorem abandonment_quiet (index : Nat) (panics : Bool) :
    Server.startsCall (.task index (abandonment panics)) = false := by
  cases panics <;> rfl

theorem isFree_quiet {server : Server} {action : ServeAction} (free : server.isFree action = true) :
    action ≠ .signal ∧ Server.startsCall action = false := by
  constructor
  · rintro rfl
    cases free
  · unfold Server.startsCall
    split
    · cases free
    · rfl

theorem Effect.staysGated {action : ProcessAction} (effect : process.Effect json config action next)
    (gated : process.Gated config) : next.Gated config := by
  cases effect with
  | served free taken =>
    obtain ⟨other, quiet⟩ := isFree_quiet free
    exact gated.serve other quiet taken
  | gated own _ taken => exact gated.gate own taken
  | @called index server drain started invoked =>
    have flags := (Server.step_effect started).flags (by simp)
    have entered : Accounted drain :=
      gated.accounted.step (show Draining.machine.step process.drain .invoke = some drain from invoked)
    have consistent := Drain.step_consistent invoked gated.consistent
    have begun : process.drain.ShutdownBegun → drain.ShutdownBegun := fun earlier => Drain.step_begun earlier invoked
    have grown := (Server.step_effect started).relayCalls gated.sound
    refine ⟨gated.sound.step started, entered, consistent, ?_, gated.stoppingAfter (by simp) started, ?_⟩
    · intro signalled
      exact begun (gated.signalled (flags.signalled ▸ signalled))
    · -- the connection counts its call and the gate has one more
      cases Option.some.inj invoked
      rw [grown, gated.counted, List.length_append]
      rfl
  | returned _ _ taken => exact gated.serve (by simp) rfl taken
  | abandoned dropped _ cancelled =>
    exact (gated.serve (by simp) (abandonment_quiet _ _) dropped).gate (by simp) cancelled
  | @signalled active server begun taken =>
    cases Option.some.inj taken
    obtain ⟨rest, shutdowns⟩ := List.head?_eq_some_iff.mp begun
    have member : .returned active ∈ process.drain.shutdowns := by
      rw [shutdowns]
      exact List.mem_cons_self
    exact ⟨⟨gated.sound.balanced, gated.sound.tasks, gated.sound.orderly, gated.sound.awaited⟩, gated.accounted,
      gated.consistent, fun _ => ⟨_, member, by simp⟩, fun _ => .inl rfl, gated.counted⟩

theorem run_gated {schedule : List ProcessAction}
    (execution : (machine json config).run (.new config) schedule = some process) : process.Gated config :=
  (machine json config).run_preserves (fun _ _ _ before taken => (step_effect taken).staysGated before) (.new config)
    execution

theorem Effect.drain {action : ProcessAction} (effect : process.Effect json config action next) :
    next.drain = process.drain ∨ ∃ move, process.drain.step move = some next.drain := by
  cases effect with
  | served _ _ | returned _ _ _ | signalled _ _ => exact .inl rfl
  | gated _ _ taken => exact .inr ⟨_, taken⟩
  | called _ invoked => exact .inr ⟨_, invoked⟩
  | abandoned _ _ cancelled => exact .inr ⟨_, cancelled⟩

def AdmitsNoMore (before after : Drain) : Prop :=
  ∀ (index : Nat) (call : Call), after.calls[index]? = some call → call.wasAdmitted = true →
    ∃ earlier : Call, before.calls[index]? = some earlier ∧ earlier.wasAdmitted = true

theorem run_closed {schedule : List ProcessAction} (gated : process.Gated config)
    (begun : process.drain.ShutdownBegun) (execution : (machine json config).run process schedule = some final) :
    final.Gated config ∧ final.drain.ShutdownBegun ∧ AdmitsNoMore process.drain final.drain := by
  refine (machine json config).run_preserves (motive := fun later =>
    later.Gated config ∧ later.drain.ShutdownBegun ∧ AdmitsNoMore process.drain later.drain) ?_
    ⟨gated, begun, fun index call found passed => ⟨call, found, passed⟩⟩ execution
  rintro middle action later ⟨held, closed, same⟩ taken
  have effect := step_effect taken
  refine ⟨effect.staysGated held, ?_⟩
  rcases effect.drain with unchanged | ⟨move, moved⟩
  · rw [unchanged]
    exact ⟨closed, same⟩
  · refine ⟨Drain.step_begun closed moved, fun index call found passed => ?_⟩
    obtain ⟨before, selected, earlier⟩ := Drain.step_admitted moved held.consistent
      (held.accounted.closed closed) found passed
    exact same index before selected earlier

end Process

namespace Connection

variable {json : SerdeJson} {limits : ConnectionLimits} {state next : Connection}

def Reached (json : SerdeJson) (limits : ConnectionLimits) (state : Connection) : Prop :=
  ∃ clientInput upstreamInput schedule,
    (machine json limits).run (.new clientInput upstreamInput) schedule = some state

theorem Reached.step (reached : state.Reached json limits) (action : Action)
    (taken : state.step json limits action = some next) : next.Reached json limits := by
  obtain ⟨clientInput, upstreamInput, schedule, execution⟩ := reached
  exact ⟨clientInput, upstreamInput, schedule ++ [action], (machine json limits).run_snoc execution taken⟩

theorem Reached.opened (clientInput upstreamInput : Input) (stopping : Bool) :
    Reached json limits { Connection.new clientInput upstreamInput with shutdown := stopping } := by
  have fresh : (Connection.new clientInput upstreamInput).Reached json limits :=
    ⟨clientInput, upstreamInput, [], rfl⟩
  cases stopping with
  | false => exact fresh
  | true => exact fresh.step .beginShutdown rfl

theorem Reached.dropHandles (reached : state.Reached json limits) : state.dropHandles.Reached json limits := by
  unfold Connection.dropHandles
  cases dropped : state.supervisorStep .cancel with
  | none => exact reached
  | some next => exact reached.step (.supervisor .cancel) dropped

end Connection

def TaskAction.isPanic : TaskAction → Bool
  | .subtaskPanics _ => true
  | _ => false

theorem Server.keeps_reached (json : SerdeJson) (config : Config) :
    Keeps json config (fun action => action.isPanic = false) fun task =>
      ∀ connection, task.connection = some connection → connection.Reached json (connectionLimits config) where
  spawned _ found := by cases found
  raised task reached connection found := by
    obtain ⟨before, inside, rfl⟩ := Option.map_eq_some_iff.mp found
    exact (reached before inside).step .beginShutdown rfl
  aborted _ reached := reached
  joined _ _ _ reached := reached
  moved stopping action task next calm reached effect := by
    intro connection found
    cases effect with
    | gaveUp _ _ | returned _ _ _ => exact reached connection found
    | connected _ =>
      cases found
      exact .opened _ _ stopping
    | moved before taken _ =>
      cases found
      exact (reached _ before).step _ taken
    | panicked _ _ => cases calm
    | stopped _ _ _ =>
      obtain ⟨before, inside, rfl⟩ := Option.map_eq_some_iff.mp found
      exact (reached before inside).dropHandles

def ProcessAction.isPanic : ProcessAction → Bool
  | .server (.task _ action) => action.isPanic
  | .abandon _ panics => panics
  | _ => false

namespace Process

variable {json : SerdeJson} {config : Config} {process next : Process}

theorem Effect.server {action : ProcessAction} (effect : process.Effect json config action next) :
    next.server = process.server ∨ ∃ move, process.server.step json config move = some next.server ∧
      ∀ index own, move = .task index own → own.isPanic = action.isPanic := by
  cases effect with
  | gated _ _ _ => exact .inl rfl
  | @served move server _ taken =>
    refine .inr ⟨move, taken, ?_⟩
    rintro index own rfl
    rfl
  | called started _ =>
    refine .inr ⟨_, started, ?_⟩
    rintro index own ⟨⟩
    rfl
  | returned _ _ taken =>
    refine .inr ⟨_, taken, ?_⟩
    rintro index own ⟨⟩
    rfl
  | @abandoned index call panics server drain dropped _ _ =>
    refine .inr ⟨_, dropped, ?_⟩
    rintro index own ⟨⟩
    cases panics <;> rfl
  | signalled _ taken =>
    refine .inr ⟨_, taken, ?_⟩
    rintro index own ⟨⟩

/-- Until a subtask panics, every connection of the process is where a
schedule of the connection alone would have led it. -/
theorem run_reached {schedule : List ProcessAction} (calm : ∀ action ∈ schedule, action.isPanic = false)
    (execution : (machine json config).run (.new config) schedule = some process) :
    ∀ task ∈ process.server.tasks, ∀ connection, task.connection = some connection →
      connection.Reached json (connectionLimits config) := by
  refine (Machine.RunsWhere.of_forall calm execution).preserves (motive := fun later =>
    ∀ task ∈ later.server.tasks, ∀ connection, task.connection = some connection →
      connection.Reached json (connectionLimits config)) ?_ (by simp [Process.new, Server.new])
  intro before action after all quiet taken
  rcases (step_effect taken).server with same | ⟨move, moved, own⟩
  · rw [same]
    exact all
  · refine (Server.step_effect moved).forall (Server.keeps_reached json config) all ?_
    intro index task found
    rw [own index task found, quiet]

end Process

/-- What the order of the signal promises for the calls of all connections. -/
structure GatesCalls (json : SerdeJson) (config : Config) (process : Process) : Prop where
  counted : process.server.relayCalls = process.drain.calls.length
  /-- The gate is closed before the server can see the signal, and so before a
  flag goes up, unless the server has failed by itself. -/
  signalled : process.server.signalled = true → process.drain.accepting = false
  stopping : process.server.stopping = true → process.drain.accepting = false ∨
    ∃ error, process.server.phase = .returned (.error error)
  admitted : process.drain.ShutdownBegun → ∀ schedule final,
    (Process.machine json config).run process schedule = some final →
      Process.AdmitsNoMore process.drain final.drain
  /-- A call that has not passed the gate by then returns the generic failure. -/
  refused : process.drain.ShutdownBegun → ∀ schedule final,
    (Process.machine json config).run process schedule = some final →
    ∀ call, (∀ earlier, process.drain.calls[call]? = some earlier → earlier.wasAdmitted = false) →
    ∀ index next, final.awaited index = some call → final.step json config (.relayReturns index) = some next →
      final.server.step json config (.task index (.connection (.client (.relayReturns (.err .failed))))) =
        some next.server

theorem Process.Gated.gatesCalls {json : SerdeJson} {config : Config} {process : Process}
    (gated : process.Gated config) : GatesCalls json config process := by
  constructor
  · exact gated.counted
  · exact fun signalled => gated.accounted.closed (gated.signalled signalled)
  · intro raised
    rcases gated.stopping raised with signalled | failed
    · exact .inl (gated.accounted.closed (gated.signalled signalled))
    · exact .inr failed
  · intro begun schedule final execution
    exact (run_closed gated begun execution).2.2
  · intro begun schedule final execution call outside index next awaited taken
    obtain ⟨held, -, same⟩ := run_closed gated begun execution
    cases step_effect taken with
    | gated _ which _ => rcases which with same | same <;> cases same
    | @returned _ other outcome invoked server found ended served =>
      obtain rfl : call = other := Option.some.inj (awaited.symm.trans found)
      have never : invoked = false := by
        cases reached : invoked with
        | false => rfl
        | true =>
          obtain ⟨earlier, before, passed⟩ := same call _ ended (by rw [reached]; rfl)
          rw [outside earlier before] at passed
          cases passed
      obtain rfl := (held.consistent _ (List.mem_of_getElem? ended)).refused outcome rfl never
      exact served

/-- Where and how a shutdown cuts the connections of a process. -/
structure CutsAtFrameBoundary (json : SerdeJson) (config : Config) : Prop where
  completes : ∀ limits clientInput upstreamInput past state,
    (Connection.machine json limits).run (.new clientInput upstreamInput) past = some state →
    state.shutdown = true → ∀ schedule final, (Connection.machine json limits).run state schedule = some final →
      CutsAfterLast json state.client final.client
  whole : ∀ limits clientInput upstreamInput schedule final,
    (Connection.machine json limits).RunsWhere Connection.SendsOpenly (.new clientInput upstreamInput)
      schedule final → final.client.phase = .ended .ok →
    final.client.upstreamBytes = forwarded json final.client.taken
  answered : ∀ limits clientInput upstreamInput schedule final,
    (Connection.machine json limits).RunsWhere Connection.SendsOpenly (.new clientInput upstreamInput)
      schedule final → final.client.phase = .ended .ok →
    ∀ before frame reservation id rawTransaction, final.client.taken = before ++ [.frame frame reservation] →
      classify json frame = .ok (.broadcast id rawTransaction) →
      RequestId json frame id ∧
        AnswersLast json schedule final.client (clientFrames final.sent) id rawTransaction reservation
  /-- The connections of the process are such connections, until a subtask panics. -/
  connections : ∀ schedule process, (Process.machine json config).run (.new config) schedule = some process →
    (∀ action ∈ schedule, action.isPanic = false) →
    ∀ task ∈ process.server.tasks, ∀ connection, task.connection = some connection →
      connection.Reached json (connectionLimits config)
  gated : ∀ schedule process, (Process.machine json config).run (.new config) schedule = some process →
    GatesCalls json config process

theorem shutdown_cuts_at_frame_boundary (json : SerdeJson) (config : Config) :
    CutsAtFrameBoundary json config := by
  constructor
  · intro limits clientInput upstreamInput past state reached flag schedule final execution
    have routed := Connection.run_routed reached
    have later := (Connection.machine json limits).run_preserves
      (motive := fun later => Routed json limits clientInput later.client)
      (fun _ _ _ => Connection.step_routed) routed execution
    exact (Connection.run_completes flag execution).cutsAfterLast routed later
  · intro limits clientInput upstreamInput schedule final execution ended
    exact (Connection.run_orderly execution).whole ended
  · intro limits clientInput upstreamInput schedule final execution ended before frame reservation id rawTransaction
      taken classified
    exact ⟨broadcastId_eq classified, Connection.last_broadcast_answered execution ended taken classified⟩
  · intro schedule process execution calm
    exact Process.run_reached calm execution
  · intro schedule process execution
    exact (Process.run_gated execution).gatesCalls

def lateCallSchedule : List ProcessAction :=
  [.server .bind, .server .accept,
    .server (.task 0 (.connected ⟨broadcastRequest, .closed⟩ ⟨[], .closed⟩)),
    .server (.task 0 (.connection (.client .read))), .server (.task 0 (.connection (.client .reserve))),
    .interrupt, .gate (.beginShutdown 0), .gate (.publish (.shutdown 0)), .send, .call 0, .gate (.enter 0),
    .server .observeShutdown, .relayReturns 0, .server (.task 0 (.connection (.client .release))),
    .server (.task 0 (.connection (.client .send))), .server (.task 0 (.connection (.client .observeShutdown)))]

example : ((Process.machine .reference Config.default).run (.new Config.default) lateCallSchedule).map
      (fun process => (process.drain.calls, process.server.tasks.filterMap fun task =>
        task.connection.map fun connection =>
          (connection.client.phase.isEnded, clientFrames connection.sent))) =
    some ([⟨.ended (some (.err .failed)), false⟩],
      [(true, [relayErrorResponse .reference (.number (.posInt 2)) false])]) := by
  decide +kernel

def ClientPhase.hasReturned : ClientPhase → Bool
  | .ended .ok => true
  | _ => false

theorem ClientPhase.eq_of_hasReturned {phase : ClientPhase} (returned : phase.hasReturned = true) :
    phase = .ended .ok := by
  unfold hasReturned at returned
  split at returned
  · rfl
  · cases returned

def duplicateSchedule : List Action :=
  [.client .read, .client .reserve, .client (.write versionQuery.length), .client .read, .beginShutdown,
    .client .reserve, .client .send]

theorem duplicate_broadcast_not_answered :
    classify .reference reusingRequest = .ok (.broadcast (.number (.posInt 1)) "00aa") ∧
    ∃ final, (Connection.machine .reference ⟨1024, 8⟩).RunsWhere Connection.SendsOpenly
        (.new ⟨versionQuery ++ reusingRequest, .closed⟩ ⟨[], .closed⟩) duplicateSchedule final ∧
      final.shutdown = true ∧ final.client.phase = .ended .ok ∧
      final.client.taken.getLast? = some (.frame reusingRequest (some .duplicate)) ∧
      ∀ outcome, relayResponse .reference (.number (.posInt 1)) outcome ∉ clientFrames final.sent := by
  have classified : classify .reference reusingRequest = .ok (.broadcast (.number (.posInt 1)) "00aa") := rfl
  refine ⟨classified, ?_⟩
  have outcome : ((Connection.machine .reference ⟨1024, 8⟩).runWhere Connection.SendsOpenly
      (.new ⟨versionQuery ++ reusingRequest, .closed⟩ ⟨[], .closed⟩) duplicateSchedule).map
        (fun state => (state.shutdown, state.client.phase.hasReturned, state.client.taken.getLast?,
          clientFrames state.sent)) =
      some (true, true, some (.frame reusingRequest (some .duplicate)), [invalidFrameResponse .reference]) := by
    decide +kernel
  obtain ⟨final, execution, same⟩ := Option.map_eq_some_iff.mp outcome
  simp only [Prod.mk.injEq] at same
  obtain ⟨flag, returned, last, frames⟩ := same
  refine ⟨final, Machine.RunsWhere.of_runWhere execution, flag, ClientPhase.eq_of_hasReturned returned, last, ?_⟩
  intro outcome member
  rw [frames, List.mem_singleton] at member
  -- the answer would carry the identifier of the request, the notice carries none
  have answer := relayResponse_carries SerdeJson.reference_printsCompactly (broadcastId_scalar classified) outcome
  have notice := response_carries SerdeJson.reference_printsCompactly (show invalidRequest.id.IsScalar from trivial)
  rw [member] at answer
  cases answer.id_eq notice

end ElectrumPrivateRelay.Proxy

import ElectrumPrivateRelay.Proxy.GracefulShutdown
import ElectrumPrivateRelay.Relay.Stack

/-! The whole process: the server in front of the relay stack.

Every connection relays through the one stack. The two machines share the
steps in which a client task calls the gate, takes a result from it, or drops
the future of its call, wherever that future stands.
-/

set_option autoImplicit false

namespace ElectrumPrivateRelay.Proxy
open ElectrumPrivateRelay.Configuration Json Protocol Relay Semantics
open Relay.Draining (Drain)

/-- `callers` records the connection that made each call of the gate. -/
structure Deployment where
  server : Server
  stack : Stack
  /-- The call of the gate that the client task of a connection made last. -/
  awaited : Nat → Option Nat
  callers : List Nat

inductive DeploymentAction where
  | server (action : ServeAction)
  | relay (action : StackAction)
  | call (index : Nat)
  | relayReturns (index : Nat)
  | abandon (index : Nat) (panics : Bool)
  | interrupt
  | send
  deriving DecidableEq, Repr

def Server.connection (server : Server) (index : Nat) : Option Connection :=
  (server.tasks[index]?).bind ConnectionTask.connection

def Server.uncalled (server : Server) (index : Nat) : Option String :=
  (server.connection index).bind fun connection => connection.client.phase.uncalled.head?

/-- The steps of the stack that no connection takes part in. -/
def isRelayStep : StackAction → Bool
  | .gate action => isGateStep action
  | .start _ | .limiter _ | .relayReturns _ _ | .finish _ => true
  | .call _ | .abandon _ => false

/-- The future of a call is dropped: inside the adapter, or before it was polled. -/
def dropAction (stack : Stack) (call : Nat) : StackAction :=
  match stack.owners.idxOf? call with
  | some submission => .abandon submission
  | none => .gate (.cancel call)

namespace Deployment

def new (config : Config) : Deployment :=
  ⟨.new config, .new config.maxConcurrentBroadcasts, fun _ => none, []⟩

def step (json : SerdeJson) (config : Config) (deployment : Deployment) : DeploymentAction → Option Deployment
  | .server action =>
    if deployment.server.isFree action then
      (deployment.server.step json config action).map fun server => { deployment with server }
    else none
  | .relay action =>
    if isRelayStep action then (deployment.stack.step action).map fun stack => { deployment with stack } else none
  | .call index =>
    match deployment.server.uncalled index with
    | some rawTransaction =>
      match deployment.server.step json config (.task index (.connection (.client .call))),
        deployment.stack.step (.call rawTransaction) with
      | some server, some stack => some
          { server, stack
            awaited := Function.update deployment.awaited index (some deployment.callers.length)
            callers := deployment.callers ++ [index] }
      | _, _ => none
    | none => none
  | .relayReturns index =>
    match (deployment.awaited index).bind fun call => deployment.stack.drain.calls[call]? with
    | some ⟨.ended (some outcome), _⟩ =>
      (deployment.server.step json config (.task index (.connection (.client (.relayReturns outcome))))).map
        fun server => { deployment with server }
    | _ => none
  | .abandon index panics =>
    if deployment.server.isRelaying index then
      match deployment.server.step json config (.task index (abandonment panics)),
        (deployment.awaited index).bind fun call => deployment.stack.step (dropAction deployment.stack call) with
      | some server, some stack => some { deployment with server, stack }
      | _, _ => none
    else none
  | .interrupt =>
    if deployment.stack.drain.shutdowns.isEmpty then
      (deployment.stack.step (.gate .requestShutdown)).map fun stack => { deployment with stack }
    else none
  | .send =>
    match deployment.stack.drain.shutdowns.head? with
    | some (.returned _) =>
      (deployment.server.step json config .signal).map fun server => { deployment with server }
    | _ => none

def machine (json : SerdeJson) (config : Config) : Machine Deployment DeploymentAction := ⟨step json config⟩

variable {json : SerdeJson} {config : Config} {deployment next : Deployment}

inductive Effect (json : SerdeJson) (config : Config) (deployment : Deployment) :
    DeploymentAction → Deployment → Prop where
  | served {action : ServeAction} {server : Server} (free : deployment.server.isFree action = true)
      (taken : deployment.server.step json config action = some server) :
      Effect json config deployment (.server action) { deployment with server }
  | relayed {move : DeploymentAction} {action : StackAction} {stack : Stack}
      (which : move = .relay action ∧ isRelayStep action = true ∨
        move = .interrupt ∧ action = .gate .requestShutdown)
      (taken : deployment.stack.step action = some stack) :
      Effect json config deployment move { deployment with stack }
  | called {index : Nat} {rawTransaction : String} {server : Server} {stack : Stack}
      (carries : deployment.server.uncalled index = some rawTransaction)
      (started : deployment.server.step json config (.task index (.connection (.client .call))) = some server)
      (invoked : deployment.stack.step (.call rawTransaction) = some stack) :
      Effect json config deployment (.call index)
        { server, stack
          awaited := Function.update deployment.awaited index (some deployment.callers.length)
          callers := deployment.callers ++ [index] }
  | returned {index call : Nat} {outcome : Outcome} {invoked : Bool} {server : Server}
      (awaited : deployment.awaited index = some call)
      (ended : deployment.stack.drain.calls[call]? = some ⟨.ended (some outcome), invoked⟩)
      (taken : deployment.server.step json config (.task index (.connection (.client (.relayReturns outcome)))) =
        some server) :
      Effect json config deployment (.relayReturns index) { deployment with server }
  | abandoned {index call : Nat} {panics : Bool} {server : Server} {stack : Stack}
      (dropped : deployment.server.step json config (.task index (abandonment panics)) = some server)
      (awaited : deployment.awaited index = some call)
      (taken : deployment.stack.step (dropAction deployment.stack call) = some stack) :
      Effect json config deployment (.abandon index panics) { deployment with server, stack }
  | signalled {active : Nat} {server : Server}
      (begun : deployment.stack.drain.shutdowns.head? = some (.returned active))
      (taken : deployment.server.step json config .signal = some server) :
      Effect json config deployment .send { deployment with server }

theorem step_effect {action : DeploymentAction} (taken : deployment.step json config action = some next) :
    deployment.Effect json config action next := by
  cases action with
  | server action =>
    simp only [step] at taken
    split at taken
    · next free =>
      obtain ⟨server, served, rfl⟩ := Option.map_eq_some_iff.mp taken
      exact .served free served
    · cases taken
  | relay action =>
    simp only [step] at taken
    split at taken
    · next own =>
      obtain ⟨stack, moved, rfl⟩ := Option.map_eq_some_iff.mp taken
      exact .relayed (.inl ⟨rfl, own⟩) moved
    · cases taken
  | call index =>
    simp only [step] at taken
    split at taken
    · next rawTransaction carries =>
      split at taken
      · next server stack started invoked =>
        cases taken
        exact .called carries started invoked
      · cases taken
    · cases taken
  | relayReturns index =>
    simp only [step] at taken
    split at taken
    · next outcome invoked found =>
      obtain ⟨call, awaited, ended⟩ := Option.bind_eq_some_iff.mp found
      obtain ⟨server, served, rfl⟩ := Option.map_eq_some_iff.mp taken
      exact .returned awaited ended served
    · cases taken
  | abandon index panics =>
    simp only [step] at taken
    split at taken
    · split at taken
      · next server stack dropped found =>
        obtain ⟨call, awaited, moved⟩ := Option.bind_eq_some_iff.mp found
        cases taken
        exact .abandoned dropped awaited moved
      · cases taken
    · cases taken
  | interrupt =>
    simp only [step] at taken
    split at taken
    · obtain ⟨stack, moved, rfl⟩ := Option.map_eq_some_iff.mp taken
      exact .relayed (.inr ⟨rfl, rfl⟩) moved
    · cases taken
  | send =>
    simp only [step] at taken
    split at taken
    · next active begun =>
      obtain ⟨server, served, rfl⟩ := Option.map_eq_some_iff.mp taken
      exact .signalled begun served
    · cases taken

end Deployment

def Connection.kept (state : Connection) : ClientTask × List Sent := (state.client, state.sent)

theorem Connection.dropHandles_kept (state : Connection) : state.dropHandles.kept = state.kept := by
  unfold dropHandles
  cases dropped : state.supervisorStep .cancel with
  | none => rfl
  | some next =>
    have undisturbed := supervisorStep_undisturbed dropped
    exact Prod.ext undisturbed.client undisturbed.sent

inductive Touches (json : SerdeJson) (limits : ConnectionLimits) (action : ServeAction) (index : Nat) :
    Option Connection → Option Connection → Prop where
  | kept {before after : Option Connection} (same : after.map Connection.kept = before.map Connection.kept) :
      Touches json limits action index before after
  | opened {clientInput upstreamInput : Input} {stopping : Bool}
      (which : action = .task index (.connected clientInput upstreamInput)) :
      Touches json limits action index none
        (some { Connection.new clientInput upstreamInput with shutdown := stopping })
  | moved {move : Action} {connection next : Connection} (which : action = .task index (.connection move))
      (taken : connection.step json limits move = some next) :
      Touches json limits action index (some connection) (some next)
  | panicked {subtask : FinishedTask} {connection next : Connection}
      (which : action = .task index (.subtaskPanics subtask)) (taken : connection.panic subtask = some next) :
      Touches json limits action index (some connection) (some next)

namespace Server

variable {json : SerdeJson} {config : Config} {server next : Server}

theorem kept_raise (server : Server) (index : Nat) :
    (server.raise.connection index).map Connection.kept = (server.connection index).map Connection.kept := by
  simp only [connection, raise, List.getElem?_map]
  cases found : server.tasks[index]? with
  | none => rfl
  | some task => cases opened : task.connection <;> simp [opened, Connection.kept]

theorem connection_abortAll (server : Server) (index : Nat) :
    server.abortAll.connection index = server.connection index := by
  simp only [connection, abortAll, List.getElem?_map]
  cases server.tasks[index]? <;> rfl

theorem connection_join {result : TaskEnd} {connection : Option Connection} {aborted : Bool} {position : Nat}
    (selected : server.tasks[position]? = some ⟨.ended result, connection, aborted, false⟩) (index : Nat) :
    Server.connection { server with tasks := server.tasks.set position ⟨.ended result, connection, aborted, true⟩ }
      index = server.connection index := by
  have bound := (List.getElem?_eq_some_iff.mp selected).1
  simp only [Server.connection]
  by_cases same : position = index
  · subst same
    rw [List.getElem?_set_self bound, selected]
    rfl
  · rw [List.getElem?_set_ne same]

theorem Effect.touches {action : ServeAction} (effect : server.Effect json config action next)
    (sound : server.Sound config) (index : Nat) :
    Touches json (connectionLimits config) action index (server.connection index) (next.connection index) := by
  cases effect with
  | bound _ | unbound _ | signalled | turnedAway _ _ | finished _ _ => exact .kept rfl
  | stopped _ _ | failed _ => exact .kept (server.kept_raise index)
  | expired _ => exact .kept (congrArg _ (server.connection_abortAll index))
  | broke _ =>
    exact .kept ((server.abortAll.kept_raise index).trans (congrArg _ (server.connection_abortAll index)))
  | spawned _ _ =>
    refine .kept (congrArg _ ?_)
    simp only [connection]
    by_cases old : index < server.tasks.length
    · rw [List.getElem?_append_left old]
    · rw [List.getElem?_append_right (Nat.le_of_not_lt old), List.getElem?_eq_none (Nat.le_of_not_lt old)]
      cases index - server.tasks.length <;> rfl
  | joined selected _ => exact .kept (congrArg _ (connection_join selected index))
  | joinFailed selected _ =>
    exact .kept (congrArg _ ((connection_abortAll _ index).trans (connection_join selected index)))
  | @moved position move task changed selected effect =>
    have bound := (List.getElem?_eq_some_iff.mp selected).1
    by_cases same : position = index
    · subst same
      have before : server.connection position = task.connection := by simp [connection, selected]
      have after : (server.tasks.set position changed)[position]?.bind ConnectionTask.connection =
          changed.connection := by simp [List.getElem?_set_self bound]
      simp only [Server.connection] at before ⊢
      rw [before, after]
      cases effect with
      | gaveUp _ _ | returned _ _ _ => exact .kept rfl
      | connected phase =>
        rw [(sound.tasks task (List.mem_of_getElem? selected)).unopened phase]
        exact .opened rfl
      | moved found taken _ =>
        rw [found]
        exact .moved rfl taken
      | panicked found taken =>
        rw [found]
        exact .panicked rfl taken
      | stopped _ _ _ =>
        refine .kept ?_
        rw [Option.map_map]
        exact congrArg (fun change => task.connection.map change) (funext Connection.dropHandles_kept)
    · refine .kept ?_
      simp only [connection, List.getElem?_set_ne same]

end Server

end ElectrumPrivateRelay.Proxy

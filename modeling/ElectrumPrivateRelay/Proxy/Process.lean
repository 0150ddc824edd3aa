import ElectrumPrivateRelay.Proxy.Shutdown
import ElectrumPrivateRelay.Relay.DrainAdmission
import Mathlib.Logic.Function.Basic

/-! The process: what `run` puts together once the configuration is accepted.

Every connection relays through one gate. A task of its own waits for the
interrupt, closes the gate and only then resolves the future the server waits
for. The two machines share the steps in which a client task calls the gate,
takes a result from it, or drops a call.
-/

set_option autoImplicit false

namespace ElectrumPrivateRelay.Proxy
open ElectrumPrivateRelay.Configuration Json Relay Semantics
open Relay.Draining (Drain)

structure Process where
  server : Server
  drain : Drain
  awaited : Nat → Option Nat

inductive ProcessAction where
  | server (action : ServeAction)
  | gate (action : Draining.Action)
  | call (index : Nat)
  | relayReturns (index : Nat)
  | abandon (index : Nat) (panics : Bool)
  | interrupt
  | send

def Server.isRelaying (server : Server) (index : Nat) : Bool :=
  match server.tasks[index]? with
  | some ⟨_, some connection, _, _⟩ => connection.client.phase.isRelaying
  | _ => false

/-- The steps that neither come from the signal task nor concern a relay call. -/
def Server.isFree (server : Server) : ServeAction → Bool
  | .signal | .task _ (.connection (.client .call)) | .task _ (.connection (.client (.relayReturns _))) => false
  | .task index (.connection (.client .cancel)) | .task index (.subtaskPanics .client) =>
    !server.isRelaying index
  | _ => true

/-- The steps of the gate that no other party takes part in. -/
def isGateStep : Draining.Action → Bool
  | .enter _ | .innerReturns _ _ | .leave _ | .beginShutdown _ | .publish _ => true
  -- the process waits for its connections and never for the gate to be idle
  | .invoke | .cancel _ | .requestShutdown | .waitForIdle | .pollIdle _ | .expireIdle _ => false

def abandonment (panics : Bool) : TaskAction :=
  if panics then .subtaskPanics .client else .connection (.client .cancel)

namespace Process

def new (config : Config) : Process := ⟨.new config, .new, fun _ => none⟩

def step (json : SerdeJson) (config : Config) (process : Process) : ProcessAction → Option Process
  | .server action =>
    if process.server.isFree action then
      (process.server.step json config action).map fun server => { process with server }
    else none
  | .gate action =>
    if isGateStep action then (process.drain.step action).map fun drain => { process with drain } else none
  | .call index =>
    match process.server.step json config (.task index (.connection (.client .call))),
      process.drain.step .invoke with
    | some server, some drain =>
      some ⟨server, drain, Function.update process.awaited index (some process.drain.calls.length)⟩
    | _, _ => none
  | .relayReturns index =>
    match (process.awaited index).bind fun call => process.drain.calls[call]? with
    | some ⟨.ended (some outcome), _⟩ =>
      (process.server.step json config (.task index (.connection (.client (.relayReturns outcome))))).map
        fun server => { process with server }
    | _ => none
  -- the future of the call is dropped together with the client task
  | .abandon index panics =>
    if process.server.isRelaying index then
      match process.server.step json config (.task index (abandonment panics)),
        (process.awaited index).bind fun call => process.drain.step (.cancel call) with
      | some server, some drain => some { process with server, drain }
      | _, _ => none
    else none
  | .interrupt =>
    if process.drain.shutdowns.isEmpty then
      (process.drain.step .requestShutdown).map fun drain => { process with drain }
    else none
  -- `begin_shutdown` has returned before the sender is used
  | .send =>
    match process.drain.shutdowns.head? with
    | some (.returned _) => (process.server.step json config .signal).map fun server => { process with server }
    | _ => none

def machine (json : SerdeJson) (config : Config) : Machine Process ProcessAction := ⟨step json config⟩

variable {json : SerdeJson} {config : Config} {process next : Process}

inductive Effect (json : SerdeJson) (config : Config) (process : Process) : ProcessAction → Process → Prop where
  | served {action : ServeAction} {server : Server} (free : process.server.isFree action = true)
      (taken : process.server.step json config action = some server) :
      Effect json config process (.server action) { process with server }
  | gated {move : ProcessAction} {action : Draining.Action} {drain : Drain} (own : action ≠ .invoke)
      (which : move = .gate action ∨ move = .interrupt) (taken : process.drain.step action = some drain) :
      Effect json config process move { process with drain }
  | called {index : Nat} {server : Server} {drain : Drain}
      (started : process.server.step json config (.task index (.connection (.client .call))) = some server)
      (invoked : process.drain.step .invoke = some drain) :
      Effect json config process (.call index)
        ⟨server, drain, Function.update process.awaited index (some process.drain.calls.length)⟩
  | returned {index call : Nat} {outcome : Outcome} {invoked : Bool} {server : Server}
      (awaited : process.awaited index = some call)
      (ended : process.drain.calls[call]? = some ⟨.ended (some outcome), invoked⟩)
      (taken : process.server.step json config (.task index (.connection (.client (.relayReturns outcome)))) =
        some server) :
      Effect json config process (.relayReturns index) { process with server }
  | abandoned {index call : Nat} {panics : Bool} {server : Server} {drain : Drain}
      (dropped : process.server.step json config (.task index (abandonment panics)) = some server)
      (awaited : process.awaited index = some call) (cancelled : process.drain.step (.cancel call) = some drain) :
      Effect json config process (.abandon index panics) { process with server, drain }
  | signalled {active : Nat} {server : Server} (begun : process.drain.shutdowns.head? = some (.returned active))
      (taken : process.server.step json config .signal = some server) :
      Effect json config process .send { process with server }

theorem step_effect {action : ProcessAction} (taken : process.step json config action = some next) :
    process.Effect json config action next := by
  cases action with
  | server action =>
    simp only [step] at taken
    split at taken
    · next free =>
      obtain ⟨server, served, rfl⟩ := Option.map_eq_some_iff.mp taken
      exact .served free served
    · cases taken
  | gate action =>
    simp only [step] at taken
    split at taken
    · next own =>
      obtain ⟨drain, moved, rfl⟩ := Option.map_eq_some_iff.mp taken
      refine .gated ?_ (.inl rfl) moved
      rintro rfl
      cases own
    · cases taken
  | call index =>
    simp only [step] at taken
    split at taken
    · next server drain started invoked =>
      cases taken
      exact .called started invoked
    · cases taken
  | relayReturns index =>
    simp only [step] at taken
    split at taken
    · next outcome invoked found =>
      obtain ⟨call, awaited, ended⟩ := Option.bind_eq_some_iff.mp found
      obtain ⟨server, served, rfl⟩ := Option.map_eq_some_iff.mp taken
      exact .returned awaited ended served
    · cases taken
  | abandon index panics =>
    simp only [step] at taken
    split at taken
    · split at taken
      · next server drain dropped found =>
        obtain ⟨call, awaited, cancelled⟩ := Option.bind_eq_some_iff.mp found
        cases taken
        exact .abandoned dropped awaited cancelled
      · cases taken
    · cases taken
  | interrupt =>
    simp only [step] at taken
    split at taken
    · obtain ⟨drain, moved, rfl⟩ := Option.map_eq_some_iff.mp taken
      exact .gated (by simp) (.inr rfl) moved
    · cases taken
  | send =>
    simp only [step] at taken
    split at taken
    · next active begun =>
      obtain ⟨server, served, rfl⟩ := Option.map_eq_some_iff.mp taken
      exact .signalled begun served
    · cases taken

end Process

end ElectrumPrivateRelay.Proxy

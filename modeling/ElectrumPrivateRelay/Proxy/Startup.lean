import ElectrumPrivateRelay.Configuration.Acceptance
import ElectrumPrivateRelay.Proxy.Submission
import ElectrumPrivateRelay.Relay.Deadlines

/-! From the command line to what a wallet is told.

An accepted command line decides the adapter behind the stack. Whatever a
connection answers to a broadcast is the generic failure or what that adapter
makes of a transaction of this connection.
-/

set_option autoImplicit false

namespace ElectrumPrivateRelay.Proxy
open ElectrumPrivateRelay.Configuration Json Net Protocol Relay Semantics

inductive Adapter where
  | reject
  | socksElectrum (socks5Proxy : SocketAddr) (endpoint : Endpoint) (timeout : Nat)
  deriving DecidableEq, Repr

/-- The `match` on the relay mode; without an endpoint its `expect` panics. -/
def adapterOf (config : Config) : Option Adapter :=
  match config.relayMode with
  | .reject => some .reject
  | .socksElectrum =>
    config.relayEndpoint.map fun endpoint =>
      .socksElectrum config.socks5Proxy endpoint (config.relayTimeout * second)

def configCheckOutput : String :=
  "configuration valid; no listener was bound and no network connection was opened"

/-- How `main` ends, or what it goes on to serve. -/
inductive Launch where
  | failure (stderr : String)
  | success (stdout : String)
  | panics
  | serves (config : Config) (adapter : Adapter)

def launch (checkConfig : Bool) (cli : Cli) : Launch :=
  match Config.tryFrom cli with
  | .error error => .failure ("fatal: " ++ error.message)
  | .ok config =>
    if checkConfig then .success configCheckOutput
    else match adapterOf config with
      | some adapter => .serves config adapter
      | none => .panics

structure LaunchesSafely (checkConfig : Bool) (cli : Cli) : Prop where
  panicFree : launch checkConfig cli ≠ .panics
  refused : (∃ stderr, launch checkConfig cli = .failure stderr) ↔ ¬ Acceptable cli
  checked : (∃ stdout, launch checkConfig cli = .success stdout) ↔ checkConfig = true ∧ Acceptable cli
  serves : ∀ config adapter, launch checkConfig cli = .serves config adapter ↔
    checkConfig = false ∧ (∃ acceptable : Acceptable cli, config = acceptable.config) ∧
      adapterOf config = some adapter

theorem adapterOf_acceptable {cli : Cli} (acceptable : Acceptable cli) :
    ∃ adapter, adapterOf acceptable.config = some adapter := by
  cases mode : cli.relayMode with
  | reject => exact ⟨.reject, by simp [adapterOf, Acceptable.config, mode]⟩
  | socksElectrum =>
    obtain ⟨relay, configured, -⟩ := acceptable.relay mode
    refine ⟨.socksElectrum cli.socks5Proxy relay (cli.relayTimeoutSeconds * second), ?_⟩
    simp [adapterOf, Acceptable.config, mode, configured]

theorem launch_acceptable {cli : Cli} (acceptable : Acceptable cli) (checkConfig : Bool) :
    ∃ adapter, adapterOf acceptable.config = some adapter ∧
      launch checkConfig cli = if checkConfig then .success configCheckOutput else .serves acceptable.config adapter := by
  obtain ⟨adapter, chosen⟩ := adapterOf_acceptable acceptable
  have accepted := Config.tryFrom_iff.mpr ⟨acceptable, rfl⟩
  exact ⟨adapter, chosen, by simp only [launch, accepted, chosen]⟩

theorem launch_unacceptable {cli : Cli} (unacceptable : ¬ Acceptable cli) (checkConfig : Bool) :
    ∃ stderr, launch checkConfig cli = .failure stderr := by
  cases parsed : Config.tryFrom cli with
  | error error => exact ⟨_, by simp only [launch, parsed]; rfl⟩
  | ok config =>
    obtain ⟨acceptable, -⟩ := Config.tryFrom_iff.mp parsed
    exact absurd acceptable unacceptable

theorem launch_serves_iff {checkConfig : Bool} {cli : Cli} {config : Config} {adapter : Adapter} :
    launch checkConfig cli = .serves config adapter ↔
      checkConfig = false ∧ (∃ acceptable : Acceptable cli, config = acceptable.config) ∧
        adapterOf config = some adapter := by
  by_cases acceptable : Acceptable cli
  · obtain ⟨own, chosen, leads⟩ := launch_acceptable acceptable checkConfig
    rw [leads]
    cases checkConfig with
    | true => simp
    | false =>
      simp only [Bool.false_eq_true, if_false, Launch.serves.injEq, true_and]
      constructor
      · rintro ⟨rfl, rfl⟩
        exact ⟨⟨acceptable, rfl⟩, chosen⟩
      · rintro ⟨⟨_, rfl⟩, found⟩
        exact ⟨rfl, Option.some.inj (chosen.symm.trans found)⟩
  · obtain ⟨stderr, leads⟩ := launch_unacceptable acceptable checkConfig
    rw [leads]
    simp [acceptable]

theorem launch_safe (checkConfig : Bool) (cli : Cli) : LaunchesSafely checkConfig cli := by
  by_cases acceptable : Acceptable cli
  · obtain ⟨adapter, chosen, leads⟩ := launch_acceptable acceptable checkConfig
    refine ⟨?_, ?_, ?_, fun _ _ => launch_serves_iff⟩
    all_goals
      rw [leads]
      cases checkConfig <;> simp [acceptable]
  · obtain ⟨stderr, leads⟩ := launch_unacceptable acceptable checkConfig
    refine ⟨?_, ?_, ?_, fun _ _ => launch_serves_iff⟩
    all_goals
      rw [leads]
      simp [acceptable]

def Adapter.submit (json : SerdeJson) (adapter : Adapter) (conduct : Conduct) (rawTransaction : String) : Submission :=
  match adapter with
  | .reject => ⟨[], RejectRelay.broadcast rawTransaction⟩
  | .socksElectrum _ _ timeout => (SocksElectrumRelay.timedBroadcast json timeout conduct rawTransaction).1

/-- The adapter answers a submission with what it makes of its transaction. -/
def Adapter.Permits (json : SerdeJson) (adapter : Adapter) (deployment : Deployment) : DeploymentAction → Prop
  | .relay (.relayReturns submission outcome) => ∃ call conduct,
      deployment.stack.limiter.calls[submission]? = some call ∧
        (adapter.submit json conduct call.rawTransaction).outcome = outcome
  | _ => True

/-- An outcome that a connection may be told after these relay calls. -/
def Adapter.Tells (json : SerdeJson) (adapter : Adapter) (calls : List String) (outcome : Outcome) : Prop :=
  outcome = .err .failed ∨ ∃ rawTransaction ∈ calls, ∃ conduct,
    (adapter.submit json conduct rawTransaction).outcome = outcome

theorem Adapter.Tells.mono {json : SerdeJson} {adapter : Adapter} {calls more : List String} {outcome : Outcome}
    (tells : adapter.Tells json calls outcome) (grown : calls ⊆ more) : adapter.Tells json more outcome := by
  rcases tells with failed | ⟨rawTransaction, member, answered⟩
  · exact .inl failed
  · exact .inr ⟨rawTransaction, grown member, answered⟩

def ClientPhase.answer : ClientPhase → Option (List UInt8)
  | .releasing _ response | .responding response => some response
  | .reading | .reserving _ _ _ _ | .writing _ | .calling _ _ _ | .relaying _ _ | .closing _ | .ended _ => none

namespace Connection

structure AnswersBy (json : SerdeJson) (adapter : Adapter) (state : Connection) : Prop where
  held : ∀ response, state.client.phase.answer = some response →
    ∃ id outcome, adapter.Tells json state.client.relayCalls outcome ∧ response = relayResponse json id outcome
  sent : ∀ entry ∈ state.sent, entry.origin = .answer →
    ∃ id outcome, adapter.Tells json state.client.relayCalls outcome ∧ entry.frame = relayResponse json id outcome

variable {json : SerdeJson} {adapter : Adapter} {limits : ConnectionLimits} {state next : Connection}

theorem AnswersBy.new (clientInput upstreamInput : Input) : AnswersBy json adapter (.new clientInput upstreamInput) where
  held response holds := by cases holds
  sent entry member := absurd member List.not_mem_nil

theorem AnswersBy.keep (answers : AnswersBy json adapter state)
    (calls : state.client.relayCalls ⊆ next.client.relayCalls)
    (held : ∀ response, next.client.phase.answer = some response →
      ∃ id outcome, adapter.Tells json next.client.relayCalls outcome ∧ response = relayResponse json id outcome)
    (sent : ∀ entry ∈ next.sent, entry.origin = .answer → entry ∈ state.sent) : AnswersBy json adapter next where
  held := held
  sent entry member origin := by
    obtain ⟨id, outcome, tells, same⟩ := answers.sent entry (sent entry member origin) origin
    exact ⟨id, outcome, tells.mono calls, same⟩

end Connection

namespace Deployment

variable {json : SerdeJson} {config : Config} {adapter : Adapter} {deployment next : Deployment}
  {past : List DeploymentAction}

structure AnswersBy (json : SerdeJson) (adapter : Adapter) (past : List DeploymentAction) (deployment : Deployment) :
    Prop where
  returned : ∀ submission outcome, .relay (.relayReturns submission outcome) ∈ past → ∃ call conduct,
    deployment.stack.limiter.calls[submission]? = some call ∧
      (adapter.submit json conduct call.rawTransaction).outcome = outcome
  answers : ∀ index connection, deployment.server.connection index = some connection →
    connection.AnswersBy json adapter

theorem AnswersBy.stack (speaks : AnswersBy json adapter past deployment) {action : DeploymentAction}
    (permitted : adapter.Permits json deployment action) (taken : deployment.step json config action = some next)
    (submission : Nat) (outcome : Outcome)
    (member : .relay (.relayReturns submission outcome) ∈ past ++ [action]) :
    ∃ call conduct, next.stack.limiter.calls[submission]? = some call ∧
      (adapter.submit json conduct call.rawTransaction).outcome = outcome := by
  have before : ∃ call conduct, deployment.stack.limiter.calls[submission]? = some call ∧
      (adapter.submit json conduct call.rawTransaction).outcome = outcome := by
    rcases List.mem_append.mp member with old | new
    · exact speaks.returned submission outcome old
    · cases List.mem_singleton.mp new
      exact permitted
  obtain ⟨call, conduct, selected, answered⟩ := before
  rcases (step_effect taken).stack with same | ⟨move, moved, -⟩
  · exact ⟨call, conduct, same ▸ selected, answered⟩
  · obtain ⟨later, found, same⟩ := (Stack.step_effect moved).submission selected
    exact ⟨later, conduct, found, same ▸ answered⟩

theorem AnswersBy.told (speaks : AnswersBy json adapter past deployment) (traced : Traced json config past deployment)
    {action : DeploymentAction} (effect : deployment.Effect json config action next) :
    next.server = deployment.server ∨ ∃ move, deployment.server.step json config move = some next.server ∧
      ∀ index connection outcome, move = .task index (.connection (.client (.relayReturns outcome))) →
        deployment.server.connection index = some connection →
        adapter.Tells json connection.client.relayCalls outcome := by
  cases effect with
  | relayed _ _ => exact .inl rfl
  | @served move server free taken =>
    refine .inr ⟨move, taken, ?_⟩
    rintro index connection outcome rfl
    cases free
  | called _ taken _ | signalled _ taken =>
    refine .inr ⟨_, taken, ?_⟩
    rintro index connection outcome ⟨⟩
  | @abandoned index call panics server stack taken _ _ =>
    refine .inr ⟨_, taken, ?_⟩
    rintro position connection outcome which
    cases panics <;> cases which
  | @returned index call outcome invoked server awaited ended taken =>
    refine .inr ⟨_, taken, ?_⟩
    rintro position connection other ⟨⟩ found
    rcases traced.told awaited ended found with failed | ⟨submission, submitted, _, selected, last, member⟩
    · exact .inl failed
    · obtain ⟨known, conduct, there, answered⟩ := speaks.returned submission outcome member
      cases there.symm.trans selected
      exact .inr ⟨_, List.mem_of_getLast? last, conduct, answered⟩

end Deployment

theorem Adapter.Tells.reject {json : SerdeJson} {calls : List String} {outcome : Outcome}
    (tells : Adapter.reject.Tells json calls outcome) : ∃ error, outcome = .err error := by
  rcases tells with rfl | ⟨rawTransaction, -, conduct, rfl⟩
  · exact ⟨_, rfl⟩
  · exact ⟨_, rfl⟩

end ElectrumPrivateRelay.Proxy

import ElectrumPrivateRelay.Configuration.Config

/-! Which command lines are accepted.

The checks are made one after the other and the first that fails decides the
message. Whether all of them pass does not depend on their order.
-/

set_option autoImplicit false

namespace ElectrumPrivateRelay.Configuration
open Net Semantics

/-- A command line that no check refuses. -/
structure Acceptable (cli : Cli) : Prop where
  listener : cli.listen.port ≠ 0 ∧ (cli.listen.ip.isLoopback = true ∨ cli.allowNonLoopbackListen = true)
  upstream : cli.upstream.validate = .ok () ∧ cli.upstream.couldTargetListener cli.listen = false
  proxy : cli.socks5Proxy.port ≠ 0
  endpoint : ∀ relay, cli.relayEndpoint = some relay → relay.validate = .ok ()
  connections : 1 ≤ cli.maxConnections ∧ cli.maxConnections ≤ maxConfigurableConnections
  broadcasts : 1 ≤ cli.maxConcurrentBroadcasts ∧ cli.maxConcurrentBroadcasts ≤ maxConfigurableConcurrentBroadcasts
  pending : 1 ≤ cli.maxPendingRequests ∧ cli.maxPendingRequests ≤ maxConfigurablePendingRequests
  frames : 1024 ≤ cli.maxFrameBytes ∧ cli.maxFrameBytes ≤ maxConfigurableFrameBytes
  budget : cli.maxConcurrentBroadcasts * cli.maxFrameBytes ≤ maxConfigurableInFlightBroadcastBytes
  timeouts : cli.connectTimeoutSeconds ≠ 0 ∧ cli.relayTimeoutSeconds ≠ 0
  relay : cli.relayMode = .socksElectrum → ∃ relay, cli.relayEndpoint = some relay ∧
    relay.sameTarget cli.upstream = false ∧ relay.couldTargetListener cli.listen = false ∧
    (Endpoint.mk cli.socks5Proxy.ip.toText cli.socks5Proxy.port).couldTargetListener cli.listen = false

def Acceptable.config {cli : Cli} (acceptable : Acceptable cli) : Config where
  listen := cli.listen
  upstream := cli.upstream
  relayMode := cli.relayMode
  relayEndpoint := cli.relayEndpoint
  socks5Proxy := cli.socks5Proxy
  maxConnections := cli.maxConnections
  maxConcurrentBroadcasts := ⟨cli.maxConcurrentBroadcasts, acceptable.broadcasts.1, acceptable.broadcasts.2⟩
  maxPendingRequests := ⟨cli.maxPendingRequests, acceptable.pending.1, acceptable.pending.2⟩
  maxFrameBytes := cli.maxFrameBytes
  connectTimeout := cli.connectTimeoutSeconds
  relayTimeout := cli.relayTimeoutSeconds

theorem then_eq_ok {Error Result : Type} {check : Except Error Unit} {next : Except Error Result} {result : Result} :
    (check >>= fun _ => next) = .ok result ↔ check = .ok () ∧ next = .ok result := by
  cases check with
  | error error => simp [bind, Except.bind]
  | ok value => simp [bind, Except.bind]

theorem validateNamed_eq_ok {label : String} {endpoint : Endpoint} :
    validateNamed label endpoint = .ok () ↔ endpoint.validate = .ok () := by
  unfold validateNamed
  cases endpoint.validate <;> simp

theorem validateRelayEndpoint_eq_ok {endpoint : Option Endpoint} :
    validateRelayEndpoint endpoint = .ok () ↔ ∀ relay, endpoint = some relay → relay.validate = .ok () := by
  cases endpoint with
  | none => simp [validateRelayEndpoint]
  | some relay => simp [validateRelayEndpoint, validateNamed_eq_ok]

theorem ConcurrentBroadcastLimit.tryFrom_iff {value : Nat} {limit : ConcurrentBroadcastLimit} :
    tryFrom value = .ok limit ↔ ∃ range : 1 ≤ value ∧ value ≤ maxConfigurableConcurrentBroadcasts,
      limit = ⟨value, range.1, range.2⟩ := by
  unfold tryFrom
  split
  · next range => simp [range, eq_comm]
  · next range => simp [range]

theorem PendingRequestLimit.tryFrom_iff {value : Nat} {limit : PendingRequestLimit} :
    tryFrom value = .ok limit ↔ ∃ range : 1 ≤ value ∧ value ≤ maxConfigurablePendingRequests,
      limit = ⟨value, range.1, range.2⟩ := by
  unfold tryFrom
  split
  · next range => simp [range, eq_comm]
  · next range => simp [range]

/-- The product cannot overflow where it matters. -/
theorem checkBroadcastBudget_iff {cli : Cli} : checkBroadcastBudget cli = .ok () ↔
    cli.maxConcurrentBroadcasts * cli.maxFrameBytes ≤ maxConfigurableInFlightBroadcastBytes := by
  constructor
  · exact checkBroadcastBudget_eq_ok
  · intro within
    have fits : checkedUsize (cli.maxConcurrentBroadcasts * cli.maxFrameBytes) =
        some (cli.maxConcurrentBroadcasts * cli.maxFrameBytes) := by
      have below : maxConfigurableInFlightBroadcastBytes ≤ usizeMax := by decide
      exact checkedUsize_eq_some.mpr ⟨Nat.le_trans within below, rfl⟩
    simp only [checkBroadcastBudget, fits, reject_eq_ok]
    simpa using within

theorem checkRelayMode_iff {cli : Cli} : checkRelayMode cli = .ok () ↔
    (cli.relayMode = .socksElectrum → ∃ relay, cli.relayEndpoint = some relay ∧
      relay.sameTarget cli.upstream = false ∧ relay.couldTargetListener cli.listen = false ∧
      (Endpoint.mk cli.socks5Proxy.ip.toText cli.socks5Proxy.port).couldTargetListener cli.listen = false) := by
  unfold checkRelayMode
  by_cases mode : cli.relayMode = .socksElectrum
  · cases configured : cli.relayEndpoint with
    | none => simp [mode]
    | some relay => simp [mode, then_eq_ok, reject_eq_ok]
  · simp [mode]

theorem Config.tryFrom_iff {cli : Cli} {config : Config} :
    Config.tryFrom cli = .ok config ↔ ∃ acceptable : Acceptable cli, config = acceptable.config := by
  simp only [tryFrom, then_eq_ok, @bind_eq_ok _ ConcurrentBroadcastLimit, @bind_eq_ok _ PendingRequestLimit,
    validateNamed_eq_ok, validateRelayEndpoint_eq_ok, ConcurrentBroadcastLimit.tryFrom_iff,
    PendingRequestLimit.tryFrom_iff, checkBroadcastBudget_iff, checkRelayMode_iff, reject_eq_ok]
  simp only [Bool.not_eq_false', Bool.and_eq_true, Bool.and_eq_false_iff, Bool.or_eq_false_iff, decide_eq_true_eq,
    decide_eq_false_iff_not]
  constructor
  · rintro ⟨port, reachable, valid, loop, proxy, endpoint, connections, rest⟩
    obtain ⟨_, ⟨broadcasts, rfl⟩, _, ⟨pending, rfl⟩, frames, budget, timeouts, relay, built⟩ := rest
    cases built
    exact ⟨⟨⟨port, reachable⟩, ⟨valid, loop⟩, proxy, endpoint, connections, broadcasts, pending, frames, budget,
      timeouts, relay⟩, rfl⟩
  · rintro ⟨⟨⟨port, reachable⟩, ⟨valid, loop⟩, proxy, endpoint, connections, broadcasts, pending, frames, budget,
      timeouts, relay⟩, rfl⟩
    exact ⟨port, reachable, valid, loop, proxy, endpoint, connections, _, ⟨broadcasts, rfl⟩, _, ⟨pending, rfl⟩, frames,
      budget, timeouts, relay, rfl⟩

end ElectrumPrivateRelay.Configuration

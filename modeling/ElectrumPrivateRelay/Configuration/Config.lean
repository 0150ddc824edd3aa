import ElectrumPrivateRelay.Configuration.Endpoint

/-! Validation of the command line into a runnable configuration.

The two limits carry their range: a limiter or a request window cannot be
built from a value outside it.
-/

set_option autoImplicit false

namespace ElectrumPrivateRelay.Configuration
open Net Semantics

def maxConfigurableFrameBytes : Nat := 16 * 1024 * 1024
def maxConfigurableConnections : Nat := 16 * 1024
def maxConfigurablePendingRequests : Nat := 16 * 1024
def maxConfigurableConcurrentBroadcasts : Nat := 1024
def maxConfigurableInFlightBroadcastBytes : Nat := 128 * 1024 * 1024

structure ConfigError where
  message : String
  deriving DecidableEq, Repr

structure PendingRequestLimit where
  get : Nat
  positive : 1 ≤ get
  bounded : get ≤ maxConfigurablePendingRequests

structure ConcurrentBroadcastLimit where
  get : Nat
  positive : 1 ≤ get
  bounded : get ≤ maxConfigurableConcurrentBroadcasts

def PendingRequestLimit.tryFrom (value : Nat) : Except ConfigError PendingRequestLimit :=
  if range : 1 ≤ value ∧ value ≤ maxConfigurablePendingRequests then .ok ⟨value, range.1, range.2⟩
  else .error ⟨"max pending requests must be between 1 and " ++ toString maxConfigurablePendingRequests⟩

def ConcurrentBroadcastLimit.tryFrom (value : Nat) : Except ConfigError ConcurrentBroadcastLimit :=
  if range : 1 ≤ value ∧ value ≤ maxConfigurableConcurrentBroadcasts then .ok ⟨value, range.1, range.2⟩
  else .error
    ⟨"max concurrent broadcasts must be between 1 and " ++ toString maxConfigurableConcurrentBroadcasts⟩

inductive RelayMode where
  | reject
  | socksElectrum
  deriving DecidableEq, Repr

structure Cli where
  listen : SocketAddr
  upstream : Endpoint
  relayMode : RelayMode
  relayEndpoint : Option Endpoint
  socks5Proxy : SocketAddr
  maxConnections : Nat
  maxConcurrentBroadcasts : Nat
  maxPendingRequests : Nat
  maxFrameBytes : Nat
  connectTimeoutSeconds : Nat
  relayTimeoutSeconds : Nat
  allowNonLoopbackListen : Bool

def defaultMaxConnections : Nat := 128
def defaultMaxConcurrentBroadcasts : Nat := 8
def defaultMaxPendingRequests : Nat := 1024
def defaultMaxFrameBytes : Nat := 2 * 1024 * 1024

def Cli.default : Cli where
  listen := ⟨.v4 ⟨127, 0, 0, 1⟩, 50003⟩
  upstream := ⟨"127.0.0.1", 50001⟩
  relayMode := .reject
  relayEndpoint := none
  socks5Proxy := ⟨.v4 ⟨127, 0, 0, 1⟩, 9050⟩
  maxConnections := defaultMaxConnections
  maxConcurrentBroadcasts := defaultMaxConcurrentBroadcasts
  maxPendingRequests := defaultMaxPendingRequests
  maxFrameBytes := defaultMaxFrameBytes
  connectTimeoutSeconds := 10
  relayTimeoutSeconds := 30
  allowNonLoopbackListen := false

structure Config where
  listen : SocketAddr
  upstream : Endpoint
  relayMode : RelayMode
  relayEndpoint : Option Endpoint
  socks5Proxy : SocketAddr
  maxConnections : Nat
  maxConcurrentBroadcasts : ConcurrentBroadcastLimit
  maxPendingRequests : PendingRequestLimit
  maxFrameBytes : Nat
  connectTimeout : Nat
  relayTimeout : Nat

/-- An early return with a configuration error when the condition is met. -/
def reject (condition : Bool) (message : String) : Except ConfigError Unit :=
  if condition then .error ⟨message⟩ else .ok ()

def validateNamed (label : String) (endpoint : Endpoint) : Except ConfigError Unit :=
  match endpoint.validate with
  | .ok () => .ok ()
  | .error error => .error ⟨label ++ error.message⟩

def validateRelayEndpoint : Option Endpoint → Except ConfigError Unit
  | some relayEndpoint => validateNamed "invalid private relay endpoint: " relayEndpoint
  | none => .ok ()

/-- Every permitted broadcast at once, each with the largest permitted frame,
has to fit the fixed payload budget. -/
def checkBroadcastBudget (cli : Cli) : Except ConfigError Unit :=
  match checkedUsize (cli.maxConcurrentBroadcasts * cli.maxFrameBytes) with
  | none => .error ⟨"broadcast payload budget overflowed"⟩
  | some maximumInFlightBroadcastBytes =>
    reject (maxConfigurableInFlightBroadcastBytes < maximumInFlightBroadcastBytes)
      ("max concurrent broadcasts multiplied by max frame bytes must not exceed " ++
        toString maxConfigurableInFlightBroadcastBytes)

def checkRelayMode (cli : Cli) : Except ConfigError Unit :=
  if cli.relayMode ≠ .socksElectrum then .ok ()
  else match cli.relayEndpoint with
  | none => .error ⟨"socks-electrum mode requires --relay-endpoint"⟩
  | some relayEndpoint => do
    reject (relayEndpoint.sameTarget cli.upstream)
      "private relay endpoint must differ from the query upstream"
    reject (relayEndpoint.couldTargetListener cli.listen)
      "private relay endpoint must not target the client listener"
    reject ((Endpoint.mk cli.socks5Proxy.ip.toText cli.socks5Proxy.port).couldTargetListener cli.listen)
      "SOCKS5 proxy must not target the client listener"

def Config.tryFrom (cli : Cli) : Except ConfigError Config := do
  reject (cli.listen.port = 0) "listener port must be non-zero"
  reject (!cli.listen.ip.isLoopback && !cli.allowNonLoopbackListen)
    "refusing a non-loopback listener without --allow-non-loopback-listen"
  validateNamed "invalid query upstream: " cli.upstream
  reject (cli.upstream.couldTargetListener cli.listen) "query upstream must not target the client listener"
  reject (cli.socks5Proxy.port = 0) "SOCKS5 proxy port must be non-zero"
  validateRelayEndpoint cli.relayEndpoint
  reject (!(1 ≤ cli.maxConnections && cli.maxConnections ≤ maxConfigurableConnections))
    ("max connections must be between 1 and " ++ toString maxConfigurableConnections)
  let maxConcurrentBroadcasts ← ConcurrentBroadcastLimit.tryFrom cli.maxConcurrentBroadcasts
  let maxPendingRequests ← PendingRequestLimit.tryFrom cli.maxPendingRequests
  reject (!(1024 ≤ cli.maxFrameBytes && cli.maxFrameBytes ≤ maxConfigurableFrameBytes))
    ("max frame bytes must be between 1024 and " ++ toString maxConfigurableFrameBytes)
  checkBroadcastBudget cli
  reject (cli.connectTimeoutSeconds = 0 || cli.relayTimeoutSeconds = 0) "timeouts must be greater than zero"
  checkRelayMode cli
  return {
    listen := cli.listen
    upstream := cli.upstream
    relayMode := cli.relayMode
    relayEndpoint := cli.relayEndpoint
    socks5Proxy := cli.socks5Proxy
    maxConnections := cli.maxConnections
    maxConcurrentBroadcasts := maxConcurrentBroadcasts
    maxPendingRequests := maxPendingRequests
    maxFrameBytes := cli.maxFrameBytes
    connectTimeout := cli.connectTimeoutSeconds
    relayTimeout := cli.relayTimeoutSeconds }

def Config.default : Config where
  listen := Cli.default.listen
  upstream := Cli.default.upstream
  relayMode := Cli.default.relayMode
  relayEndpoint := Cli.default.relayEndpoint
  socks5Proxy := Cli.default.socks5Proxy
  maxConnections := defaultMaxConnections
  maxConcurrentBroadcasts := ⟨defaultMaxConcurrentBroadcasts, by decide, by decide⟩
  maxPendingRequests := ⟨defaultMaxPendingRequests, by decide, by decide⟩
  maxFrameBytes := defaultMaxFrameBytes
  connectTimeout := Cli.default.connectTimeoutSeconds
  relayTimeout := Cli.default.relayTimeoutSeconds

theorem Config.tryFrom_default : Config.tryFrom Cli.default = .ok Config.default := rfl

theorem bind_eq_ok {Error Value Result : Type} {first : Except Error Value}
    {next : Value → Except Error Result} {result : Result} :
    (first >>= next) = .ok result ↔ ∃ value, first = .ok value ∧ next value = .ok result := by
  cases first with
  | error error => simp [bind, Except.bind]
  | ok value => simp [bind, Except.bind]

theorem reject_eq_ok {condition : Bool} {message : String} :
    reject condition message = .ok () ↔ condition = false := by
  cases condition <;> simp [reject]

theorem ConcurrentBroadcastLimit.tryFrom_eq_ok {value : Nat} {limit : ConcurrentBroadcastLimit}
    (accepted : tryFrom value = .ok limit) : limit.get = value := by
  unfold tryFrom at accepted
  split at accepted
  · cases accepted
    rfl
  · cases accepted

theorem checkBroadcastBudget_eq_ok {cli : Cli} (accepted : checkBroadcastBudget cli = .ok ()) :
    cli.maxConcurrentBroadcasts * cli.maxFrameBytes ≤ maxConfigurableInFlightBroadcastBytes := by
  unfold checkBroadcastBudget at accepted
  split at accepted
  · cases accepted
  · next product fits =>
    obtain ⟨_, rfl⟩ := checkedUsize_eq_some.mp fits
    simpa using reject_eq_ok.mp accepted

structure WithinBudget (config : Config) : Prop where
  frame_min : 1024 ≤ config.maxFrameBytes
  frame_max : config.maxFrameBytes ≤ maxConfigurableFrameBytes
  budget : config.maxConcurrentBroadcasts.get * config.maxFrameBytes ≤ maxConfigurableInFlightBroadcastBytes

theorem Config.tryFrom_withinBudget {cli : Cli} {config : Config}
    (accepted : Config.tryFrom cli = .ok config) : WithinBudget config := by
  simp only [tryFrom, bind_eq_ok] at accepted
  -- Of the checks in their order only three matter here: the broadcast limit,
  -- the frame limit and their product.
  obtain ⟨_, _, _, _, _, _, _, _, _, _, _, _, _, _, limit, limited, rest⟩ := accepted
  obtain ⟨_, _, _, frame, _, budget, rest⟩ := rest
  obtain ⟨_, _, _, _, built⟩ := rest
  cases built
  have range := reject_eq_ok.mp frame
  simp only [Bool.not_eq_false', Bool.and_eq_true, decide_eq_true_eq] at range
  refine ⟨range.1, range.2, ?_⟩
  rw [ConcurrentBroadcastLimit.tryFrom_eq_ok limited]
  exact checkBroadcastBudget_eq_ok budget

structure Separated (cli : Cli) : Prop where
  upstream : cli.upstream.couldTargetListener cli.listen = false
  relay : cli.relayMode = .socksElectrum → ∀ relay, cli.relayEndpoint = some relay →
    relay.sameTarget cli.upstream = false ∧ relay.couldTargetListener cli.listen = false

theorem checkRelayMode_eq_ok {cli : Cli} (accepted : checkRelayMode cli = .ok ())
    (mode : cli.relayMode = .socksElectrum) {relay : Endpoint} (configured : cli.relayEndpoint = some relay) :
    relay.sameTarget cli.upstream = false ∧ relay.couldTargetListener cli.listen = false := by
  simp only [checkRelayMode, mode, configured, ne_eq, not_true_eq_false, if_false, bind_eq_ok] at accepted
  obtain ⟨_, distinct, _, separate, _⟩ := accepted
  exact ⟨reject_eq_ok.mp distinct, reject_eq_ok.mp separate⟩

theorem Config.tryFrom_separated {cli : Cli} {config : Config}
    (accepted : Config.tryFrom cli = .ok config) : Separated cli := by
  simp only [tryFrom, bind_eq_ok] at accepted
  obtain ⟨_, _, _, _, _, _, _, upstream, _, _, _, _, _, _, rest⟩ := accepted
  obtain ⟨_, _, _, _, _, _, _, _, _, _, _, mode, _⟩ := rest
  exact ⟨reject_eq_ok.mp upstream, fun socks _ configured => checkRelayMode_eq_ok mode socks configured⟩

end ElectrumPrivateRelay.Configuration

import ElectrumPrivateRelay.Configuration.Config
import Mathlib.Tactic.ByContra

/-! What the textual alias checks of an accepted command line exclude.

Two predicates compare targets: one for the pair of Electrum endpoints, one for
an endpoint and a listener. Both look at a host as `localhost`, as an address,
or as some other name, but only the second counts an unspecified address as a
way to reach a loopback service.
-/

set_option autoImplicit false

namespace ElectrumPrivateRelay.Configuration
open Net

def isLocal (ip : IpAddr) : Bool := ip.isLoopback || ip.isUnspecified

inductive Target where
  | localhost
  | address (ip : IpAddr)
  | name

def Endpoint.target (endpoint : Endpoint) : Target :=
  if eqIgnoreAsciiCase endpoint.normalizedHost "localhost" then .localhost
  else match IpAddr.parse endpoint.normalizedHost with
    | some ip => .address ip
    | none => .name

/-- Whether a service on this host is reached through loopback. -/
def Target.isLocal : Target → Bool
  | .localhost => true
  | .address ip => Configuration.isLocal ip
  | .name => false

def Target.isUnspecified : Target → Bool
  | .address ip => ip.isUnspecified
  | .localhost | .name => false

theorem toLower_eq_l {char : Char} (same : char.toLower = 'l') : char = 'l' ∨ char = 'L' := by
  unfold Char.toLower at same
  split at same
  · next upper =>
    have bound : char.val.toNat ≤ 90 := UInt32.le_iff_toNat_le.mp upper.2
    have shifted : (char.val + ('a'.val - 'A'.val)).toNat = 108 :=
      congrArg Char.toNat same
    rw [UInt32.toNat_add] at shifted
    have offset : ('a'.val - 'A'.val).toNat = 32 := rfl
    have letter : char.toNat = 'L'.toNat := by
      change char.val.toNat = 76
      omega
    exact .inr (Char.toNat_inj.mp letter)
  · exact .inl same

theorem parse_localhost {text : String} (named : eqIgnoreAsciiCase text "localhost" = true) :
    IpAddr.parse text = none := by
  simp only [eqIgnoreAsciiCase, decide_eq_true_eq] at named
  unfold IpAddr.parse
  cases letters : text.toList with
  | nil => simp [letters] at named
  | cons first rest =>
    have split : "localhost".toList = 'l' :: "ocalhost".toList := rfl
    rw [letters, split, List.map_cons, List.map_cons, List.cons.injEq] at named
    rcases toLower_eq_l named.1 with rfl | rfl
    · rw [readIpAddr_first rfl rfl (by decide)]
    · rw [readIpAddr_first rfl rfl (by decide)]

inductive Endpoint.Reading (endpoint : Endpoint) : Target → Prop where
  | localhost (named : eqIgnoreAsciiCase endpoint.normalizedHost "localhost" = true)
      (unread : IpAddr.parse endpoint.normalizedHost = none) : Reading endpoint .localhost
  | address {ip : IpAddr} (other : eqIgnoreAsciiCase endpoint.normalizedHost "localhost" = false)
      (read : IpAddr.parse endpoint.normalizedHost = some ip) : Reading endpoint (.address ip)
  | name (other : eqIgnoreAsciiCase endpoint.normalizedHost "localhost" = false)
      (unread : IpAddr.parse endpoint.normalizedHost = none) : Reading endpoint .name

theorem Endpoint.reading (endpoint : Endpoint) : endpoint.Reading endpoint.target := by
  unfold Endpoint.target
  split
  · next named => exact .localhost named (parse_localhost named)
  · next other =>
    split
    · next ip read => exact .address (Bool.eq_false_iff.mpr other) read
    · next unread => exact .name (Bool.eq_false_iff.mpr other) unread

theorem couldTargetListener_iff {endpoint : Endpoint} {listener : SocketAddr} :
    endpoint.couldTargetListener listener = true ↔ endpoint.port = listener.port ∧
      ((endpoint.target.isLocal = true ∧ isLocal listener.ip = true) ∨
        endpoint.target = .address listener.ip) := by
  unfold Endpoint.couldTargetListener
  by_cases port : endpoint.port = listener.port
  · have read := endpoint.reading
    generalize endpoint.target = target at read
    cases read with
    | localhost named _ => simp [port, named, Target.isLocal, isLocal]
    | name other unread => simp [port, other, unread, Target.isLocal]
    | @address ip other read =>
      simp only [port, other, read, Target.isLocal, isLocal, Target.address.injEq]
      grind
  · simp [port]

theorem eqIgnoreAsciiCase_of_common {left right named : String}
    (leftIs : eqIgnoreAsciiCase left named = true) (rightIs : eqIgnoreAsciiCase right named = true) :
    eqIgnoreAsciiCase left right = true := by
  simp only [eqIgnoreAsciiCase, decide_eq_true_eq] at *
  exact leftIs.trans rightIs.symm

theorem isLoopback_of_isLocal {ip : IpAddr} (near : isLocal ip = true)
    (specified : ip.isUnspecified = false) : ip.isLoopback = true := by
  simpa [isLocal, specified] using near

theorem sameTarget_of_loopback {left right : Endpoint} (port : left.port = right.port)
    (leftLocal : left.target.isLocal = true) (rightLocal : right.target.isLocal = true)
    (leftSpecified : left.target.isUnspecified = false)
    (rightSpecified : right.target.isUnspecified = false) : left.sameTarget right = true := by
  have leftRead := left.reading
  have rightRead := right.reading
  generalize left.target = leftTarget at *
  generalize right.target = rightTarget at *
  unfold Endpoint.sameTarget
  cases leftRead with
  | name => cases leftLocal
  | localhost leftNamed leftUnread =>
    cases rightRead with
    | name => cases rightLocal
    | localhost rightNamed rightUnread =>
      simp [port, leftUnread, rightUnread, eqIgnoreAsciiCase_of_common leftNamed rightNamed]
    | address _ rightIs =>
      simp [port, leftUnread, rightIs, leftNamed, isLoopback_of_isLocal rightLocal rightSpecified]
  | address _ leftIs =>
    have leftLoopback := isLoopback_of_isLocal leftLocal leftSpecified
    cases rightRead with
    | name => cases rightLocal
    | localhost rightNamed rightUnread => simp [port, leftIs, rightUnread, rightNamed, leftLoopback]
    | address _ rightIs =>
      simp [port, leftIs, rightIs, leftLoopback, isLoopback_of_isLocal rightLocal rightSpecified]

theorem sameTarget_of_address {left right : Endpoint} {ip : IpAddr} (port : left.port = right.port)
    (leftIs : left.target = .address ip) (rightIs : right.target = .address ip) :
    left.sameTarget right = true := by
  have leftRead := leftIs ▸ left.reading
  have rightRead := rightIs ▸ right.reading
  cases leftRead with
  | address _ leftParsed =>
    cases rightRead with
    | address _ rightParsed => simp [Endpoint.sameTarget, port, leftParsed, rightParsed]

/-- One port, two hosts that are reached through loopback, and one of them only
because it is the unspecified address. -/
def SharesUnspecified (upstream relay : Endpoint) : Prop :=
  upstream.port = relay.port ∧ upstream.target.isLocal = true ∧ relay.target.isLocal = true ∧
    (upstream.target.isUnspecified = true ∨ relay.target.isUnspecified = true)

def SharesService (upstream relay : Endpoint) : Prop :=
  ∃ listener, upstream.couldTargetListener listener = true ∧ relay.couldTargetListener listener = true

theorem SharesUnspecified.service {upstream relay : Endpoint} (shares : SharesUnspecified upstream relay) :
    SharesService upstream relay := by
  obtain ⟨port, upstreamLocal, relayLocal, -⟩ := shares
  have near : isLocal (.v4 ⟨127, 0, 0, 1⟩) = true := rfl
  refine ⟨⟨.v4 ⟨127, 0, 0, 1⟩, relay.port⟩, ?_, ?_⟩
  · exact couldTargetListener_iff.mpr ⟨port, .inl ⟨upstreamLocal, near⟩⟩
  · exact couldTargetListener_iff.mpr ⟨rfl, .inl ⟨relayLocal, near⟩⟩

theorem SharesService.unspecified {upstream relay : Endpoint} (shares : SharesService upstream relay)
    (distinct : relay.sameTarget upstream = false) : SharesUnspecified upstream relay := by
  obtain ⟨listener, first, second⟩ := shares
  obtain ⟨upstreamPort, upstreamReach⟩ := couldTargetListener_iff.mp first
  obtain ⟨relayPort, relayReach⟩ := couldTargetListener_iff.mp second
  have port : relay.port = upstream.port := relayPort.trans upstreamPort.symm
  by_cases near : isLocal listener.ip = true
  · -- A local listener is reached by local targets only.
    have upstreamLocal : upstream.target.isLocal = true := by
      rcases upstreamReach with ⟨reached, -⟩ | same
      · exact reached
      · rw [same]
        exact near
    have relayLocal : relay.target.isLocal = true := by
      rcases relayReach with ⟨reached, -⟩ | same
      · exact reached
      · rw [same]
        exact near
    refine ⟨port.symm, upstreamLocal, relayLocal, ?_⟩
    by_contra specified
    simp only [not_or, Bool.not_eq_true] at specified
    rw [sameTarget_of_loopback port relayLocal upstreamLocal specified.2 specified.1] at distinct
    cases distinct
  · -- Any other listener is reached by its own address only.
    have upstreamIs : upstream.target = .address listener.ip := by
      rcases upstreamReach with ⟨-, reached⟩ | same
      · exact absurd reached near
      · exact same
    have relayIs : relay.target = .address listener.ip := by
      rcases relayReach with ⟨-, reached⟩ | same
      · exact absurd reached near
      · exact same
    rw [sameTarget_of_address port relayIs upstreamIs] at distinct
    cases distinct

/-- The query upstream and the private relay are kept apart exactly when no
unspecified address is one of them. -/
theorem relay_separated_iff (cli : Cli) (config : Config) (relay : Endpoint)
    (accepted : Config.tryFrom cli = .ok config) (mode : cli.relayMode = .socksElectrum)
    (configured : cli.relayEndpoint = some relay) :
    ¬ SharesService cli.upstream relay ↔ ¬ SharesUnspecified cli.upstream relay := by
  have distinct := ((Config.tryFrom_separated accepted).relay mode relay configured).1
  constructor
  · intro separate shares
    exact separate shares.service
  · intro plain shares
    exact plain (shares.unspecified distinct)

def socksCli (upstream relay : Endpoint) : Cli :=
  { Cli.default with upstream, relayMode := .socksElectrum, relayEndpoint := some relay }

theorem relay_separated_from_onion :
    (∃ config, Config.tryFrom (socksCli ⟨"127.0.0.1", 50001⟩ ⟨"examplehiddenservice.onion", 50001⟩) =
        .ok config) ∧
      ¬ SharesService ⟨"127.0.0.1", 50001⟩ ⟨"examplehiddenservice.onion", 50001⟩ := by
  refine ⟨⟨_, rfl⟩, ?_⟩
  have plain : ¬ SharesUnspecified ⟨"127.0.0.1", 50001⟩ ⟨"examplehiddenservice.onion", 50001⟩ := by
    rintro ⟨-, -, relayLocal, -⟩
    cases relayLocal
  exact (relay_separated_iff (socksCli ⟨"127.0.0.1", 50001⟩ ⟨"examplehiddenservice.onion", 50001⟩) _ _
    rfl rfl rfl).mpr plain

theorem unspecified_upstream_shares_relay :
    (∃ config, Config.tryFrom (socksCli ⟨"0.0.0.0", 50001⟩ ⟨"127.0.0.1", 50001⟩) = .ok config) ∧
      SharesService ⟨"0.0.0.0", 50001⟩ ⟨"127.0.0.1", 50001⟩ := by
  refine ⟨⟨_, rfl⟩, ⟨.v4 ⟨127, 0, 0, 1⟩, 50001⟩, ?_, ?_⟩
  · rfl
  · rfl

/-- `localhost` in any case, or an address text, with or without a root dot. -/
def LiteralSpelling (host : String) : Prop :=
  ∃ text, (host = text ∨ host = text ++ ".") ∧
    (eqIgnoreAsciiCase text "localhost" = true ∨
      ∃ ip, IpAddr.parse text = some ip ∧ isLocal ip = true)

theorem dropDots_undotted {text : List Char} (undotted : text.getLast? ≠ some '.') :
    (text.reverse.dropWhile (· = '.')).reverse = text := by
  rw [← List.head?_reverse] at undotted
  cases letters : text.reverse with
  | nil => simpa using letters.symm
  | cons last front =>
    have kept : last ≠ '.' := by
      rintro rfl
      rw [letters] at undotted
      exact undotted rfl
    rw [List.dropWhile_cons_of_neg (by simpa using kept), ← letters, List.reverse_reverse]

theorem normalizedHost_undotted {endpoint : Endpoint} {text : String}
    (undotted : text.toList.getLast? ≠ some '.')
    (spelled : endpoint.host = text ∨ endpoint.host = text ++ ".") : endpoint.normalizedHost = text := by
  have trimmed : (endpoint.host.toList.reverse.dropWhile (· = '.')).reverse = text.toList := by
    rcases spelled with same | dotted
    · rw [same]
      exact dropDots_undotted undotted
    · have root : (text ++ ".").toList.reverse = '.' :: text.toList.reverse := by simp
      rw [dotted, root, List.dropWhile_cons_of_pos (by simp)]
      exact dropDots_undotted undotted
  rw [Endpoint.normalizedHost, trimmed, String.ofList_toList]

theorem localhost_undotted {text : String} (named : eqIgnoreAsciiCase text "localhost" = true) :
    text.toList.getLast? ≠ some '.' := by
  simp only [eqIgnoreAsciiCase, decide_eq_true_eq] at named
  intro dotted
  have last := congrArg List.getLast? named
  rw [List.getLast?_map, dotted] at last
  cases last

theorem LiteralSpelling.isLocal {endpoint : Endpoint} (spelling : LiteralSpelling endpoint.host) :
    endpoint.target.isLocal = true := by
  obtain ⟨text, spelled, reads⟩ := spelling
  unfold Endpoint.target
  rcases reads with named | ⟨ip, parsed, near⟩
  · rw [normalizedHost_undotted (localhost_undotted named) spelled, if_pos named]
    rfl
  · rw [normalizedHost_undotted (IpAddr.parse_undotted parsed) spelled]
    split
    · rfl
    · rw [parsed]
      exact near

/-- A loopback or wildcard listener is not spelled out as the query upstream. -/
theorem literal_loop_rejected (cli : Cli) (config : Config) (accepted : Config.tryFrom cli = .ok config)
    (near : isLocal cli.listen.ip = true) (port : cli.upstream.port = cli.listen.port) :
    ¬ LiteralSpelling cli.upstream.host := by
  intro spelling
  have could : cli.upstream.couldTargetListener cli.listen = true :=
    couldTargetListener_iff.mpr ⟨port, .inl ⟨spelling.isLocal, near⟩⟩
  rw [(Config.tryFrom_separated accepted).upstream] at could
  cases could

theorem literal_loop_rejected_for_name :
    ¬ LiteralSpelling "electrs.example" :=
  literal_loop_rejected { Cli.default with upstream := ⟨"electrs.example", 50003⟩ } _ rfl rfl rfl

/-- The IPv4 address that an IPv4-mapped IPv6 address stands for. -/
def mapped : IpAddr → Option Ipv4Addr
  | .v4 _ => none
  | .v6 address =>
    match address.segments with
    | [0, 0, 0, 0, 0, 0xFFFF, high, low] =>
      some ⟨(high / 256).toUInt8, high.toUInt8, (low / 256).toUInt8, low.toUInt8⟩
    | _ => none

/-- A number as the system resolver reads it: octal after a leading zero. -/
def numericLabel (label : List Char) : Option Nat :=
  let radix := if label.head? = some '0' then 8 else 10
  match Net.readDigits radix label with
  | ([], _) => none
  | (digits, []) => some (digits.foldl (fun value digit => value * radix + digit) 0)
  | _ => none

/-- One to four numbers, the last of which fills what is left of the address. -/
def numericAddress (host : String) : Option Ipv4Addr := do
  let value ← match ← (splitOn '.' host.toList).mapM numericLabel with
    | [a] => if a < 0x100000000 then some a else none
    | [a, b] => if a < 0x100 ∧ b < 0x1000000 then some (a * 0x1000000 + b) else none
    | [a, b, c] => if a < 0x100 ∧ b < 0x100 ∧ c < 0x10000 then some (a * 0x1000000 + b * 0x10000 + c) else none
    | [a, b, c, d] =>
      if a < 0x100 ∧ b < 0x100 ∧ c < 0x100 ∧ d < 0x100 then
        some (a * 0x1000000 + b * 0x10000 + c * 0x100 + d)
      else none
    | _ => none
  return ⟨.ofNat (value / 0x1000000), .ofNat (value / 0x10000), .ofNat (value / 0x100), .ofNat value⟩

theorem mapped_and_numeric_loops_accepted :
    (∃ config ip quad,
      Config.tryFrom { Cli.default with upstream := ⟨"::ffff:127.0.0.1", 50003⟩ } = .ok config ∧
        config.listen = ⟨.v4 ⟨127, 0, 0, 1⟩, 50003⟩ ∧ IpAddr.parse "::ffff:127.0.0.1" = some ip ∧
        mapped ip = some quad ∧ isLocal (.v4 quad) = true) ∧
    ∃ config quad, Config.tryFrom { Cli.default with upstream := ⟨"127.1", 50003⟩ } = .ok config ∧
      config.listen = ⟨.v4 ⟨127, 0, 0, 1⟩, 50003⟩ ∧ numericAddress "127.1" = some quad ∧
      isLocal (.v4 quad) = true := by
  refine ⟨⟨_, _, _, rfl, rfl, rfl, rfl, rfl⟩, ⟨_, _, rfl, rfl, rfl, rfl⟩⟩

end ElectrumPrivateRelay.Configuration

import ElectrumPrivateRelay.Configuration.Config
import ElectrumPrivateRelay.Relay.SocksElectrum

/-! The relay timeout and the deadline of the shutdown.

The adapter starts its timeout anew for the connection, for the write and for
the read. The server derives the time that it waits for admitted calls from
one such timeout. Durations are in nanoseconds.
-/

set_option autoImplicit false

namespace ElectrumPrivateRelay.Relay
open ElectrumPrivateRelay.Configuration Json

/-- `tokio::time::timeout` around a step that takes `time` and may fail: what it
yields and when. Its own error and the error of the step are treated alike. -/
def timeout {α : Type} (limit time : Nat) (result : Option α) : Option α × Nat :=
  if time ≤ limit then (result, time) else (none, limit)

structure Conduct where
  connection : Option Unit
  connectTime : Nat
  write : Option Unit
  accepted : Nat
  writeTime : Nat
  response : ResponseStream
  readTime : Nat

namespace SocksElectrumRelay

variable (json : SerdeJson)

def timedBroadcast (limit : Nat) (conduct : Conduct) (rawTransaction : String) : Submission × Nat :=
  match timeout limit conduct.connectTime conduct.connection with
  | (none, time) => (broadcast json .unconnected rawTransaction, time)
  | (some (), connected) =>
    match timeout limit conduct.writeTime conduct.write with
    | (none, time) => (broadcast json (.unwritten conduct.accepted) rawTransaction, connected + time)
    | (some (), written) =>
      match timeout limit conduct.readTime (some conduct.response) with
      -- a read that is cut short has met neither a newline nor the end
      | (none, time) => (broadcast json (.answered ⟨[], .silent⟩) rawTransaction, connected + written + time)
      | (some response, time) => (broadcast json (.answered response) rawTransaction, connected + written + time)

end SocksElectrumRelay

def second : Nat := 1000000000

def connectionResponseFlushGrace : Nat := second

def maxDuration : Nat := (UInt64.size - 1) * second + (second - 1)

/-- `relay_timeout.saturating_add(CONNECTION_RESPONSE_FLUSH_GRACE)`. -/
def maximumWait (limit : Nat) : Nat := min (limit + connectionResponseFlushGrace) maxDuration

/-- A call that was admitted at some time is cut off when it would end after the
deadline of a shutdown. -/
def CutOff (limit admitted shutdown time : Nat) : Prop := shutdown + maximumWait limit < admitted + time

section
variable (json : SerdeJson) (limit : Nat)

def Conduct.total (conduct : Conduct) : Nat := conduct.connectTime + conduct.writeTime + conduct.readTime

def BoundsCall : Prop :=
  ∀ conduct rawTransaction transactionId,
    (SocksElectrumRelay.timedBroadcast json limit conduct rawTransaction).1.outcome = .ok transactionId →
      conduct.total ≤ limit

/-- The call that was admitted before a shutdown and returns a transaction ID
does so while the server waits. -/
def FitsDrain : Prop :=
  ∀ conduct rawTransaction transactionId admitted shutdown, admitted ≤ shutdown →
    (SocksElectrumRelay.timedBroadcast json limit conduct rawTransaction).1.outcome = .ok transactionId →
      admitted + (SocksElectrumRelay.timedBroadcast json limit conduct rawTransaction).2 - shutdown ≤
          maximumWait limit ∧
        ¬ CutOff limit admitted shutdown
          (SocksElectrumRelay.timedBroadcast json limit conduct rawTransaction).2

end

theorem timeout_eq_some {α : Type} {limit time : Nat} {result : Option α} {value : α} {elapsed : Nat} :
    timeout limit time result = (some value, elapsed) ↔ time ≤ limit ∧ result = some value ∧ time = elapsed := by
  unfold timeout
  split
  · next within => simp [within]
  · next late => simp [late]

theorem timeout_within {α : Type} {limit time : Nat} (within : time ≤ limit) (result : Option α) :
    timeout limit time result = (result, time) := if_pos within

namespace SocksElectrumRelay

variable {json : SerdeJson} {limit : Nat}

theorem timedBroadcast_eq_ok {conduct : Conduct} {rawTransaction transactionId : String}
    (success : (timedBroadcast json limit conduct rawTransaction).1.outcome = .ok transactionId) :
    conduct.connectTime ≤ limit ∧ conduct.writeTime ≤ limit ∧ conduct.readTime ≤ limit ∧
      (timedBroadcast json limit conduct rawTransaction).2 = conduct.total := by
  unfold timedBroadcast at success ⊢
  split at success
  · cases success
  · next connected found =>
    obtain ⟨connectWithin, -, rfl⟩ := timeout_eq_some.mp found
    split at success
    · cases success
    · next written found =>
      obtain ⟨writeWithin, -, rfl⟩ := timeout_eq_some.mp found
      split at success
      · cases success
      · next response time found =>
        obtain ⟨readWithin, -, rfl⟩ := timeout_eq_some.mp found
        exact ⟨connectWithin, writeWithin, readWithin, rfl⟩

def successful (connectTime writeTime readTime : Nat) : Conduct where
  connection := some ()
  connectTime := connectTime
  write := some ()
  accepted := 0
  writeTime := writeTime
  response := ⟨objectReport.line, .closed⟩
  readTime := readTime

theorem timedBroadcast_successful (reads : json.ReadsJson) (holds : json.HoldsStrings)
    {connectTime writeTime readTime : Nat} (connect : connectTime ≤ limit) (write : writeTime ≤ limit)
    (read : readTime ≤ limit) (rawTransaction : String) :
    (timedBroadcast json limit (successful connectTime writeTime readTime) rawTransaction).1.outcome =
        .ok (toAsciiLowercase reportedId) ∧
      (timedBroadcast json limit (successful connectTime writeTime readTime) rawTransaction).2 =
        connectTime + writeTime + readTime := by
  have reported : (broadcast json (.answered ⟨objectReport.line, .closed⟩) rawTransaction).outcome =
      .ok (toAsciiLowercase reportedId) := broadcast_contract reads holds objectReport_follows rawTransaction
  simp only [timedBroadcast, successful, timeout_within connect, timeout_within write, timeout_within read]
  exact ⟨reported, trivial⟩

end SocksElectrumRelay

open SocksElectrumRelay

section
variable {json : SerdeJson} {limit : Nat}

theorem boundsCall_iff (reads : json.ReadsJson) (holds : json.HoldsStrings) :
    BoundsCall json limit ↔ limit = 0 := by
  constructor
  · intro bounds
    have slow := timedBroadcast_successful reads holds (Nat.le_refl limit) (Nat.zero_le limit)
      (Nat.le_refl limit) "00"
    have within := bounds _ _ _ slow.1
    simp only [Conduct.total, successful] at within
    omega
  · rintro rfl conduct rawTransaction transactionId success
    obtain ⟨connect, write, read, -⟩ := timedBroadcast_eq_ok success
    simp only [Conduct.total]
    omega

theorem fitsDrain_iff (reads : json.ReadsJson) (holds : json.HoldsStrings) :
    FitsDrain json limit ↔ 2 * limit ≤ second := by
  constructor
  · intro fits
    have slow := timedBroadcast_successful reads holds (Nat.le_refl limit) (Nat.le_refl limit)
      (Nat.le_refl limit) "00"
    have covered := (fits _ _ _ 0 0 (Nat.le_refl 0) slow.1).1
    rw [slow.2] at covered
    have bound : maximumWait limit ≤ limit + second := Nat.min_le_left _ _
    omega
  · intro short conduct rawTransaction transactionId admitted shutdown before success
    obtain ⟨connect, write, read, time⟩ := timedBroadcast_eq_ok success
    have sum : conduct.total ≤ 3 * limit := by
      simp only [Conduct.total]
      omega
    have largest : maxDuration = 18446744073709551615999999999 := rfl
    have unit : second = 1000000000 := rfl
    have wait : maximumWait limit = limit + second := Nat.min_eq_left (by
      change limit + second ≤ maxDuration
      omega)
    rw [time, CutOff, wait]
    omega

end

theorem relayTimeout_positive {cli : Cli} {config : Config} (accepted : Config.tryFrom cli = .ok config) :
    0 < config.relayTimeout := by
  simp only [Config.tryFrom, bind_eq_ok] at accepted
  -- The check of the timeouts is the last but one.
  obtain ⟨_, _, _, _, _, _, _, _, _, _, _, _, _, _, _, _, rest⟩ := accepted
  obtain ⟨_, _, _, _, _, _, _, timeouts, _, _, built⟩ := rest
  cases built
  have nonzero := reject_eq_ok.mp timeouts
  simp only [Bool.or_eq_false_iff, decide_eq_false_iff_not] at nonzero
  exact Nat.pos_of_ne_zero nonzero.2

/-- The relay timeout bounds the whole call, and the call fits the drain of the
server, for no timeout that is configured. -/
theorem relay_timeout_bounds_call_iff (json : SerdeJson) (reads : json.ReadsJson) (holds : json.HoldsStrings) :
    (∀ limit, (BoundsCall json limit ∧ FitsDrain json limit) ↔ limit = 0) ∧
      ∀ cli config, Config.tryFrom cli = .ok config →
        ¬ BoundsCall json (config.relayTimeout * second) ∧ ¬ FitsDrain json (config.relayTimeout * second) := by
  have unit : second = 1000000000 := rfl
  constructor
  · intro limit
    rw [boundsCall_iff reads holds, fitsDrain_iff reads holds]
    omega
  · intro cli config accepted
    have positive := relayTimeout_positive accepted
    rw [boundsCall_iff reads holds, fitsDrain_iff reads holds, unit]
    omega

theorem relay_timeout_of_defaults :
    ¬ BoundsCall .reference (Config.default.relayTimeout * second) ∧
      ¬ FitsDrain .reference (Config.default.relayTimeout * second) :=
  (relay_timeout_bounds_call_iff .reference SerdeJson.reference_readsJson SerdeJson.reference_holdsStrings).2
    Cli.default _ Config.tryFrom_default

theorem slow_call_exceeds_timeout :
    (timedBroadcast .reference (30 * second) (successful (20 * second) 0 (20 * second)) "00").1.outcome =
        .ok (toAsciiLowercase reportedId) ∧
      ¬ (successful (20 * second) 0 (20 * second)).total ≤ 30 * second ∧
      CutOff (30 * second) 0 0
        (timedBroadcast .reference (30 * second) (successful (20 * second) 0 (20 * second)) "00").2 := by
  have call := timedBroadcast_successful SerdeJson.reference_readsJson SerdeJson.reference_holdsStrings
    (by decide : 20 * second ≤ 30 * second) (Nat.zero_le _) (by decide : 20 * second ≤ 30 * second) "00"
  refine ⟨call.1, by decide, ?_⟩
  rw [call.2, CutOff]
  decide

end ElectrumPrivateRelay.Relay

import ElectrumPrivateRelay.Configuration.Config
import ElectrumPrivateRelay.Relay.Outcome
import ElectrumPrivateRelay.Semantics.Machine
import ElectrumPrivateRelay.Semantics.Slots

/-! The process-wide admission limiter.

One call takes a request permit and then as many byte permits as its
transaction is long, and gives them back in the opposite order when the inner
call returns or its future is dropped. Acquisitions and releases of different
calls interleave freely; nothing ever waits for a permit.
-/

set_option autoImplicit false

namespace ElectrumPrivateRelay.Relay.Limited
open Semantics ElectrumPrivateRelay.Configuration

def u32Max : Nat := 2 ^ 32 - 1

inductive Refusal where
  | length
  | request
  | payload
  deriving DecidableEq, Repr

/-- Where one `LimitedRelay::broadcast` call stands. `unwinding` still holds
the request permit after the byte permits were refused. A result of `none`
marks a call whose future was dropped. -/
inductive Phase where
  | called
  | holdingRequest
  | unwinding
  | inside
  | leaving (result : Option Outcome)
  | releasing (result : Option Outcome)
  | ended (result : Option Outcome)
  | refused (reason : Refusal)
  deriving DecidableEq, Repr

/-- Permits a call has taken from and returned to the two semaphores. -/
structure Ledger where
  requestsTaken : Nat
  requestsReturned : Nat
  bytesTaken : Nat
  bytesReturned : Nat
  deriving DecidableEq, Repr

structure Call where
  rawTransaction : String
  phase : Phase
  invoked : Bool
  ledger : Ledger
  deriving DecidableEq, Repr

def Call.new (rawTransaction : String) : Call :=
  { rawTransaction, phase := .called, invoked := false, ledger := ⟨0, 0, 0, 0⟩ }

def Call.payloadPermits (call : Call) : Nat := call.rawTransaction.utf8ByteSize

structure Limiter where
  requests : Nat
  payloadBytes : Nat
  calls : List Call
  deriving DecidableEq, Repr

def Limiter.withPayloadBudget (limit : ConcurrentBroadcastLimit) (payloadBudget : Nat) : Limiter :=
  { requests := limit.get, payloadBytes := payloadBudget, calls := [] }

def Limiter.new (limit : ConcurrentBroadcastLimit) : Limiter :=
  .withPayloadBudget limit maxConfigurableInFlightBroadcastBytes

inductive Action where
  | invoke (rawTransaction : String)
  | acquireRequest (index : Nat)
  | acquirePayload (index : Nat)
  | innerReturns (index : Nat) (outcome : Outcome)
  | cancel (index : Nat)
  | releasePayload (index : Nat)
  | releaseRequest (index : Nat)
  deriving DecidableEq, Repr

def Limiter.setCall (limiter : Limiter) (index : Nat) (call : Call) : Limiter :=
  { limiter with calls := limiter.calls.set index call }

/-- `u32::try_from` of the length, then `requests.try_acquire`. -/
def Limiter.acquireRequest (limiter : Limiter) (index : Nat) (call : Call) : Option Limiter :=
  match call.phase with
  | .called =>
    if u32Max < call.payloadPermits then
      some (limiter.setCall index { call with phase := .refused .length })
    -- Nothing waits: without a free permit the call fails at once.
    else if limiter.requests = 0 then
      some (limiter.setCall index { call with phase := .refused .request })
    else some
      { limiter.setCall index
          { call with
            phase := .holdingRequest
            ledger.requestsTaken := call.ledger.requestsTaken + 1 } with
        requests := limiter.requests - 1 }
  | _ => none

/-- `payload_bytes.try_acquire_many`, then the inner call. -/
def Limiter.acquirePayload (limiter : Limiter) (index : Nat) (call : Call) : Option Limiter :=
  match call.phase with
  | .holdingRequest =>
    -- The early return still has the request permit to drop.
    if limiter.payloadBytes < call.payloadPermits then
      some (limiter.setCall index { call with phase := .unwinding })
    else some
      { limiter.setCall index
          { call with
            phase := .inside
            invoked := true
            ledger.bytesTaken := call.ledger.bytesTaken + call.payloadPermits } with
        payloadBytes := limiter.payloadBytes - call.payloadPermits }
  | _ => none

def Limiter.innerReturns (limiter : Limiter) (index : Nat) (outcome : Outcome) (call : Call) :
    Option Limiter :=
  match call.phase with
  | .inside => some (limiter.setCall index { call with phase := .leaving (some outcome) })
  | _ => none

def Limiter.cancel (limiter : Limiter) (index : Nat) (call : Call) : Option Limiter :=
  match call.phase with
  | .called => some (limiter.setCall index { call with phase := .ended none })
  | .inside => some (limiter.setCall index { call with phase := .leaving none })
  | _ => none

/-- The byte permits were taken last and are dropped first. -/
def Limiter.releasePayload (limiter : Limiter) (index : Nat) (call : Call) : Option Limiter :=
  match call.phase with
  | .leaving result => some
      { limiter.setCall index
          { call with
            phase := .releasing result
            ledger.bytesReturned := call.ledger.bytesReturned + call.payloadPermits } with
        payloadBytes := limiter.payloadBytes + call.payloadPermits }
  | _ => none

def Limiter.releaseRequest (limiter : Limiter) (index : Nat) (call : Call) : Option Limiter :=
  let released (phase : Phase) : Limiter :=
    { limiter.setCall index
        { call with phase, ledger.requestsReturned := call.ledger.requestsReturned + 1 } with
      requests := limiter.requests + 1 }
  match call.phase with
  | .unwinding => some (released (.refused .payload))
  | .releasing result => some (released (.ended result))
  | _ => none

def Limiter.step (limiter : Limiter) : Action → Option Limiter
  | .invoke rawTransaction => some { limiter with calls := limiter.calls ++ [Call.new rawTransaction] }
  | .acquireRequest index => limiter.calls[index]?.bind (limiter.acquireRequest index)
  | .acquirePayload index => limiter.calls[index]?.bind (limiter.acquirePayload index)
  | .innerReturns index outcome => limiter.calls[index]?.bind (limiter.innerReturns index outcome)
  | .cancel index => limiter.calls[index]?.bind (limiter.cancel index)
  | .releasePayload index => limiter.calls[index]?.bind (limiter.releasePayload index)
  | .releaseRequest index => limiter.calls[index]?.bind (limiter.releaseRequest index)

def machine : Machine Limiter Action := ⟨Limiter.step⟩

def Call.requestHeld (call : Call) : Nat :=
  match call.phase with
  | .holdingRequest | .unwinding | .inside | .leaving _ | .releasing _ => 1
  | .called | .ended _ | .refused _ => 0

def Call.bytesHeld (call : Call) : Nat :=
  match call.phase with
  | .inside | .leaving _ => call.payloadPermits
  | .called | .holdingRequest | .unwinding | .releasing _ | .ended _ | .refused _ => 0

def Call.insideRelay (call : Call) : Nat :=
  match call.phase with
  | .inside => 1
  | _ => 0

def Call.insideBytes (call : Call) : Nat :=
  match call.phase with
  | .inside => call.payloadPermits
  | _ => 0

def Call.active (call : Call) : Bool :=
  match call.phase with
  | .holdingRequest | .unwinding | .inside | .leaving _ | .releasing _ => true
  | .called | .ended _ | .refused _ => false

/-- The ledger of a call agrees with its phase, and only calls that obtained
both permits have invoked the inner relay. -/
structure Call.Consistent (call : Call) : Prop where
  requests : call.ledger.requestsTaken = call.ledger.requestsReturned + call.requestHeld
  bytes : call.ledger.bytesTaken = call.ledger.bytesReturned + call.bytesHeld
  uninvoked : call.phase = .called ∨ call.phase = .holdingRequest ∨ call.phase = .unwinding ∨
    (∃ reason, call.phase = .refused reason) → call.invoked = false

theorem Call.Consistent.new (rawTransaction : String) : (Call.new rawTransaction).Consistent :=
  ⟨rfl, rfl, fun _ => rfl⟩

/-- One step of one call: what the semaphores lose the call gains, the
transaction stays the same and the ledger keeps up. -/
structure Exchange (limiter next : Limiter) (index : Nat) (call changed : Call) : Prop where
  selected : limiter.calls[index]? = some call
  calls : next.calls = limiter.calls.set index changed
  requests : next.requests + changed.requestHeld = limiter.requests + call.requestHeld
  bytes : next.payloadBytes + changed.bytesHeld = limiter.payloadBytes + call.bytesHeld
  transaction : changed.rawTransaction = call.rawTransaction
  unrefused : ∀ reason, call.phase ≠ .refused reason
  consistent : call.Consistent → changed.Consistent

theorem Exchange.quiet {limiter : Limiter} {index : Nat} {call : Call} {phase : Phase}
    (selected : limiter.calls[index]? = some call)
    (requests : { call with phase }.requestHeld = call.requestHeld)
    (bytes : { call with phase }.bytesHeld = call.bytesHeld)
    (unrefused : ∀ reason, call.phase ≠ .refused reason)
    (uninvoked : call.Consistent →
      (phase = .called ∨ phase = .holdingRequest ∨ phase = .unwinding ∨ ∃ reason, phase = .refused reason) →
        call.invoked = false) :
    Exchange limiter (limiter.setCall index { call with phase }) index call { call with phase } where
  selected := selected
  calls := rfl
  requests := by rw [requests]; rfl
  bytes := by rw [bytes]; rfl
  transaction := rfl
  unrefused := unrefused
  consistent before :=
    ⟨by rw [requests]; exact before.requests, by rw [bytes]; exact before.bytes, uninvoked before⟩

theorem Limiter.acquireRequest_exchange {limiter next : Limiter} {index : Nat} {call : Call}
    (selected : limiter.calls[index]? = some call) (taken : limiter.acquireRequest index call = some next) :
    ∃ changed, Exchange limiter next index call changed := by
  unfold acquireRequest at taken
  split at taken
  · next phase =>
    have uninvoked (before : call.Consistent) : call.invoked = false := before.uninvoked (.inl phase)
    split at taken
    · cases taken
      exact ⟨_, .quiet selected (by simp [Call.requestHeld, phase]) (by simp [Call.bytesHeld, phase]) (by simp [phase])
        fun before _ => uninvoked before⟩
    · split at taken
      · cases taken
        exact ⟨_, .quiet selected (by simp [Call.requestHeld, phase]) (by simp [Call.bytesHeld, phase]) (by simp [phase])
          fun before _ => uninvoked before⟩
      · next free =>
        cases taken
        refine ⟨_, selected, rfl, ?_, ?_, rfl, by simp [phase], fun before => ⟨?_, ?_, fun _ => uninvoked before⟩⟩
        · simp only [Call.requestHeld, phase]
          omega
        · simp only [Call.bytesHeld, phase]
          rfl
        · have ledger := before.requests
          simp only [Call.requestHeld, phase] at ledger ⊢
          omega
        · simpa [Call.bytesHeld, phase] using before.bytes
  · cases taken

theorem Limiter.acquirePayload_exchange {limiter next : Limiter} {index : Nat} {call : Call}
    (selected : limiter.calls[index]? = some call) (taken : limiter.acquirePayload index call = some next) :
    ∃ changed, Exchange limiter next index call changed := by
  unfold acquirePayload at taken
  split at taken
  · next phase =>
    have uninvoked (before : call.Consistent) : call.invoked = false := before.uninvoked (.inr (.inl phase))
    split at taken
    · cases taken
      exact ⟨_, .quiet selected (by simp [Call.requestHeld, phase]) (by simp [Call.bytesHeld, phase]) (by simp [phase])
        fun before _ => uninvoked before⟩
    · next free =>
      cases taken
      refine ⟨_, selected, rfl, ?_, ?_, rfl, by simp [phase], fun before => ⟨?_, ?_, by simp⟩⟩
      · simp only [Call.requestHeld, phase]
        rfl
      · simp only [Call.bytesHeld, phase, Call.payloadPermits] at free ⊢
        omega
      · simpa [Call.requestHeld, phase] using before.requests
      · have ledger := before.bytes
        simp only [Call.bytesHeld, phase, Call.payloadPermits] at ledger ⊢
        omega
  · cases taken

theorem Limiter.innerReturns_exchange {limiter next : Limiter} {index : Nat} {outcome : Outcome}
    {call : Call} (selected : limiter.calls[index]? = some call)
    (taken : limiter.innerReturns index outcome call = some next) :
    ∃ changed, Exchange limiter next index call changed := by
  unfold innerReturns at taken
  split at taken
  · next phase =>
    cases taken
    exact ⟨_, .quiet selected (by simp [Call.requestHeld, phase]) (by simp [Call.bytesHeld, phase, Call.payloadPermits])
      (by simp [phase]) (by simp)⟩
  · cases taken

theorem Limiter.cancel_exchange {limiter next : Limiter} {index : Nat} {call : Call}
    (selected : limiter.calls[index]? = some call) (taken : limiter.cancel index call = some next) :
    ∃ changed, Exchange limiter next index call changed := by
  unfold cancel at taken
  split at taken
  · next phase =>
    cases taken
    exact ⟨_, .quiet selected (by simp [Call.requestHeld, phase]) (by simp [Call.bytesHeld, phase]) (by simp [phase]) (by simp)⟩
  · next phase =>
    cases taken
    exact ⟨_, .quiet selected (by simp [Call.requestHeld, phase]) (by simp [Call.bytesHeld, phase, Call.payloadPermits])
      (by simp [phase]) (by simp)⟩
  · cases taken

theorem Limiter.releasePayload_exchange {limiter next : Limiter} {index : Nat} {call : Call}
    (selected : limiter.calls[index]? = some call) (taken : limiter.releasePayload index call = some next) :
    ∃ changed, Exchange limiter next index call changed := by
  unfold releasePayload at taken
  split at taken
  · next result phase =>
    cases taken
    refine ⟨_, selected, rfl, ?_, ?_, rfl, by simp [phase], fun before => ⟨?_, ?_, by simp⟩⟩
    · simp only [Call.requestHeld, phase]
      rfl
    · simp only [Call.bytesHeld, phase]
      rfl
    · simpa [Call.requestHeld, phase] using before.requests
    · have ledger := before.bytes
      simp only [Call.bytesHeld, phase] at ledger ⊢
      omega
  · cases taken

theorem Limiter.releaseRequest_exchange {limiter next : Limiter} {index : Nat} {call : Call}
    (selected : limiter.calls[index]? = some call) (taken : limiter.releaseRequest index call = some next) :
    ∃ changed, Exchange limiter next index call changed := by
  unfold releaseRequest at taken
  split at taken
  · next phase =>
    cases taken
    refine ⟨_, selected, rfl, ?_, ?_, rfl, by simp [phase], fun before => ⟨?_, ?_, fun _ => ?_⟩⟩
    · simp only [Call.requestHeld, phase]
    · simp only [Call.bytesHeld, phase]
      rfl
    · have ledger := before.requests
      simp only [Call.requestHeld, phase] at ledger ⊢
      omega
    · simpa [Call.bytesHeld, phase] using before.bytes
    · exact before.uninvoked (.inr (.inr (.inl phase)))
  · next result phase =>
    cases taken
    refine ⟨_, selected, rfl, ?_, ?_, rfl, by simp [phase], fun before => ⟨?_, ?_, by simp⟩⟩
    · simp only [Call.requestHeld, phase]
    · simp only [Call.bytesHeld, phase]
      rfl
    · have ledger := before.requests
      simp only [Call.requestHeld, phase] at ledger ⊢
      omega
    · simpa [Call.bytesHeld, phase] using before.bytes
  · cases taken

theorem Limiter.step_effect {limiter next : Limiter} {action : Action}
    (taken : limiter.step action = some next) :
    (∃ rawTransaction, action = .invoke rawTransaction ∧
      next = { limiter with calls := limiter.calls ++ [Call.new rawTransaction] }) ∨
    ∃ index call changed, Exchange limiter next index call changed := by
  cases action with
  | invoke rawTransaction => exact .inl ⟨rawTransaction, rfl, (Option.some.inj taken).symm⟩
  | acquireRequest index =>
    obtain ⟨call, selected, taken⟩ := Option.bind_eq_some_iff.mp taken
    exact .inr ⟨index, call, acquireRequest_exchange selected taken⟩
  | acquirePayload index =>
    obtain ⟨call, selected, taken⟩ := Option.bind_eq_some_iff.mp taken
    exact .inr ⟨index, call, acquirePayload_exchange selected taken⟩
  | innerReturns index outcome =>
    obtain ⟨call, selected, taken⟩ := Option.bind_eq_some_iff.mp taken
    exact .inr ⟨index, call, innerReturns_exchange selected taken⟩
  | cancel index =>
    obtain ⟨call, selected, taken⟩ := Option.bind_eq_some_iff.mp taken
    exact .inr ⟨index, call, cancel_exchange selected taken⟩
  | releasePayload index =>
    obtain ⟨call, selected, taken⟩ := Option.bind_eq_some_iff.mp taken
    exact .inr ⟨index, call, releasePayload_exchange selected taken⟩
  | releaseRequest index =>
    obtain ⟨call, selected, taken⟩ := Option.bind_eq_some_iff.mp taken
    exact .inr ⟨index, call, releaseRequest_exchange selected taken⟩

structure Conserved (limit payloadBudget : Nat) (limiter : Limiter) : Prop where
  requests : limiter.requests + total Call.requestHeld limiter.calls = limit
  bytes : limiter.payloadBytes + total Call.bytesHeld limiter.calls = payloadBudget
  consistent : ∀ call ∈ limiter.calls, call.Consistent

theorem Conserved.initially (limit : ConcurrentBroadcastLimit) (payloadBudget : Nat) :
    Conserved limit.get payloadBudget (.withPayloadBudget limit payloadBudget) where
  requests := rfl
  bytes := rfl
  consistent := by simp [Limiter.withPayloadBudget]

theorem Conserved.exchange {limit payloadBudget : Nat} {limiter next : Limiter}
    (conserved : Conserved limit payloadBudget limiter) {index : Nat} {call changed : Call}
    (exchange : Exchange limiter next index call changed) : Conserved limit payloadBudget next := by
  obtain ⟨requests, bytes, consistent⟩ := conserved
  -- The table gains what the semaphore loses, for each of the two resources.
  have requestTotal := total_set Call.requestHeld exchange.selected changed
  have byteTotal := total_set Call.bytesHeld exchange.selected changed
  rw [← exchange.calls] at requestTotal byteTotal
  have requestMove := exchange.requests
  have byteMove := exchange.bytes
  refine ⟨by omega, by omega, ?_⟩
  rw [exchange.calls]
  have before := consistent call (List.mem_of_getElem? exchange.selected)
  exact forall_set index consistent (exchange.consistent before)

theorem Conserved.step {limit payloadBudget : Nat} {limiter next : Limiter} {action : Action}
    (conserved : Conserved limit payloadBudget limiter)
    (taken : machine.step limiter action = some next) : Conserved limit payloadBudget next := by
  rcases Limiter.step_effect taken with ⟨rawTransaction, _, rfl⟩ | ⟨index, call, changed, exchange⟩
  · obtain ⟨requests, bytes, consistent⟩ := conserved
    refine ⟨by simpa [Call.new, Call.requestHeld] using requests,
      by simpa [Call.new, Call.bytesHeld] using bytes, ?_⟩
    intro call member
    rcases List.mem_append.mp member with old | new
    · exact consistent call old
    · exact List.mem_singleton.mp new ▸ .new rawTransaction
  · exact conserved.exchange exchange

theorem Conserved.run {limit : ConcurrentBroadcastLimit} {payloadBudget : Nat} {limiter : Limiter}
    {schedule : List Action}
    (reached : machine.run (.withPayloadBudget limit payloadBudget) schedule = some limiter) :
    Conserved limit.get payloadBudget limiter :=
  machine.run_preserves (fun _ _ _ before taken => before.step taken)
    (.initially limit payloadBudget) reached

theorem refused_stable {limiter final : Limiter} {schedule : List Action} {index : Nat} {call : Call}
    {reason : Refusal} (selected : limiter.calls[index]? = some call)
    (refused : call.phase = .refused reason) (execution : machine.run limiter schedule = some final) :
    final.calls[index]? = some call := by
  refine machine.run_preserves (motive := fun limiter => limiter.calls[index]? = some call)
    (fun state action next before taken => ?_) selected execution
  rcases Limiter.step_effect taken with ⟨_, _, rfl⟩ | ⟨other, current, changed, exchange⟩
  · have bound := (List.getElem?_eq_some_iff.mp before).1
    rw [List.getElem?_append_left bound, before]
  -- The call that exchanges permits is not the refused one.
  · have distinct : other ≠ index := by
      rintro rfl
      have same : current = call := Option.some.inj (exchange.selected.symm.trans before)
      exact exchange.unrefused reason (same ▸ refused)
    rw [exchange.calls, List.getElem?_set_ne distinct, before]

theorem Call.insideRelay_le (call : Call) : call.insideRelay ≤ call.requestHeld := by
  unfold insideRelay requestHeld
  cases call.phase <;> simp

theorem Call.insideBytes_le (call : Call) : call.insideBytes ≤ call.bytesHeld := by
  unfold insideBytes bytesHeld
  cases call.phase <;> simp

theorem Call.inactive_holds_nothing {call : Call} (inactive : call.active = false) :
    call.requestHeld = 0 ∧ call.bytesHeld = 0 := by
  unfold active at inactive
  unfold requestHeld bytesHeld
  cases phase : call.phase <;> simp_all

/-- The admission bounds of the limiter in one state. -/
structure AdmissionBounds (limit payloadBudget : Nat) (limiter : Limiter) : Prop where
  inside_calls : total Call.insideRelay limiter.calls ≤ limit
  inside_bytes : total Call.insideBytes limiter.calls ≤ payloadBudget
  requests_conserved : limiter.requests + total Call.requestHeld limiter.calls = limit
  bytes_conserved : limiter.payloadBytes + total Call.bytesHeld limiter.calls = payloadBudget
  /-- A refused call never invoked the inner relay and returned what it took,
  and that stays so along every schedule. -/
  refused : ∀ (index : Nat) (call : Call) (reason : Refusal), limiter.calls[index]? = some call →
    call.phase = .refused reason →
      call.invoked = false ∧ call.ledger.requestsTaken = call.ledger.requestsReturned ∧
        call.ledger.bytesTaken = call.ledger.bytesReturned ∧
        ∀ (schedule : List Action) (final : Limiter), machine.run limiter schedule = some final →
          final.calls[index]? = some call
  idle : (∀ call ∈ limiter.calls, call.active = false) →
    limiter.requests = limit ∧ limiter.payloadBytes = payloadBudget

theorem limiter_admission (limit : ConcurrentBroadcastLimit) (payloadBudget : Nat)
    (schedule : List Action) (limiter : Limiter)
    (reached : machine.run (.withPayloadBudget limit payloadBudget) schedule = some limiter) :
    AdmissionBounds limit.get payloadBudget limiter := by
  have conserved := Conserved.run reached
  obtain ⟨requests, bytes, consistent⟩ := conserved
  have insideCalls := total_mono limiter.calls fun call _ => call.insideRelay_le
  have insideBytes := total_mono limiter.calls fun call _ => call.insideBytes_le
  refine ⟨by omega, by omega, requests, bytes, ?_, ?_⟩
  · intro index call reason selected refused
    have ledger := consistent call (List.mem_of_getElem? selected)
    refine ⟨ledger.uninvoked (.inr (.inr (.inr ⟨reason, refused⟩))), ?_, ?_, ?_⟩
    · simpa [Call.requestHeld, refused] using ledger.requests
    · simpa [Call.bytesHeld, refused] using ledger.bytes
    · exact fun schedule final execution => refused_stable selected refused execution
  · intro inactive
    have noRequests := total_eq_zero fun call member =>
      (Call.inactive_holds_nothing (inactive call member)).1
    have noBytes := total_eq_zero fun call member =>
      (Call.inactive_holds_nothing (inactive call member)).2
    exact ⟨by omega, by omega⟩

def overloadedSchedule : List Action :=
  [.invoke "00", .acquireRequest 0, .acquirePayload 0, .invoke "11", .acquireRequest 1,
    .acquirePayload 1, .releaseRequest 1, .cancel 0]

def overloadedLimiter : Limiter :=
  { requests := 1, payloadBytes := 0
    calls := [⟨"00", .leaving none, true, ⟨1, 0, 2, 0⟩⟩, ⟨"11", .refused .payload, false, ⟨1, 1, 0, 0⟩⟩] }

theorem limiter_admission_overloaded :
    machine.run (.withPayloadBudget ⟨2, by decide, by decide⟩ 2) overloadedSchedule =
        some overloadedLimiter ∧
      AdmissionBounds 2 2 overloadedLimiter :=
  ⟨by decide, limiter_admission ⟨2, by decide, by decide⟩ 2 overloadedSchedule overloadedLimiter (by decide)⟩

end ElectrumPrivateRelay.Relay.Limited

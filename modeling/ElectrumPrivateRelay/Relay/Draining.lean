import ElectrumPrivateRelay.Relay.Outcome
import ElectrumPrivateRelay.Semantics.Machine
import ElectrumPrivateRelay.Semantics.Slots
import ElectrumPrivateRelay.Semantics.Usize

/-! The lifecycle gate in front of the relay.

Every operation of the gate takes two separate steps: a critical section under
the mutex, and a later `send_replace` of the count computed in it. Operations
of any number of callers interleave between these steps.
-/

set_option autoImplicit false

namespace ElectrumPrivateRelay.Relay.Draining
open Semantics

/-- Where one `DrainingRelay::broadcast` call stands. A result of `none` marks
a call whose future was dropped. -/
inductive Phase where
  | called
  | admitted
  | running
  | finishing (result : Option Outcome)
  | released (result : Option Outcome)
  | ended (result : Option Outcome)
  deriving DecidableEq, Repr

structure Call where
  phase : Phase
  invoked : Bool
  deriving DecidableEq, Repr

inductive Shutdown where
  | requested
  | announced (active : Nat)
  | returned (active : Nat)
  deriving DecidableEq, Repr

inductive Waiter where
  | starting
  | waiting (seen : Nat)
  | returned (idle : Bool)
  deriving DecidableEq, Repr

inductive Publisher where
  | call (index : Nat)
  | shutdown (index : Nat)
  deriving DecidableEq, Repr

/-- `accepting` and `active` are the mutex-protected state, `watch` and
`version` the channel. `publishing` lists, in the order of their critical
sections, the operations that still hold a computed count to send. -/
structure Drain where
  accepting : Bool
  active : Nat
  watch : Nat
  version : Nat
  publishing : List (Publisher × Nat)
  calls : List Call
  shutdowns : List Shutdown
  waiters : List Waiter
  deriving DecidableEq, Repr

def Drain.new : Drain :=
  { accepting := true, active := 0, watch := 0, version := 0,
    publishing := [], calls := [], shutdowns := [], waiters := [] }

inductive Action where
  | invoke
  | enter (index : Nat)
  | innerReturns (index : Nat) (outcome : Outcome)
  | cancel (index : Nat)
  | leave (index : Nat)
  | requestShutdown
  | beginShutdown (index : Nat)
  | publish (publisher : Publisher)
  | waitForIdle
  | pollIdle (index : Nat)
  | expireIdle (index : Nat)
  deriving DecidableEq, Repr

def Drain.setCall (drain : Drain) (index : Nat) (call : Call) : Drain :=
  { drain with calls := drain.calls.set index call }

/-- The critical section of `DrainingRelay::broadcast`. -/
def Drain.enter (drain : Drain) (index : Nat) : Option Drain :=
  match drain.calls[index]? with
  | some ⟨.called, invoked⟩ =>
    -- Gate and count are read and written under one lock.
    if drain.accepting then
      match checkedUsize (drain.active + 1) with
      | some active => some
          { drain.setCall index ⟨.admitted, invoked⟩ with
            active := active
            publishing := drain.publishing ++ [(.call index, active)] }
      | none => some (drain.setCall index ⟨.ended (some (.err .failed)), invoked⟩)
    else some (drain.setCall index ⟨.ended (some (.err .failed)), invoked⟩)
  | _ => none

def Drain.innerReturns (drain : Drain) (index : Nat) (outcome : Outcome) : Option Drain :=
  match drain.calls[index]? with
  | some ⟨.running, invoked⟩ => some (drain.setCall index ⟨.finishing (some outcome), invoked⟩)
  | _ => none

def Drain.cancel (drain : Drain) (index : Nat) : Option Drain :=
  match drain.calls[index]? with
  | some ⟨.called, invoked⟩ => some (drain.setCall index ⟨.ended none, invoked⟩)
  | some ⟨.running, invoked⟩ => some (drain.setCall index ⟨.finishing none, invoked⟩)
  | _ => none

/-- The critical section of `ActiveRelayCall::drop`. -/
def Drain.leave (drain : Drain) (index : Nat) : Option Drain :=
  match drain.calls[index]? with
  | some ⟨.finishing result, invoked⟩ =>
    -- The source guards the decrement, so a count of zero would stay.
    let active := if 0 < drain.active then drain.active - 1 else drain.active
    some { drain.setCall index ⟨.released result, invoked⟩ with
      active := active
      publishing := drain.publishing ++ [(.call index, active)] }
  | _ => none

def Drain.beginShutdown (drain : Drain) (index : Nat) : Option Drain :=
  match drain.shutdowns[index]? with
  | some .requested => some
      { drain with
        accepting := false
        publishing := drain.publishing ++ [(.shutdown index, drain.active)]
        shutdowns := drain.shutdowns.set index (.announced drain.active) }
  | _ => none

/-- What an operation goes on to do once its count is sent. Entering the inner
relay needs no further step: nothing awaits between the two. -/
def Drain.resume (drain : Drain) : Publisher → Option Drain
  | .call index =>
    match drain.calls[index]? with
    | some ⟨.admitted, _⟩ => some (drain.setCall index ⟨.running, true⟩)
    | some ⟨.released result, invoked⟩ => some (drain.setCall index ⟨.ended result, invoked⟩)
    | _ => none
  | .shutdown index =>
    match drain.shutdowns[index]? with
    | some (.announced active) => some
        { drain with shutdowns := drain.shutdowns.set index (.returned active) }
    | _ => none

/-- `send_replace` of the count the operation computed in its critical section. -/
def Drain.publish (drain : Drain) (publisher : Publisher) : Option Drain :=
  match drain.publishing.find? (fun entry => entry.1 = publisher) with
  | some entry =>
    { drain with
      watch := entry.2
      version := drain.version + 1
      publishing := drain.publishing.eraseP (fun entry => entry.1 = publisher) }.resume publisher
  | none => none

/-- `borrow_and_update`, compared with zero. -/
def Drain.checkIdle (drain : Drain) : Waiter :=
  if drain.watch = 0 then .returned true else .waiting drain.version

/-- One check of `wait_for_idle`: the first is immediate, later ones need a
version of the channel not seen yet. -/
def Drain.pollIdle (drain : Drain) (index : Nat) : Option Drain :=
  match drain.waiters[index]? with
  | some .starting => some { drain with waiters := drain.waiters.set index drain.checkIdle }
  | some (.waiting seen) =>
    if seen = drain.version then none
    else some { drain with waiters := drain.waiters.set index drain.checkIdle }
  | _ => none

def Drain.expireIdle (drain : Drain) (index : Nat) : Option Drain :=
  match drain.waiters[index]? with
  | some (.waiting _) => some { drain with waiters := drain.waiters.set index (.returned false) }
  | _ => none

def Drain.step (drain : Drain) : Action → Option Drain
  | .invoke => some { drain with calls := drain.calls ++ [⟨.called, false⟩] }
  | .enter index => drain.enter index
  | .innerReturns index outcome => drain.innerReturns index outcome
  | .cancel index => drain.cancel index
  | .leave index => drain.leave index
  | .requestShutdown => some { drain with shutdowns := drain.shutdowns ++ [.requested] }
  | .beginShutdown index => drain.beginShutdown index
  | .publish publisher => drain.publish publisher
  | .waitForIdle => some { drain with waiters := drain.waiters ++ [.starting] }
  | .pollIdle index => drain.pollIdle index
  | .expireIdle index => drain.expireIdle index

def machine : Machine Drain Action := ⟨Drain.step⟩

end ElectrumPrivateRelay.Relay.Draining

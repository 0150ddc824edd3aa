import ElectrumPrivateRelay.Relay.DrainAdmission
import ElectrumPrivateRelay.Relay.Limited

/-! The relay that `run` hands to the server: the gate around the limiter
around the adapter.

A call that has passed the gate polls the limiter at once, so its only await is
inside the adapter. When its future is dropped there, the permits of the
limiter are given back before the guard of the gate is dropped.
-/

set_option autoImplicit false

namespace ElectrumPrivateRelay.Relay
open ElectrumPrivateRelay.Configuration Semantics
open Draining (Accounted Drain)
open Limited (Limiter)

/-- What a call of the limiter gives back to the gate once it holds no permit. -/
def Limited.Call.result (call : Limited.Call) : Option (Option Outcome) :=
  match call.phase with
  | .ended result => some result
  | .refused _ => some (some (.err .failed))
  | .called | .holdingRequest | .unwinding | .inside | .leaving _ | .releasing _ => none

def Limited.Call.answer (call : Limited.Call) : Option Outcome :=
  match call.phase with
  | .leaving result | .releasing result | .ended result => result
  | .called | .holdingRequest | .unwinding | .inside | .refused _ => none

structure Stack where
  drain : Drain
  limiter : Limiter
  /-- The transaction of each call of the gate. -/
  transactions : List String
  /-- The call of the gate that each call of the limiter belongs to. -/
  owners : List Nat

inductive StackAction where
  | call (rawTransaction : String)
  | gate (action : Draining.Action)
  | start (index : Nat)
  | limiter (action : Limited.Action)
  | relayReturns (submission : Nat) (outcome : Outcome)
  | abandon (submission : Nat)
  | finish (submission : Nat)
  deriving DecidableEq, Repr

/-- The steps of the gate that concern neither the limiter nor a new call. -/
def Draining.Drain.isOwnStep (drain : Drain) : Draining.Action → Bool
  | .invoke | .innerReturns _ _ => false
  | .cancel index | .publish (.call index) =>
    match drain.calls[index]? with
    | some ⟨.running, _⟩ | some ⟨.admitted, _⟩ => false
    | _ => true
  | _ => true

def Limited.isOwnStep : Limited.Action → Bool
  | .acquireRequest _ | .acquirePayload _ | .releasePayload _ | .releaseRequest _ => true
  | .invoke _ | .innerReturns _ _ | .cancel _ => false

namespace Stack

def new (limit : ConcurrentBroadcastLimit) : Stack := ⟨.new, .new limit, [], []⟩

def step (stack : Stack) : StackAction → Option Stack
  | .call rawTransaction =>
    (stack.drain.step .invoke).map fun drain =>
      { stack with drain, transactions := stack.transactions ++ [rawTransaction] }
  | .gate action =>
    if stack.drain.isOwnStep action then (stack.drain.step action).map fun drain => { stack with drain } else none
  -- the count is sent and the limiter is called without an await in between
  | .start index =>
    match stack.drain.calls[index]?, stack.transactions[index]? with
    | some ⟨.admitted, _⟩, some rawTransaction =>
      match stack.drain.step (.publish (.call index)), stack.limiter.step (.invoke rawTransaction) with
      | some drain, some limiter => some { stack with drain, limiter, owners := stack.owners ++ [index] }
      | _, _ => none
    | _, _ => none
  | .limiter action =>
    if Limited.isOwnStep action then (stack.limiter.step action).map fun limiter => { stack with limiter } else none
  | .relayReturns submission outcome =>
    (stack.limiter.step (.innerReturns submission outcome)).map fun limiter => { stack with limiter }
  | .abandon submission =>
    if (stack.limiter.calls[submission]?).any fun call => call.phase = .inside then
      (stack.limiter.step (.cancel submission)).map fun limiter => { stack with limiter }
    else none
  | .finish submission =>
    match (stack.limiter.calls[submission]?).bind Limited.Call.result, stack.owners[submission]? with
    | some (some outcome), some index =>
      (stack.drain.step (.innerReturns index outcome)).map fun drain => { stack with drain }
    | some none, some index => (stack.drain.step (.cancel index)).map fun drain => { stack with drain }
    | _, _ => none

def machine : Machine Stack StackAction := ⟨step⟩

variable {stack next : Stack}

inductive Effect (stack : Stack) : StackAction → Stack → Prop where
  | called {rawTransaction : String} :
      Effect stack (.call rawTransaction) { stack with
        drain := { stack.drain with calls := stack.drain.calls ++ [⟨.called, false⟩] }
        transactions := stack.transactions ++ [rawTransaction] }
  | gated {action : Draining.Action} {drain : Drain} (own : stack.drain.isOwnStep action = true)
      (taken : stack.drain.step action = some drain) : Effect stack (.gate action) { stack with drain }
  | started {index : Nat} {invoked : Bool} {rawTransaction : String} {drain : Drain}
      (admitted : stack.drain.calls[index]? = some ⟨.admitted, invoked⟩)
      (carried : stack.transactions[index]? = some rawTransaction)
      (taken : stack.drain.step (.publish (.call index)) = some drain) :
      Effect stack (.start index) { stack with
        drain
        limiter := { stack.limiter with calls := stack.limiter.calls ++ [.new rawTransaction] }
        owners := stack.owners ++ [index] }
  | limited {action : Limited.Action} {limiter : Limiter} (own : Limited.isOwnStep action = true)
      (taken : stack.limiter.step action = some limiter) : Effect stack (.limiter action) { stack with limiter }
  | returned {submission : Nat} {outcome : Outcome} {limiter : Limiter}
      (taken : stack.limiter.step (.innerReturns submission outcome) = some limiter) :
      Effect stack (.relayReturns submission outcome) { stack with limiter }
  | abandoned {submission : Nat} {limiter : Limiter}
      (taken : stack.limiter.step (.cancel submission) = some limiter) :
      Effect stack (.abandon submission) { stack with limiter }
  | finished {submission index : Nat} {call : Limited.Call} {outcome : Outcome} {drain : Drain}
      (selected : stack.limiter.calls[submission]? = some call) (ready : call.result = some (some outcome))
      (owned : stack.owners[submission]? = some index)
      (taken : stack.drain.step (.innerReturns index outcome) = some drain) :
      Effect stack (.finish submission) { stack with drain }
  | dropped {submission index : Nat} {call : Limited.Call} {drain : Drain}
      (selected : stack.limiter.calls[submission]? = some call) (ready : call.result = some none)
      (owned : stack.owners[submission]? = some index)
      (taken : stack.drain.step (.cancel index) = some drain) :
      Effect stack (.finish submission) { stack with drain }

theorem step_effect {action : StackAction} (taken : stack.step action = some next) : stack.Effect action next := by
  cases action with
  | call rawTransaction =>
    cases taken
    exact .called
  | gate action =>
    simp only [step] at taken
    split at taken
    · next own =>
      obtain ⟨drain, moved, rfl⟩ := Option.map_eq_some_iff.mp taken
      exact .gated own moved
    · cases taken
  | start index =>
    simp only [step] at taken
    split at taken
    · next admitted carried =>
      split at taken
      · next published invoked =>
        cases invoked
        cases taken
        exact .started admitted carried published
      · cases taken
    · cases taken
  | limiter action =>
    simp only [step] at taken
    split at taken
    · next own =>
      obtain ⟨limiter, moved, rfl⟩ := Option.map_eq_some_iff.mp taken
      exact .limited own moved
    · cases taken
  | relayReturns submission outcome =>
    obtain ⟨limiter, moved, rfl⟩ := Option.map_eq_some_iff.mp taken
    exact .returned moved
  | abandon submission =>
    simp only [step] at taken
    split at taken
    · obtain ⟨limiter, moved, rfl⟩ := Option.map_eq_some_iff.mp taken
      exact .abandoned moved
    · cases taken
  | finish submission =>
    simp only [step] at taken
    split at taken
    · next outcome index found owned =>
      obtain ⟨call, selected, ready⟩ := Option.bind_eq_some_iff.mp found
      obtain ⟨drain, moved, rfl⟩ := Option.map_eq_some_iff.mp taken
      exact .finished selected ready owned moved
    · next index found owned =>
      obtain ⟨call, selected, ready⟩ := Option.bind_eq_some_iff.mp found
      obtain ⟨drain, moved, rfl⟩ := Option.map_eq_some_iff.mp taken
      exact .dropped selected ready owned moved
    · cases taken

end Stack

/-! ## The calls of the two layers -/

theorem Limited.Limiter.step_moves {limiter next : Limiter} {action : Limited.Action}
    (other : ∀ rawTransaction, action ≠ .invoke rawTransaction) (taken : limiter.step action = some next) :
    ∃ index call changed, limiter.calls[index]? = some call ∧ next.calls = limiter.calls.set index changed ∧
      changed.rawTransaction = call.rawTransaction ∧ call.result = none ∧
      (changed.answer = call.answer ∨ ∃ outcome, action = .innerReturns index outcome ∧ changed.answer = some outcome) := by
  cases action with
  | invoke rawTransaction => exact absurd rfl (other rawTransaction)
  | acquireRequest index =>
    obtain ⟨call, selected, taken⟩ := Option.bind_eq_some_iff.mp taken
    cases phase : call.phase with
    | called =>
      simp only [Limiter.acquireRequest, phase] at taken
      split at taken
      · cases taken
        exact ⟨index, call, _, selected, rfl, rfl, by simp [Call.result, phase], .inl (by simp [Call.answer, phase])⟩
      · split at taken
        · cases taken
          exact ⟨index, call, _, selected, rfl, rfl, by simp [Call.result, phase], .inl (by simp [Call.answer, phase])⟩
        · cases taken
          exact ⟨index, call, _, selected, rfl, rfl, by simp [Call.result, phase], .inl (by simp [Call.answer, phase])⟩
    | _ => simp [Limiter.acquireRequest, phase] at taken
  | acquirePayload index =>
    obtain ⟨call, selected, taken⟩ := Option.bind_eq_some_iff.mp taken
    cases phase : call.phase with
    | holdingRequest =>
      simp only [Limiter.acquirePayload, phase] at taken
      split at taken
      · cases taken
        exact ⟨index, call, _, selected, rfl, rfl, by simp [Call.result, phase], .inl (by simp [Call.answer, phase])⟩
      · cases taken
        exact ⟨index, call, _, selected, rfl, rfl, by simp [Call.result, phase], .inl (by simp [Call.answer, phase])⟩
    | _ => simp [Limiter.acquirePayload, phase] at taken
  | innerReturns index outcome =>
    obtain ⟨call, selected, taken⟩ := Option.bind_eq_some_iff.mp taken
    cases phase : call.phase with
    | inside =>
      simp only [Limiter.innerReturns, phase] at taken
      cases taken
      exact ⟨index, call, _, selected, rfl, rfl, by simp [Call.result, phase], .inr ⟨outcome, rfl, rfl⟩⟩
    | _ => simp [Limiter.innerReturns, phase] at taken
  | cancel index =>
    obtain ⟨call, selected, taken⟩ := Option.bind_eq_some_iff.mp taken
    cases phase : call.phase with
    | called | inside =>
      simp only [Limiter.cancel, phase] at taken
      cases taken
      exact ⟨index, call, _, selected, rfl, rfl, by simp [Call.result, phase], .inl (by simp [Call.answer, phase])⟩
    | _ => simp [Limiter.cancel, phase] at taken
  | releasePayload index =>
    obtain ⟨call, selected, taken⟩ := Option.bind_eq_some_iff.mp taken
    cases phase : call.phase with
    | leaving result =>
      simp only [Limiter.releasePayload, phase] at taken
      cases taken
      exact ⟨index, call, _, selected, rfl, rfl, by simp [Call.result, phase], .inl (by simp [Call.answer, phase])⟩
    | _ => simp [Limiter.releasePayload, phase] at taken
  | releaseRequest index =>
    obtain ⟨call, selected, taken⟩ := Option.bind_eq_some_iff.mp taken
    cases phase : call.phase with
    | unwinding | releasing result =>
      simp only [Limiter.releaseRequest, phase] at taken
      cases taken
      exact ⟨index, call, _, selected, rfl, rfl, by simp [Call.result, phase], .inl (by simp [Call.answer, phase])⟩
    | _ => simp [Limiter.releaseRequest, phase] at taken

theorem Draining.Drain.ownStep_calls {drain next : Drain} {action : Draining.Action}
    (own : drain.isOwnStep action = true) (taken : drain.step action = some next) :
    next.calls.length = drain.calls.length ∧
      Advances (fun call changed => call.Moves changed ∧ call.phase ≠ .running ∧ call.phase ≠ .admitted)
        ⟨.called, false⟩ drain.calls next.calls := by
  have length : next.calls.length = drain.calls.length := by
    refine Drain.step_calls_length ?_ taken
    rintro rfl
    cases own
  refine ⟨length, ?_⟩
  cases action with
  | invoke | innerReturns _ _ => cases own
  | enter index =>
    obtain ⟨invoked, selected, ⟨-, -, rfl⟩ | ⟨-, rfl⟩⟩ := Drain.enter_cases taken
    · exact .moved selected ⟨.entered, by simp, by simp⟩
    · exact .moved selected ⟨.refuse, by simp, by simp⟩
  | cancel index =>
    obtain ⟨⟨phase, invoked⟩, changed, selected, move, -, rfl⟩ := Drain.cancel_cases taken
    simp only [Drain.isOwnStep, selected] at own
    refine .moved selected ⟨move, ?_, ?_⟩
    · rintro ⟨⟩
      cases own
    · rintro ⟨⟩
      cases own
  | leave index =>
    obtain ⟨result, invoked, selected, rfl⟩ := Drain.leave_cases taken
    exact .moved selected ⟨.release, by simp, by simp⟩
  | requestShutdown | waitForIdle =>
    cases taken
    exact .same
  | beginShutdown index =>
    obtain ⟨-, rfl⟩ := Drain.beginShutdown_cases taken
    exact .same
  | publish publisher =>
    obtain ⟨entry, -, resumed⟩ := Drain.publish_cases taken
    cases publisher with
    | shutdown index =>
      simp only [Drain.resume] at resumed
      split at resumed
      · cases resumed
        exact .same
      · cases resumed
    | call index =>
      simp only [Drain.resume] at resumed
      split at resumed
      · next selected => simp [Drain.isOwnStep, selected] at own
      · next selected =>
        cases resumed
        exact .moved selected ⟨.finalize, by simp, by simp⟩
      · cases resumed
  | pollIdle index =>
    obtain ⟨-, rfl⟩ := Drain.pollIdle_cases taken
    exact .same
  | expireIdle index =>
    obtain ⟨-, -, rfl⟩ := Drain.expireIdle_cases taken
    exact .same

def Draining.Call.isOver (call : Draining.Call) : Bool :=
  match call.phase with
  | .ended _ => true
  | .called | .admitted | .running | .finishing _ | .released _ => false

namespace Stack

variable {stack next : Stack}

theorem Effect.drain {action : StackAction} (effect : stack.Effect action next) :
    next.drain = stack.drain ∨ ∃ move, stack.drain.step move = some next.drain := by
  cases effect with
  | called => exact .inr ⟨.invoke, rfl⟩
  | gated _ taken | started _ _ taken | finished _ _ _ taken | dropped _ _ _ taken => exact .inr ⟨_, taken⟩
  | limited _ _ | returned _ | abandoned _ => exact .inl rfl

theorem step_unfinished {action : StackAction} (taken : stack.step action = some next) {call : Nat}
    {later : Draining.Call} (known : call < stack.drain.calls.length) (found : next.drain.calls[call]? = some later)
    (under : later.isOver = false) :
    ∃ before : Draining.Call, stack.drain.calls[call]? = some before ∧ before.isOver = false := by
  rcases (step_effect taken).drain with same | ⟨move, moved⟩
  · rw [same] at found
    exact ⟨later, found, under⟩
  · obtain ⟨before, selected⟩ : ∃ before, stack.drain.calls[call]? = some before :=
      ⟨_, List.getElem?_eq_getElem known⟩
    refine ⟨before, selected, ?_⟩
    cases finished : before.isOver with
    | false => rfl
    | true =>
      have final : ∀ changed, ¬ before.Moves changed := by
        intro changed move
        revert finished
        cases move <;> simp [Draining.Call.isOver]
      have stays := (Drain.step_effect moved).calls.final selected final
      rw [found] at stays
      cases stays
      exact finished.symm.trans under

theorem Effect.tables {action : StackAction} (effect : stack.Effect action next)
    (other : ∀ rawTransaction, action ≠ .call rawTransaction) :
    next.transactions = stack.transactions ∧ (next.owners = stack.owners ∨
      ∃ call invoked, stack.drain.calls[call]? = some ⟨.admitted, invoked⟩ ∧
        next.owners = stack.owners ++ [call]) := by
  cases effect with
  | called => exact absurd rfl (other _)
  | started admitted _ _ => exact ⟨rfl, .inr ⟨_, _, admitted, rfl⟩⟩
  | gated _ _ | finished _ _ _ _ | dropped _ _ _ _ | limited _ _ | returned _ | abandoned _ =>
    exact ⟨rfl, .inl rfl⟩

end Stack

theorem Stack.Effect.submission {stack next : Stack} {action : StackAction} (effect : stack.Effect action next)
    {submission : Nat} {call : Limited.Call} (selected : stack.limiter.calls[submission]? = some call) :
    ∃ later : Limited.Call, next.limiter.calls[submission]? = some later ∧
      later.rawTransaction = call.rawTransaction := by
  have moved : ∀ {move : Limited.Action} {limiter : Limiter}, (∀ rawTransaction, move ≠ .invoke rawTransaction) →
      stack.limiter.step move = some limiter → ∃ later : Limited.Call,
        limiter.calls[submission]? = some later ∧ later.rawTransaction = call.rawTransaction := by
    intro move limiter other taken
    obtain ⟨index, before, changed, found, table, same, -⟩ := Limited.Limiter.step_moves other taken
    have bound := (List.getElem?_eq_some_iff.mp found).1
    rw [table]
    by_cases own : index = submission
    · subst own
      cases found.symm.trans selected
      exact ⟨changed, List.getElem?_set_self bound, same⟩
    · exact ⟨call, by rw [List.getElem?_set_ne own, selected], rfl⟩
  cases effect with
  | called | gated _ _ | finished _ _ _ _ | dropped _ _ _ _ => exact ⟨call, selected, rfl⟩
  | started _ _ _ =>
    have bound := (List.getElem?_eq_some_iff.mp selected).1
    exact ⟨call, by rw [List.getElem?_append_left bound, selected], rfl⟩
  | limited own taken =>
    refine moved ?_ taken
    rintro rawTransaction rfl
    cases own
  | returned taken => exact moved (by rintro rawTransaction ⟨⟩) taken
  | abandoned taken => exact moved (by rintro rawTransaction ⟨⟩) taken

/-- A call of the gate while its call of the limiter goes on, and after it is over. -/
inductive Tied (gate : Draining.Call) (call : Limited.Call) : Prop where
  | running (phase : gate.phase = .running)
  | ready {result : Option Outcome} (ready : call.result = some result)
      (phase : gate.phase = .finishing result ∨ gate.phase = .released result ∨ gate.phase = .ended result)

theorem Tied.moves {gate changed : Draining.Call} {call : Limited.Call} (tied : Tied gate call)
    (move : gate.Moves changed) (waits : gate.phase ≠ .running) : Tied changed call ∧ changed.invoked = gate.invoked := by
  cases tied with
  | running phase => exact absurd phase waits
  | ready ready phase =>
    cases move with
    | entered | refuse | abandon | start | finish => rcases phase with phase | phase | phase <;> cases phase
    | release =>
      rcases phase with phase | phase | phase <;> cases phase
      exact ⟨.ready ready (.inr (.inl rfl)), rfl⟩
    | finalize =>
      rcases phase with phase | phase | phase <;> cases phase
      exact ⟨.ready ready (.inr (.inr rfl)), rfl⟩

theorem Tied.unfinished {gate : Draining.Call} {call : Limited.Call} (tied : Tied gate call)
    (going : call.result = none) : gate.phase = .running := by
  cases tied with
  | running phase => exact phase
  | ready ready _ =>
    rw [going] at ready
    cases ready

namespace Stack

variable {stack next : Stack} {past : List StackAction}

structure Belongs (stack : Stack) (index : Nat) (call : Limited.Call) : Prop where
  gate : ∃ gate, stack.drain.calls[index]? = some gate ∧ gate.invoked = true ∧ Tied gate call
  carried : stack.transactions[index]? = some call.rawTransaction

structure Linked (past : List StackAction) (stack : Stack) : Prop where
  submitted : stack.owners.length = stack.limiter.calls.length
  carried : stack.transactions.length = stack.drain.calls.length
  distinct : stack.owners.Nodup
  started : ∀ (index : Nat) (gate : Draining.Call), stack.drain.calls[index]? = some gate → gate.invoked = true →
    index ∈ stack.owners
  belongs : ∀ (submission index : Nat) (call : Limited.Call), stack.owners[submission]? = some index →
    stack.limiter.calls[submission]? = some call → stack.Belongs index call
  answered : ∀ (submission : Nat) (call : Limited.Call) (outcome : Outcome),
    stack.limiter.calls[submission]? = some call → call.answer = some outcome → .relayReturns submission outcome ∈ past

theorem Linked.new (limit : ConcurrentBroadcastLimit) : Linked [] (.new limit) where
  submitted := rfl
  carried := rfl
  distinct := List.nodup_nil
  started index gate found := by simp [Stack.new, Drain.new] at found
  belongs submission index call owned := by simp [Stack.new] at owned
  answered submission call outcome found := by simp [Stack.new, Limiter.new, Limiter.withPayloadBudget] at found

theorem Linked.gateMoves (linked : Linked past stack) {drain : Drain} (action : StackAction)
    (length : drain.calls.length = stack.drain.calls.length)
    (started : ∀ (index : Nat) (gate : Draining.Call), drain.calls[index]? = some gate → gate.invoked = true →
      ∃ before : Draining.Call, stack.drain.calls[index]? = some before ∧ before.invoked = true)
    (kept : ∀ (submission index : Nat) (gate : Draining.Call) (call : Limited.Call),
      stack.owners[submission]? = some index → stack.limiter.calls[submission]? = some call →
      stack.drain.calls[index]? = some gate → gate.invoked = true → Tied gate call →
      ∃ later : Draining.Call, drain.calls[index]? = some later ∧ later.invoked = true ∧ Tied later call) :
    Linked (past ++ [action]) { stack with drain } := by
  constructor
  · exact linked.submitted
  · exact linked.carried.trans length.symm
  · exact linked.distinct
  · intro index gate found invoked
    obtain ⟨before, earlier, same⟩ := started index gate found invoked
    exact linked.started index before earlier same
  · intro submission index call owned selected
    obtain ⟨⟨gate, found, invoked, tied⟩, carried⟩ := linked.belongs submission index call owned selected
    exact ⟨kept submission index gate call owned selected found invoked tied, carried⟩
  · intro submission call outcome selected answer
    exact List.mem_append_left _ (linked.answered submission call outcome selected answer)

theorem Linked.gated (linked : Linked past stack) {action : Draining.Action} {drain : Drain}
    (own : stack.drain.isOwnStep action = true) (taken : stack.drain.step action = some drain) :
    Linked (past ++ [.gate action]) { stack with drain } := by
  obtain ⟨length, advances⟩ := Drain.ownStep_calls own taken
  refine linked.gateMoves _ length ?_ ?_
  · intro index gate found invoked
    rcases advances.origin found with rfl | ⟨before, earlier, rfl | ⟨move, -, waits⟩⟩
    · cases invoked
    · exact ⟨_, earlier, invoked⟩
    · refine ⟨before, earlier, ?_⟩
      cases move with
      | start => exact absurd rfl waits
      | entered | refuse | abandon | finish | release | finalize => exact invoked
  · intro submission index gate call _ _ found invoked tied
    refine advances.keeps (motive := fun later => later.invoked = true ∧ Tied later call) ?_ found ⟨invoked, tied⟩
    rintro activity changed ⟨same, held⟩ ⟨move, running, -⟩
    obtain ⟨later, unchanged⟩ := held.moves move running
    exact ⟨unchanged.trans same, later⟩

theorem Linked.finishes (linked : Linked past stack) {submission index : Nat} {call : Limited.Call}
    {result : Option Outcome} {invoked : Bool} (selected : stack.limiter.calls[submission]? = some call)
    (ready : call.result = some result) (owned : stack.owners[submission]? = some index)
    (running : stack.drain.calls[index]? = some ⟨.running, invoked⟩) (action : StackAction) :
    Linked (past ++ [action])
      { stack with drain := stack.drain.setCall index ⟨.finishing result, invoked⟩ } := by
  have bound := (List.getElem?_eq_some_iff.mp running).1
  refine linked.gateMoves action List.length_set ?_ ?_
  · intro other gate found invokes
    by_cases same : index = other
    · subst same
      simp only [Drain.setCall, List.getElem?_set_self bound] at found
      cases found
      exact ⟨_, running, invokes⟩
    · simp only [Drain.setCall, List.getElem?_set_ne same] at found
      exact ⟨gate, found, invokes⟩
  · intro other position gate held owner chosen found invokes tied
    by_cases same : index = position
    · subst same
      -- No other call of the limiter has the same owner.
      obtain rfl : submission = other := by
        have first := (List.getElem?_eq_some_iff.mp owned).1
        have second := (List.getElem?_eq_some_iff.mp owner).1
        exact (List.getElem?_inj first linked.distinct).mp (owned.trans owner.symm)
      cases selected.symm.trans chosen
      cases running.symm.trans found
      exact ⟨_, List.getElem?_set_self bound, invokes, .ready ready (.inl rfl)⟩
    · exact ⟨gate, by simp only [Drain.setCall, List.getElem?_set_ne same, found], invokes, tied⟩

theorem getElem?_snoc {Entry : Type} {entries : List Entry} {last entry : Entry} {position : Nat}
    (found : (entries ++ [last])[position]? = some entry) :
    entries[position]? = some entry ∨ (position = entries.length ∧ entry = last) := by
  rcases Nat.lt_trichotomy position entries.length with below | rfl | above
  · rw [List.getElem?_append_left below] at found
    exact .inl found
  · rw [List.getElem?_concat_length] at found
    exact .inr ⟨rfl, (Option.some.inj found).symm⟩
  · rw [List.getElem?_append_right (Nat.le_of_lt above)] at found
    have inside := (List.getElem?_eq_some_iff.mp found).1
    simp only [List.length_singleton] at inside
    omega

theorem getElem?_kept {Entry : Type} {entries : List Entry} {entry : Entry} {position : Nat} (last : Entry)
    (found : entries[position]? = some entry) : (entries ++ [last])[position]? = some entry := by
  rw [List.getElem?_append_left (List.getElem?_eq_some_iff.mp found).1, found]

theorem Linked.called (linked : Linked past stack) (rawTransaction : String) :
    Linked (past ++ [.call rawTransaction]) { stack with
      drain := { stack.drain with calls := stack.drain.calls ++ [⟨.called, false⟩] }
      transactions := stack.transactions ++ [rawTransaction] } := by
  constructor
  · exact linked.submitted
  · simp [linked.carried]
  · exact linked.distinct
  · intro index gate found invoked
    rcases getElem?_snoc found with earlier | ⟨-, rfl⟩
    · exact linked.started index gate earlier invoked
    · cases invoked
  · intro submission index call owned selected
    obtain ⟨⟨gate, found, rest⟩, carried⟩ := linked.belongs submission index call owned selected
    exact ⟨⟨gate, getElem?_kept _ found, rest⟩, getElem?_kept _ carried⟩
  · intro submission call outcome selected answer
    exact List.mem_append_left _ (linked.answered submission call outcome selected answer)

theorem publish_admitted {drain next : Drain} {index : Nat} {invoked : Bool}
    (admitted : drain.calls[index]? = some ⟨.admitted, invoked⟩)
    (taken : drain.step (.publish (.call index)) = some next) :
    next.calls = drain.calls.set index ⟨.running, true⟩ := by
  obtain ⟨entry, -, resumed⟩ := Drain.publish_cases taken
  simp only [Drain.resume, admitted] at resumed
  cases resumed
  rfl

theorem Linked.starts (linked : Linked past stack) {index : Nat} {invoked : Bool} {rawTransaction : String}
    {drain : Drain} (admitted : stack.drain.calls[index]? = some ⟨.admitted, invoked⟩)
    (carried : stack.transactions[index]? = some rawTransaction)
    (taken : stack.drain.step (.publish (.call index)) = some drain) :
    Linked (past ++ [.start index]) { stack with
      drain
      limiter := { stack.limiter with calls := stack.limiter.calls ++ [.new rawTransaction] }
      owners := stack.owners ++ [index] } := by
  have calls := publish_admitted admitted taken
  have bound := (List.getElem?_eq_some_iff.mp admitted).1
  -- A call that has started is not about to start.
  have fresh : ∀ (submission : Nat), stack.owners[submission]? ≠ some index := by
    intro submission owned
    have inside : submission < stack.limiter.calls.length := by
      rw [← linked.submitted]
      exact (List.getElem?_eq_some_iff.mp owned).1
    obtain ⟨⟨gate, found, -, tied⟩, -⟩ :=
      linked.belongs submission index _ owned (List.getElem?_eq_getElem inside)
    cases found.symm.trans admitted
    cases tied with
    | running phase => cases phase
    | ready _ phase => rcases phase with phase | phase | phase <;> cases phase
  constructor
  · simp [linked.submitted]
  · simp only [calls, List.length_set]
    exact linked.carried
  · rw [List.nodup_append]
    refine ⟨linked.distinct, List.nodup_singleton index, ?_⟩
    rintro owner member other last rfl
    obtain rfl := List.mem_singleton.mp last
    obtain ⟨submission, owned⟩ := List.mem_iff_getElem?.mp member
    exact fresh submission owned
  · intro position gate found invokes
    simp only [calls] at found
    by_cases same : index = position
    · subst same
      exact List.mem_append_right _ (List.mem_singleton.mpr rfl)
    · rw [List.getElem?_set_ne same] at found
      exact List.mem_append_left _ (linked.started position gate found invokes)
  · intro submission position call owned selected
    rcases getElem?_snoc owned with earlier | ⟨rfl, rfl⟩
    · have before : stack.limiter.calls[submission]? = some call := by
        rcases getElem?_snoc selected with before | ⟨last, -⟩
        · exact before
        · have inside := (List.getElem?_eq_some_iff.mp earlier).1
          rw [last, linked.submitted] at inside
          omega
      obtain ⟨⟨gate, found, rest⟩, carries⟩ := linked.belongs submission position call earlier before
      have other : index ≠ position := by
        rintro rfl
        exact fresh submission earlier
      exact ⟨⟨gate, by simp only [calls, List.getElem?_set_ne other, found], rest⟩, carries⟩
    · rcases getElem?_snoc selected with before | ⟨-, rfl⟩
      · have inside := (List.getElem?_eq_some_iff.mp before).1
        rw [linked.submitted] at inside
        omega
      · exact ⟨⟨⟨.running, true⟩, by simp only [calls, List.getElem?_set_self bound], rfl, .running rfl⟩, carried⟩
  · intro submission call outcome selected answer
    rcases getElem?_snoc selected with before | ⟨-, rfl⟩
    · exact List.mem_append_left _ (linked.answered submission call outcome before answer)
    · cases answer

theorem Linked.limiterMoves (linked : Linked past stack) {move : Limited.Action} {action : StackAction}
    {limiter : Limiter} (other : ∀ rawTransaction, move ≠ .invoke rawTransaction)
    (returns : ∀ submission outcome, move = .innerReturns submission outcome →
      action = .relayReturns submission outcome)
    (taken : stack.limiter.step move = some limiter) : Linked (past ++ [action]) { stack with limiter } := by
  obtain ⟨position, call, changed, selected, calls, same, going, answers⟩ := Limiter.step_moves other taken
  have bound := (List.getElem?_eq_some_iff.mp selected).1
  constructor
  · simp only [calls, List.length_set]
    exact linked.submitted
  · exact linked.carried
  · exact linked.distinct
  · exact linked.started
  · intro submission index current owned found
    simp only [calls] at found
    by_cases here : position = submission
    · subst here
      rw [List.getElem?_set_self bound] at found
      cases found
      obtain ⟨⟨gate, running, invoked, tied⟩, carried⟩ := linked.belongs position index call owned selected
      exact ⟨⟨gate, running, invoked, .running (tied.unfinished going)⟩, by rw [same]; exact carried⟩
    · rw [List.getElem?_set_ne here] at found
      obtain ⟨gate, carried⟩ := linked.belongs submission index current owned found
      exact ⟨gate, carried⟩
  · intro submission current outcome found answer
    simp only [calls] at found
    by_cases here : position = submission
    · subst here
      rw [List.getElem?_set_self bound] at found
      cases found
      rcases answers with kept | ⟨returned, rfl, given⟩
      · rw [kept] at answer
        exact List.mem_append_left _ (linked.answered position call outcome selected answer)
      · rw [given] at answer
        cases answer
        rw [returns position _ rfl]
        exact List.mem_append_right _ (List.mem_singleton.mpr rfl)
    · rw [List.getElem?_set_ne here] at found
      exact List.mem_append_left _ (linked.answered submission current outcome found answer)

theorem step_linked {action : StackAction} (linked : Linked past stack) (taken : stack.step action = some next) :
    Linked (past ++ [action]) next := by
  cases step_effect taken with
  | called => exact linked.called _
  | gated own moved => exact linked.gated own moved
  | started admitted carried moved => exact linked.starts admitted carried moved
  | limited own moved =>
    refine linked.limiterMoves ?_ ?_ moved
    · rintro rawTransaction rfl
      cases own
    · rintro submission outcome rfl
      cases own
  | returned moved =>
    refine linked.limiterMoves ?_ ?_ moved
    · rintro rawTransaction ⟨⟩
    · rintro submission outcome ⟨⟩
      rfl
  | abandoned moved =>
    refine linked.limiterMoves ?_ ?_ moved
    · rintro rawTransaction ⟨⟩
    · rintro submission outcome ⟨⟩
  | finished selected ready owned moved =>
    obtain ⟨invoked, running, rfl⟩ := Drain.innerReturns_cases moved
    exact linked.finishes selected ready owned running _
  | @dropped submission index call drain selected ready owned moved =>
    obtain ⟨⟨⟨phase, invoked⟩, found, invokes, tied⟩, -⟩ := linked.belongs _ _ _ owned selected
    simp only [Drain.step, Drain.cancel, found] at moved
    cases tied with
    | running running =>
      cases running
      cases moved
      exact linked.finishes selected ready owned found _
    | ready _ after => rcases after with after | after | after <;> cases after <;> cases moved

/-! ## Every run -/

/-- Both layers run as they do alone. -/
structure Layered (limit : ConcurrentBroadcastLimit) (stack : Stack) : Prop where
  gate : ∃ schedule, Draining.machine.run .new schedule = some stack.drain
  limiter : ∃ schedule, Limited.machine.run (.new limit) schedule = some stack.limiter

theorem Layered.gateSteps {limit : ConcurrentBroadcastLimit} (layered : Layered limit stack) {action : Draining.Action}
    {drain : Drain} (taken : stack.drain.step action = some drain) :
    ∃ schedule, Draining.machine.run .new schedule = some drain := by
  obtain ⟨schedule, execution⟩ := layered.gate
  exact ⟨schedule ++ [action], Draining.machine.run_snoc execution taken⟩

theorem Layered.limiterSteps {limit : ConcurrentBroadcastLimit} (layered : Layered limit stack)
    {action : Limited.Action} {limiter : Limiter} (taken : stack.limiter.step action = some limiter) :
    ∃ schedule, Limited.machine.run (.new limit) schedule = some limiter := by
  obtain ⟨schedule, execution⟩ := layered.limiter
  exact ⟨schedule ++ [action], Limited.machine.run_snoc execution taken⟩

theorem step_layered {limit : ConcurrentBroadcastLimit} {action : StackAction} (layered : Layered limit stack)
    (taken : stack.step action = some next) : Layered limit next := by
  cases step_effect taken with
  | called =>
    have invoked : stack.drain.step .invoke =
        some { stack.drain with calls := stack.drain.calls ++ [⟨.called, false⟩] } := rfl
    exact ⟨layered.gateSteps invoked, layered.limiter⟩
  | gated _ moved | finished _ _ _ moved | dropped _ _ _ moved => exact ⟨layered.gateSteps moved, layered.limiter⟩
  | @started index invoked rawTransaction drain _ _ moved =>
    have appears : stack.limiter.step (.invoke rawTransaction) =
        some { stack.limiter with calls := stack.limiter.calls ++ [.new rawTransaction] } := rfl
    exact ⟨layered.gateSteps moved, layered.limiterSteps appears⟩
  | limited _ moved | returned moved | abandoned moved => exact ⟨layered.gate, layered.limiterSteps moved⟩

theorem run_linked {limit : ConcurrentBroadcastLimit} {schedule : List StackAction}
    (execution : machine.run (.new limit) schedule = some stack) : Linked schedule stack ∧ Layered limit stack := by
  have initial : Linked [] (.new limit) ∧ Layered limit (.new limit) := ⟨.new limit, ⟨[], rfl⟩, ⟨[], rfl⟩⟩
  exact machine.run_preserves_history (motive := fun past later => Linked past later ∧ Layered limit later)
    (fun _ _ _ _ before taken => ⟨step_linked before.1 taken, step_layered before.2 taken⟩) initial execution

def going (call : Limited.Call) : Nat := if call.result.isNone then 1 else 0

theorem Linked.going_le (linked : Linked past stack) :
    total going stack.limiter.calls ≤ stack.drain.admittedUnfinished := by
  refine total_le_of_owners linked.submitted linked.distinct ?_
  intro submission index call owned selected
  obtain ⟨⟨gate, found, -, tied⟩, -⟩ := linked.belongs submission index call owned selected
  refine ⟨gate, found, ?_⟩
  cases ready : call.result with
  | none => simp [going, ready, Draining.Call.live, tied.unfinished ready]
  | some _ => simp [going, ready]

theorem holds_going (call : Limited.Call) : call.requestHeld ≤ going call ∧ (going call = 0 → call.bytesHeld = 0) := by
  unfold Limited.Call.requestHeld Limited.Call.bytesHeld going Limited.Call.result
  cases call.phase <;> simp

theorem total_zero {Entry : Type} {weight : Entry → Nat} {entries : List Entry} (none : total weight entries = 0)
    {entry : Entry} (member : entry ∈ entries) : weight entry = 0 := by
  obtain ⟨position, selected⟩ := List.mem_iff_getElem?.mp member
  have below := weight_le_total weight selected
  omega

/-- Behind a gate that is closed and idle, nothing moves. -/
theorem step_drained {action : StackAction} (linked : Linked past stack) (accounted : Accounted stack.drain)
    (idle : stack.drain.active = 0) (taken : stack.step action = some next) :
    next.limiter = stack.limiter ∧ next.owners = stack.owners := by
  have nothing : total going stack.limiter.calls = 0 := by
    have bound := linked.going_le
    rw [← accounted.counted, idle] at bound
    omega
  have done : ∀ (submission : Nat) (call : Limited.Call), stack.limiter.calls[submission]? = some call →
      call.result ≠ none := by
    intro submission call selected going
    have weightless := total_zero nothing (List.mem_of_getElem? selected)
    simp [Stack.going, going] at weightless
  have still : ∀ {move : Limited.Action} {limiter : Limiter}, (∀ rawTransaction, move ≠ .invoke rawTransaction) →
      stack.limiter.step move ≠ some limiter := by
    intro move limiter other moved
    obtain ⟨position, call, -, selected, -, -, going, -⟩ := Limiter.step_moves other moved
    exact done position call selected going
  cases step_effect taken with
  | called | gated _ _ | finished _ _ _ _ | dropped _ _ _ _ => exact ⟨rfl, rfl⟩
  | started admitted _ _ =>
    have live := weight_le_total Draining.Call.live admitted
    have zero : total Draining.Call.live stack.drain.calls = 0 := accounted.counted.symm.trans idle
    rw [zero] at live
    cases live
  | limited own moved =>
    refine absurd moved (still ?_)
    rintro rawTransaction rfl
    cases own
  | returned moved => exact absurd moved (still fun _ => nofun)
  | abandoned moved => exact absurd moved (still fun _ => nofun)

theorem run_accounted {limit : ConcurrentBroadcastLimit} (layered : Layered limit stack) : Accounted stack.drain := by
  obtain ⟨schedule, execution⟩ := layered.gate
  exact Accounted.run execution

theorem run_consistent {limit : ConcurrentBroadcastLimit} (layered : Layered limit stack) :
    ∀ call ∈ stack.drain.calls, Draining.Call.Consistent call := by
  obtain ⟨schedule, execution⟩ := layered.gate
  exact Draining.machine.run_preserves (motive := fun later => ∀ call ∈ later.calls, Draining.Call.Consistent call)
    (fun _ _ _ before taken => Drain.step_consistent taken before) (by simp [Drain.new]) execution

theorem run_drained {limit : ConcurrentBroadcastLimit} (linked : Linked past stack) (layered : Layered limit stack)
    (closed : stack.drain.accepting = false) (idle : stack.drain.active = 0) {more : List StackAction} {final : Stack}
    (execution : machine.run stack more = some final) :
    final.limiter = stack.limiter ∧ final.owners = stack.owners := by
  have kept := machine.run_preserves (motive := fun later => (∃ past, Linked past later) ∧ Layered limit later ∧
    later.drain.accepting = false ∧ later.drain.active = 0 ∧
    later.limiter = stack.limiter ∧ later.owners = stack.owners) ?_
    ⟨⟨past, linked⟩, layered, closed, idle, rfl, rfl⟩ execution
  · exact kept.2.2.2.2
  · rintro middle action later ⟨⟨before, chained⟩, layers, shut, empty, limiter, owners⟩ taken
    obtain ⟨sameLimiter, sameOwners⟩ := step_drained chained (run_accounted layers) empty taken
    have gate : later.drain.accepting = false ∧ later.drain.active ≤ middle.drain.active := by
      cases step_effect taken with
      | called => exact ⟨shut, Nat.le_refl _⟩
      | gated _ moved | started _ _ moved | finished _ _ _ moved | dropped _ _ _ moved =>
        exact (Drain.step_effect moved).gate shut
      | limited _ _ | returned _ | abandoned _ => exact ⟨shut, Nat.le_refl _⟩
    have still : later.drain.active = 0 := by omega
    exact ⟨⟨_, step_linked chained taken⟩, step_layered layers taken, gate.1, still, sameLimiter.trans limiter,
      sameOwners.trans owners⟩

/-- What the two wrappers keep together, at one point of a run. -/
structure Contract (limit : ConcurrentBroadcastLimit) (schedule : List StackAction) (stack : Stack) : Prop where
  layered : Layered limit stack
  /-- Each call is submitted to the limiter once at most, with its own transaction. -/
  once : stack.owners.Nodup ∧ stack.owners.map (stack.transactions[·]?) =
    stack.limiter.calls.map fun call => some call.rawTransaction
  /-- A submission that holds a permit belongs to a call the gate still counts. -/
  counted : total Limited.Call.requestHeld stack.limiter.calls ≤ stack.drain.active
  idle : stack.drain.active = 0 → stack.limiter.requests = limit.get ∧
    stack.limiter.payloadBytes = maxConfigurableInFlightBroadcastBytes
  /-- A result other than the generic failure is what the adapter returned for this call. -/
  answered : ∀ (index : Nat) (outcome : Outcome) (invoked : Bool),
    stack.drain.calls[index]? = some ⟨.ended (some outcome), invoked⟩ → outcome = .err .failed ∨
      ∃ submission : Nat, stack.owners[submission]? = some index ∧ .relayReturns submission outcome ∈ schedule
  drained : stack.drain.accepting = false → stack.drain.active = 0 →
    ∀ more final, machine.run stack more = some final →
      final.limiter = stack.limiter ∧ final.owners = stack.owners

theorem Linked.owner_lt (linked : Linked past stack) {index : Nat} (member : index ∈ stack.owners) :
    index < stack.drain.calls.length := by
  obtain ⟨submission, owned⟩ := List.mem_iff_getElem?.mp member
  have inside : submission < stack.limiter.calls.length := by
    rw [← linked.submitted]
    exact (List.getElem?_eq_some_iff.mp owned).1
  obtain ⟨⟨gate, found, -⟩, -⟩ := linked.belongs submission index _ owned (List.getElem?_eq_getElem inside)
  exact (List.getElem?_eq_some_iff.mp found).1

theorem Linked.transactions_eq (linked : Linked past stack) :
    stack.owners.map (stack.transactions[·]?) = stack.limiter.calls.map fun call => some call.rawTransaction := by
  apply List.ext_getElem?
  intro submission
  simp only [List.getElem?_map]
  cases owned : stack.owners[submission]? with
  | none =>
    rw [List.getElem?_eq_none_iff, linked.submitted] at owned
    rw [List.getElem?_eq_none owned]
    rfl
  | some index =>
    have inside : submission < stack.limiter.calls.length := by
      rw [← linked.submitted]
      exact (List.getElem?_eq_some_iff.mp owned).1
    have selected := List.getElem?_eq_getElem inside
    have carried := (linked.belongs submission index _ owned selected).carried
    rw [selected, Option.map_some, Option.map_some, carried]

theorem Linked.answered_by (linked : Linked past stack)
    (consistent : ∀ call ∈ stack.drain.calls, Draining.Call.Consistent call) {index : Nat}
    {outcome : Outcome} {invoked : Bool} (ended : stack.drain.calls[index]? = some ⟨.ended (some outcome), invoked⟩) :
    outcome = .err .failed ∨
      ∃ submission : Nat, stack.owners[submission]? = some index ∧ .relayReturns submission outcome ∈ past := by
  cases invoked with
  | false => exact .inl ((consistent _ (List.mem_of_getElem? ended)).refused outcome rfl rfl)
  | true =>
    obtain ⟨submission, owned⟩ := List.mem_iff_getElem?.mp (linked.started index _ ended rfl)
    have inside : submission < stack.limiter.calls.length := by
      rw [← linked.submitted]
      exact (List.getElem?_eq_some_iff.mp owned).1
    have selected := List.getElem?_eq_getElem inside
    obtain ⟨⟨gate, found, -, tied⟩, -⟩ := linked.belongs submission index _ owned selected
    cases found.symm.trans ended
    cases tied with
    | running phase => cases phase
    | ready ready phase =>
      rcases phase with phase | phase | phase <;> cases phase
      -- The limiter refused the call, or it passes on what the adapter returned.
      cases last : (stack.limiter.calls[submission]).phase with
      | ended result =>
        simp only [Limited.Call.result, last] at ready
        cases ready
        refine .inr ⟨submission, owned, linked.answered submission _ outcome selected ?_⟩
        simp only [Limited.Call.answer, last]
      | refused _ =>
        simp only [Limited.Call.result, last] at ready
        cases ready
        exact .inl rfl
      | called | holdingRequest | unwinding | inside | leaving _ | releasing _ =>
        simp [Limited.Call.result, last] at ready

theorem relay_stack_contract (limit : ConcurrentBroadcastLimit) (schedule : List StackAction) (stack : Stack)
    (reached : machine.run (.new limit) schedule = some stack) : Contract limit schedule stack := by
  obtain ⟨linked, layered⟩ := run_linked reached
  have accounted := run_accounted layered
  obtain ⟨limiterSchedule, limiterRun⟩ := layered.limiter
  have conserved := Limited.Conserved.run limiterRun
  have consistent := run_consistent layered
  have counted : total Limited.Call.requestHeld stack.limiter.calls ≤ stack.drain.active := by
    rw [accounted.counted]
    exact (total_mono stack.limiter.calls fun call _ => (holds_going call).1).trans linked.going_le
  constructor
  · exact layered
  · exact ⟨linked.distinct, linked.transactions_eq⟩
  · exact counted
  · intro idle
    have nothing : total going stack.limiter.calls = 0 := by
      have bound := linked.going_le
      rw [← accounted.counted, idle] at bound
      omega
    have bytes : total Limited.Call.bytesHeld stack.limiter.calls = 0 :=
      total_eq_zero fun call member => (holds_going call).2 (total_zero nothing member)
    have requests := conserved.requests
    have payload := conserved.bytes
    exact ⟨by omega, by omega⟩
  · exact fun index outcome invoked ended => linked.answered_by consistent ended
  · exact fun closed idle more final execution => run_drained linked layered closed idle execution

def confirmedAndRefused : List StackAction :=
  [.call "00", .call "11", .gate (.enter 0), .gate (.enter 1), .start 1, .start 0, .limiter (.acquireRequest 0),
    .limiter (.acquirePayload 0), .limiter (.acquireRequest 1), .finish 1, .relayReturns 0 (.ok "11"),
    .limiter (.releasePayload 0), .limiter (.releaseRequest 0), .finish 0, .gate (.leave 0), .gate (.leave 1),
    .gate (.publish (.call 0)), .gate (.publish (.call 1)), .gate .requestShutdown, .gate (.beginShutdown 0)]

theorem relay_stack_contract_confirmed :
    ∃ stack, machine.run (.new ⟨1, by decide, by decide⟩) confirmedAndRefused = some stack ∧
      stack.drain.calls = [⟨.ended (some (.err .failed)), true⟩, ⟨.ended (some (.ok "11")), true⟩] ∧
      stack.limiter.requests = 1 ∧ Contract ⟨1, by decide, by decide⟩ confirmedAndRefused stack := by
  have outcome : (machine.run (.new ⟨1, by decide, by decide⟩) confirmedAndRefused).map
      (fun stack => (stack.drain.calls, stack.limiter.requests)) =
      some ([⟨.ended (some (.err .failed)), true⟩, ⟨.ended (some (.ok "11")), true⟩], 1) := by decide +kernel
  obtain ⟨stack, reached, same⟩ := Option.map_eq_some_iff.mp outcome
  obtain ⟨calls, requests⟩ := Prod.mk.inj same
  exact ⟨stack, reached, calls, requests, relay_stack_contract _ _ _ reached⟩

end Stack

end ElectrumPrivateRelay.Relay

import ElectrumPrivateRelay.Proxy.Conservation

/-! Whether the upstream can answer a broadcast.

A response leaves the table in one critical section and reaches the channel in
a later step. In between its key is free again, and the wallet may reserve it
for a broadcast.
-/

set_option autoImplicit false

namespace ElectrumPrivateRelay.Proxy.Connection
open Json Protocol Semantics

variable {json : SerdeJson} {limits : ConnectionLimits} {state next : Connection}

/-- No frame that the upstream task puts into the channel answers a broadcast
that the table holds at that moment. -/
def AnswersNoBroadcast (json : SerdeJson) (limits : ConnectionLimits) (state : Connection) : Prop :=
  ∀ next last key, state.step json limits (.upstream .send) = some next →
    next.sent = state.sent ++ [last] → upstreamFrame json last.frame = some (.response key) →
    state.pending.lookup key ≠ some .broadcast

/-- The step reserves for a broadcast the key of a response that is out of the
table and not yet in the channel. -/
def reusesOwedKey (limits : ConnectionLimits) (state : Connection) : Action → Bool
  | .client .reserve =>
    match state.client.phase, state.upstream.phase with
    | .reserving _ _ key (.broadcast _), .sending _ (some owed) =>
      key = owed && (reserveRequest state.pending key .broadcast limits.maxPendingRequests).1 = .reserved
    | _, _ => false
  | _ => false

def OwesNoBroadcast (state : Connection) : Prop :=
  ∀ response key, state.upstream.phase = .sending response (some key) →
    state.pending.lookup key ≠ some .broadcast

theorem ClientEffect.owesNoBroadcast {action : ClientAction}
    (effect : state.ClientEffect json limits action next)
    (clear : reusesOwedKey limits state (.client action) = false) (owes : OwesNoBroadcast state) :
    OwesNoBroadcast next := by
  intro response key phase
  rw [effect.upstream_eq] at phase
  have free := owes response key phase
  cases effect with
  | @reserved frame id other purpose outcome pending waiting decided =>
    rcases reserveRequest_cases decided with ⟨rfl, -, rfl⟩ | ⟨-, rfl⟩
    -- Only a reservation of the owed key itself could make it a broadcast's.
    · by_cases same : key = other
      · subst same
        cases purpose with
        | query => simp [AList.lookup_insert, Purpose.pendingRequest]
        | broadcast rawTransaction =>
          have outcome : (reserveRequest state.pending key .broadcast limits.maxPendingRequests).1 = .reserved :=
            congrArg Prod.fst decided
          simp [reusesOwedKey, waiting, phase, outcome] at clear
      · simp only
        rwa [AList.lookup_insert_ne same]
    · exact free
  | @released other _ _ =>
    by_cases same : key = other
    · subst same
      simp [AList.lookup_erase]
    · simp only
      rwa [AList.lookup_erase_ne same]
  | observed _ _ | read _ _ | wrote _ | writeFailed _ | called _ | returned _ | returnedUnkeyed _
  | answered _ _ | noticed _ _ | refused _ _ | cancelled _ _ => exact free

theorem UpstreamEffect.owesNoBroadcast {action : UpstreamAction}
    (effect : state.UpstreamEffect json limits action next) : OwesNoBroadcast next := by
  intro response key phase
  cases effect with
  | read _ =>
    simp only [UpstreamTask.read] at phase
    repeat' (split at phase)
    all_goals cases phase
  | took _ _ =>
    cases phase
    simp [AList.lookup_erase]
  | dropped _ _ | sent _ _ | refused _ _ | cancelled _ => cases phase

theorem step_owesNoBroadcast {action : Action} (owes : OwesNoBroadcast state)
    (clear : reusesOwedKey limits state action = false)
    (taken : state.step json limits action = some next) : OwesNoBroadcast next := by
  rcases step_cases taken with ⟨_, rfl, effect⟩ | ⟨_, -, effect⟩ | quiet
  · exact effect.owesNoBroadcast clear owes
  · exact effect.owesNoBroadcast
  · intro response key phase
    rw [quiet.pending]
    exact owes response key (quiet.upstream ▸ phase)

theorem sent_phase {last : Sent} (taken : state.step json limits (.upstream .send) = some next)
    (pushed : next.sent = state.sent ++ [last]) :
    ∃ key, state.upstream.phase = .sending last.frame key := by
  cases step_upstream taken with
  | @sent frame key phase _ =>
    have same : state.sent ++ [⟨.upstream key, frame⟩] = state.sent ++ [last] := pushed
    simp only [List.append_cancel_left_eq, List.cons.injEq, and_true] at same
    subst same
    exact ⟨key, phase⟩
  | refused _ _ =>
    have same : state.sent = state.sent ++ [last] := pushed
    simp at same

theorem upstream_answers_no_broadcast (json : SerdeJson) (limits : ConnectionLimits)
    (clientInput upstreamInput : Input) (schedule : List Action) (state : Connection)
    (execution : (machine json limits).RunsWhere
      (fun state action => reusesOwedKey limits state action = false)
      (.new clientInput upstreamInput) schedule state) :
    AnswersNoBroadcast json limits state := by
  have conserved : Conserved json state :=
    (machine json limits).run_preserves (fun _ _ _ => step_conserved)
      (new_conserved clientInput upstreamInput) execution.run
  have owes : OwesNoBroadcast state :=
    execution.preserves (fun _ _ _ => step_owesNoBroadcast) fun _ _ phase => by cases phase
  intro next last key taken pushed response
  obtain ⟨owed, phase⟩ := sent_phase taken pushed
  have read := conserved.reads
  rw [phase] at read
  -- The frame was read once before the lock, and it still reads the same.
  cases owed with
  | none => cases read.symm.trans response
  | some other =>
    obtain rfl : other = key := by
      have kinds := Option.some.inj (read.symm.trans response)
      exact UpstreamFrame.response.inj kinds
    exact owes last.frame other phase

def queryAnswer : List UInt8 := utf8 "\x7b\"id\":1,\"result\":\"ok\"\x7d\n"

def reusingRequest : List UInt8 :=
  utf8 ("\x7b\"id\":1,\"method\":\"blockchain.transaction.broadcast\",\"params\":[\"00aa\"]\x7d\n")

def reusingStart : Connection := .new ⟨versionQuery ++ reusingRequest, .closed⟩ ⟨queryAnswer, .closed⟩

def orderlySchedule : List Action :=
  [.client .read, .client .reserve, .client (.write versionQuery.length), .client .read,
    .upstream .read, .upstream .lock, .upstream .send, .client .reserve, .client .call]

theorem upstream_answers_no_broadcast_in_order :
    ∃ state, (machine .reference ⟨1024, 8⟩).run reusingStart orderlySchedule = some state ∧
      state.client.relayCalls = ["00aa"] ∧ delivered state.sent = ["1"] ∧
      AnswersNoBroadcast .reference ⟨1024, 8⟩ state := by
  have outcome : ((machine .reference ⟨1024, 8⟩).runWhere
      (fun state action => reusesOwedKey ⟨1024, 8⟩ state action = false) reusingStart orderlySchedule).map
        (fun state => (state.client.relayCalls, delivered state.sent)) = some (["00aa"], ["1"]) := by
    decide +kernel
  obtain ⟨state, found, same⟩ := Option.map_eq_some_iff.mp outcome
  obtain ⟨calls, keys⟩ := Prod.mk.inj same
  have execution := Machine.RunsWhere.of_runWhere found
  exact ⟨state, execution.run, calls, keys, upstream_answers_no_broadcast _ _ _ _ _ _ execution⟩

/-- The identifier is reserved between the two steps of the answer. -/
def overlappingSchedule : List Action :=
  [.client .read, .client .reserve, .client (.write versionQuery.length), .client .read,
    .upstream .read, .upstream .lock, .client .reserve, .client .call]

theorem upstream_answers_reserved_broadcast :
    ∃ state, (machine .reference ⟨1024, 8⟩).run reusingStart overlappingSchedule = some state ∧
      ¬ AnswersNoBroadcast .reference ⟨1024, 8⟩ state := by
  have outcome : ((machine .reference ⟨1024, 8⟩).run reusingStart overlappingSchedule).bind
      (fun state => (state.step .reference ⟨1024, 8⟩ (.upstream .send)).map
        fun next => (state.pending.lookup "1", state.sent, next.sent)) =
      some (some .broadcast, [], [⟨.upstream (some "1"), queryAnswer⟩]) := by decide +kernel
  obtain ⟨state, execution, sends⟩ := Option.bind_eq_some_iff.mp outcome
  obtain ⟨next, taken, same⟩ := Option.map_eq_some_iff.mp sends
  simp only [Prod.mk.injEq] at same
  obtain ⟨found, before, after⟩ := same
  refine ⟨state, execution, fun answers => ?_⟩
  exact answers next ⟨.upstream (some "1"), queryAnswer⟩ "1" taken (by rw [before, after]; rfl) rfl found

end ElectrumPrivateRelay.Proxy.Connection

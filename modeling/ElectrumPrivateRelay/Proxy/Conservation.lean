import ElectrumPrivateRelay.Proxy.Connection

/-! The books of the correlation table.

Every query that was reserved is accounted for once: still in the table, on its
way to the wallet, or delivered. A broadcast keeps its entry from its
reservation until the client task takes it out again.
-/

set_option autoImplicit false

namespace ElectrumPrivateRelay.Proxy
open Json Protocol Semantics

def ClientPhase.broadcastKey : ClientPhase → Option String
  | .calling _ key _ | .relaying _ key => key
  | .releasing key _ => some key
  | _ => none

def Sent.responseKey (sent : Sent) : Option String :=
  match sent.origin with
  | .upstream key => key
  | .answer | .notice => none

def delivered (sent : List Sent) : List String := sent.filterMap Sent.responseKey

@[simp] theorem delivered_snoc (sent : List Sent) (last : Sent) :
    delivered (sent ++ [last]) = delivered sent ++ last.responseKey.toList := by
  simp only [delivered, List.filterMap_append]
  cases same : last.responseKey <;> simp [same]

/-- What a frame of the upstream was forwarded as. -/
def frameKind : Option String → UpstreamFrame
  | some key => .response key
  | none => .notification

def Framed (json : SerdeJson) (sent : Sent) : Prop :=
  ∀ key, sent.origin = .upstream key → upstreamFrame json sent.frame = some (frameKind key)

def held (pending : PendingRequests) (key : String) : Nat :=
  if pending.lookup key = some .upstream then 1 else 0

@[simp] theorem held_insert (pending : PendingRequests) (key other : String) (request : PendingRequest) :
    held (pending.insert key request) other =
      if other = key then (if request = .upstream then 1 else 0) else held pending other := by
  by_cases same : other = key
  · subst same
    simp [held, AList.lookup_insert]
  · simp [held, same, AList.lookup_insert_ne same]

@[simp] theorem held_erase (pending : PendingRequests) (key other : String) :
    held (pending.erase key) other = if other = key then 0 else held pending other := by
  by_cases same : other = key
  · subst same
    simp [held, AList.lookup_erase]
  · simp [held, same, AList.lookup_erase_ne same]

def UpstreamPhase.Reads (json : SerdeJson) : UpstreamPhase → Prop
  | .locking frame key => upstreamFrame json frame = some (.response key)
  | .sending frame key => upstreamFrame json frame = some (frameKind key)
  | .reading | .ended _ => True

/-- The key that the upstream task took out of the table and has not delivered:
on its way, or lost with the task. -/
def UpstreamPhase.Owes : UpstreamPhase → Option String → Prop
  | .sending _ key, gap => gap = key
  | .ended _, _ => True
  | .reading, gap | .locking _ _, gap => gap = none

theorem takenUpPhase_unkeyed (json : SerdeJson) (frame : List UInt8) :
    (takenUpPhase json frame).broadcastKey = none := by
  unfold takenUpPhase
  split
  · rfl
  · split <;> rfl
  · split <;> rfl
  · rfl

theorem ClientTask.read_unkeyed (json : SerdeJson) (limits : ConnectionLimits) (task : ClientTask) :
    (task.read json limits).phase.broadcastKey = none ∧
      (task.read json limits).reserved = task.reserved := by
  unfold ClientTask.read
  split
  · exact ⟨takenUpPhase_unkeyed json _, rfl⟩
  all_goals exact ⟨rfl, rfl⟩

namespace Connection

structure Conserved (json : SerdeJson) (state : Connection) : Prop where
  balance : ∀ key, state.client.reserved.count (key, .upstream) =
    state.upstream.removed.count key + held state.pending key
  gap : ∃ gap, state.upstream.removed = delivered state.sent ++ gap.toList ∧
    state.upstream.phase.Owes gap
  reads : state.upstream.phase.Reads json
  framed : ∀ sent ∈ state.sent, Framed json sent
  present : state.client.phase.isCancelled = false →
    ∀ key, state.pending.lookup key = some .broadcast ↔ state.client.phase.broadcastKey = some key
  single : ∀ key other, state.pending.lookup key = some .broadcast →
    state.pending.lookup other = some .broadcast → key = other

variable {json : SerdeJson} {limits : ConnectionLimits} {state next : Connection}

theorem Conserved.clientMoves (conserved : Conserved json state)
    (pending : next.pending = state.pending) (upstream : next.upstream = state.upstream)
    (reserved : next.client.reserved = state.client.reserved)
    (kept : next.client.phase.isCancelled = false → state.client.phase.isCancelled = false ∧
      next.client.phase.broadcastKey = state.client.phase.broadcastKey)
    (sent : delivered next.sent = delivered state.sent)
    (framed : ∀ sent ∈ next.sent, Framed json sent) : Conserved json next where
  balance := by
    rw [reserved, upstream, pending]
    exact conserved.balance
  gap := by
    rw [upstream, sent]
    exact conserved.gap
  reads := by
    rw [upstream]
    exact conserved.reads
  framed
  present running key := by
    obtain ⟨before, same⟩ := kept running
    rw [pending, same]
    exact conserved.present before key
  single := by
    rw [pending]
    exact conserved.single

theorem Conserved.entersClient (conserved : Conserved json state) {phase : ClientPhase}
    (kept : phase.isCancelled = false → state.client.phase.isCancelled = false ∧
      phase.broadcastKey = state.client.phase.broadcastKey) :
    Conserved json (state.enterClient phase) :=
  conserved.clientMoves rfl rfl rfl kept rfl conserved.framed

theorem Conserved.pushes (conserved : Conserved json state) (origin : Origin) (frame : List UInt8)
    (own : ∀ key, origin ≠ .upstream key) : Conserved json (state.push origin frame) := by
  have unkeyed : (⟨origin, frame⟩ : Sent).responseKey = none := by
    cases origin with
    | upstream key => exact absurd rfl (own key)
    | answer | notice => rfl
  refine conserved.clientMoves rfl rfl rfl (fun running => ⟨running, rfl⟩) ?_ ?_
  · simp [push, unkeyed]
  · intro sent member
    rcases List.mem_append.mp member with earlier | last
    · exact conserved.framed sent earlier
    · intro key same
      rw [List.mem_singleton.mp last] at same
      exact absurd same (own key)

theorem Conserved.noBroadcast (conserved : Conserved json state)
    (running : state.client.phase.isCancelled = false)
    (unkeyed : state.client.phase.broadcastKey = none) (key : String) :
    state.pending.lookup key ≠ some .broadcast := by
  intro found
  have same := (conserved.present running key).mp found
  rw [unkeyed] at same
  cases same

theorem Conserved.reservesQuery (conserved : Conserved json state) {task : ClientTask} {key : String}
    (running : state.client.phase.isCancelled = false)
    (unkeyed : state.client.phase.broadcastKey = none)
    (free : state.pending.lookup key = none)
    (reserved : task.reserved = state.client.reserved ++ [(key, .upstream)])
    (next : task.phase.broadcastKey = none) :
    Conserved json { state with client := task, pending := state.pending.insert key .upstream } := by
  -- The client task is between two broadcasts, so the table holds none.
  have nowhere : ∀ other, (state.pending.insert key .upstream).lookup other ≠ some .broadcast := by
    intro other
    by_cases same : other = key
    · subst same
      simp [AList.lookup_insert]
    · rw [AList.lookup_insert_ne same]
      exact conserved.noBroadcast running unkeyed other
  exact
    { balance := fun other => by
        have before := conserved.balance other
        by_cases same : other = key
        · subst same
          have none : held state.pending other = 0 := by simp [held, free]
          simp [reserved, before, none]
        · have different : ¬ key = other := fun equal => same equal.symm
          simp [reserved, before, same, different]
      gap := conserved.gap
      reads := conserved.reads
      framed := conserved.framed
      present := fun _ other => by
        rw [next]
        exact iff_of_false (nowhere other) nofun
      single := fun first _ one _ => absurd one (nowhere first) }

theorem Conserved.reservesBroadcast (conserved : Conserved json state) {task : ClientTask} {key : String}
    (running : state.client.phase.isCancelled = false)
    (unkeyed : state.client.phase.broadcastKey = none)
    (free : state.pending.lookup key = none)
    (reserved : task.reserved = state.client.reserved ++ [(key, .broadcast)])
    (next : task.phase.broadcastKey = some key) :
    Conserved json { state with client := task, pending := state.pending.insert key .broadcast } := by
  have only : ∀ other, (state.pending.insert key .broadcast).lookup other = some .broadcast ↔
      some key = some other := by
    intro other
    by_cases same : other = key
    · subst same
      simp [AList.lookup_insert]
    · have different : ¬ key = other := fun equal => same equal.symm
      rw [AList.lookup_insert_ne same]
      simpa [different] using conserved.noBroadcast running unkeyed other
  exact
    { balance := fun other => by
        have before := conserved.balance other
        by_cases same : other = key
        · subst same
          have none : held state.pending other = 0 := by simp [held, free]
          simp [reserved, before, none]
        · simp [reserved, before, same]
      gap := conserved.gap
      reads := conserved.reads
      framed := conserved.framed
      present := fun _ other => by
        rw [next]
        exact only other
      single := fun first second one two =>
        Option.some.inj (((only first).mp one).symm.trans ((only second).mp two)) }

theorem Conserved.afterReserve (conserved : Conserved json state) {frame : List UInt8} {id : Value}
    {key : String} {purpose : Purpose} {outcome : Reservation} {pending : PendingRequests}
    (phase : state.client.phase = .reserving frame id key purpose)
    (decided : reserveRequest state.pending key purpose.pendingRequest limits.maxPendingRequests =
      (outcome, pending)) :
    Conserved json { state with
      client := state.client.reserve json frame id key purpose outcome
      pending } := by
  have running : state.client.phase.isCancelled = false := by rw [phase]; rfl
  have unkeyed : state.client.phase.broadcastKey = none := by rw [phase]; rfl
  rcases reserveRequest_cases decided with ⟨rfl, free, rfl⟩ | ⟨refused, rfl⟩
  · cases purpose with
    | query =>
      apply conserved.reservesQuery running unkeyed free
      · simp [ClientTask.reserve, Purpose.pendingRequest]
      · rfl
    | broadcast _ =>
      apply conserved.reservesBroadcast running unkeyed free
      · simp [ClientTask.reserve, Purpose.pendingRequest]
      · rfl
  · refine conserved.clientMoves rfl rfl (by simp [ClientTask.reserve, refused]) (fun _ => ⟨running, ?_⟩)
      rfl conserved.framed
    rw [unkeyed]
    cases outcome with
    | reserved => exact absurd rfl refused
    | duplicate | limitExceeded => cases purpose <;> rfl

theorem Conserved.afterRelease (conserved : Conserved json state) {key : String}
    {response : List UInt8} (phase : state.client.phase = .releasing key response) :
    Conserved json { state with
      client := { state.client with phase := .responding response }
      pending := state.pending.erase key } := by
  -- The entry that is taken out is the only broadcast there is.
  have own : ∀ other, state.pending.lookup other = some .broadcast ↔ some key = some other := by
    have present := conserved.present (by rw [phase]; rfl)
    rw [phase] at present
    exact present
  have nowhere : ∀ other, (state.pending.erase key).lookup other ≠ some .broadcast := by
    intro other
    by_cases same : other = key
    · subst same
      simp [AList.lookup_erase]
    · rw [AList.lookup_erase_ne same]
      intro found
      exact same (Option.some.inj ((own other).mp found)).symm
  exact
    { balance := fun other => by
        have before := conserved.balance other
        by_cases same : other = key
        · subst same
          have none : held state.pending other = 0 := by simp [held, (own other).mpr rfl]
          simp [before, none]
        · simp [before, same]
      gap := conserved.gap
      reads := conserved.reads
      framed := conserved.framed
      present := fun _ other => iff_of_false (nowhere other) nofun
      single := fun first _ one _ => absurd one (nowhere first) }

theorem ClientEffect.conserved {action : ClientAction}
    (effect : state.ClientEffect json limits action next)
    (conserved : Conserved json state) : Conserved json next := by
  cases effect with
  | observed phase _ => exact conserved.entersClient fun _ => by rw [phase]; exact ⟨rfl, rfl⟩
  | read phase _ =>
    obtain ⟨unkeyed, reserved⟩ := ClientTask.read_unkeyed json limits state.client
    refine conserved.clientMoves rfl rfl reserved (fun _ => ?_) rfl conserved.framed
    rw [phase]
    exact ⟨rfl, unkeyed⟩
  | reserved phase decided => exact conserved.afterReserve phase decided
  | @wrote remaining count phase =>
    refine conserved.clientMoves rfl rfl rfl (fun _ => ?_) rfl conserved.framed
    rw [phase]
    refine ⟨rfl, ?_⟩
    unfold writingPhase
    split <;> rfl
  | writeFailed phase => exact conserved.entersClient fun _ => by rw [phase]; exact ⟨rfl, rfl⟩
  | called phase =>
    refine conserved.clientMoves rfl rfl rfl (fun _ => ?_) rfl conserved.framed
    rw [phase]
    exact ⟨rfl, rfl⟩
  | returned phase => exact conserved.entersClient fun _ => by rw [phase]; exact ⟨rfl, rfl⟩
  | returnedUnkeyed phase =>
    exact conserved.entersClient fun _ => by rw [phase]; exact ⟨rfl, rfl⟩
  | released phase => exact conserved.afterRelease phase
  | answered phase _ =>
    exact (conserved.pushes .answer _ nofun).entersClient fun _ => by
      simp only [push, phase]
      exact ⟨rfl, rfl⟩
  | noticed phase _ =>
    exact (conserved.pushes .notice _ nofun).entersClient fun _ => by
      simp only [push, phase]
      exact ⟨rfl, rfl⟩
  | refused phase _ =>
    apply conserved.entersClient
    intro _
    rcases phase with phase | phase <;> rw [phase] <;> exact ⟨rfl, rfl⟩
  -- An aborted task leaves the entry of its broadcast behind.
  | cancelled _ _ => exact conserved.entersClient nofun

theorem Conserved.entersUpstream (conserved : Conserved json state) {task : UpstreamTask}
    (removed : task.removed = state.upstream.removed)
    (owes : ∀ gap, state.upstream.phase.Owes gap → task.phase.Owes gap)
    (reads : task.phase.Reads json) : Conserved json { state with upstream := task } where
  balance := by
    rw [removed]
    exact conserved.balance
  gap := by
    obtain ⟨gap, split, owed⟩ := conserved.gap
    rw [removed]
    exact ⟨gap, split, owes gap owed⟩
  reads
  framed := conserved.framed
  present := conserved.present
  single := conserved.single

theorem Conserved.afterUpstreamRead (conserved : Conserved json state)
    (phase : state.upstream.phase = .reading) :
    Conserved json { state with upstream := state.upstream.read json limits } := by
  unfold UpstreamTask.read
  split
  · split
    · next key read => exact conserved.entersUpstream rfl (by rw [phase]; exact fun _ => id) read
    · next read => exact conserved.entersUpstream rfl (by rw [phase]; exact fun _ => id) read
    · exact conserved.entersUpstream rfl (fun _ _ => trivial) trivial
  · exact conserved.entersUpstream rfl (fun _ _ => trivial) trivial
  · exact conserved.entersUpstream rfl (fun _ _ => trivial) trivial

theorem lookup_erase_upstream {pending : PendingRequests} {key : String}
    (found : pending.lookup key = some .upstream) (other : String) :
    (pending.erase key).lookup other = some .broadcast ↔ pending.lookup other = some .broadcast := by
  by_cases same : other = key
  · subst same
    simp [AList.lookup_erase, found]
  · rw [AList.lookup_erase_ne same]

theorem Conserved.afterTake (conserved : Conserved json state) {frame : List UInt8} {key : String}
    (phase : state.upstream.phase = .locking frame key)
    (found : state.pending.lookup key = some .upstream) :
    Conserved json { state with
      upstream := { state.upstream with
        phase := .sending frame (some key)
        removed := state.upstream.removed ++ [key] }
      pending := state.pending.erase key } where
  balance other := by
    have before := conserved.balance other
    by_cases same : other = key
    · subst same
      have one : held state.pending other = 1 := by simp [held, found]
      simp [before, one]
    · have different : ¬ key = other := fun equal => same equal.symm
      simp [before, same, different]
  gap := by
    obtain ⟨gap, split, owed⟩ := conserved.gap
    rw [phase] at owed
    obtain rfl : gap = none := owed
    exact ⟨some key, by simp [split], rfl⟩
  reads := by
    have read := conserved.reads
    rw [phase] at read
    exact read
  framed := conserved.framed
  present running other := by
    rw [lookup_erase_upstream found]
    exact conserved.present running other
  single first second one two :=
    conserved.single first second ((lookup_erase_upstream found first).mp one)
      ((lookup_erase_upstream found second).mp two)

theorem Conserved.afterUpstreamSend (conserved : Conserved json state) {frame : List UInt8}
    {key : Option String} (phase : state.upstream.phase = .sending frame key) :
    Conserved json ((state.push (.upstream key) frame).enterUpstream .reading) where
  balance := conserved.balance
  gap := by
    obtain ⟨gap, split, owed⟩ := conserved.gap
    rw [phase] at owed
    obtain rfl : gap = key := owed
    exact ⟨none, by simp [enterUpstream, push, split, Sent.responseKey], rfl⟩
  reads := trivial
  framed sent member := by
    rcases List.mem_append.mp member with earlier | last
    · exact conserved.framed sent earlier
    · have read := conserved.reads
      rw [phase] at read
      rw [List.mem_singleton.mp last]
      rintro other ⟨⟩
      exact read
  present := conserved.present
  single := conserved.single

theorem UpstreamEffect.conserved {action : UpstreamAction}
    (effect : state.UpstreamEffect json limits action next)
    (conserved : Conserved json state) : Conserved json next := by
  cases effect with
  | read phase => exact conserved.afterUpstreamRead phase
  | took phase found => exact conserved.afterTake phase found
  | dropped phase _ => exact conserved.entersUpstream rfl (by rw [phase]; exact fun _ => id) trivial
  | sent phase _ => exact conserved.afterUpstreamSend phase
  | refused _ _ => exact conserved.entersUpstream rfl (fun _ _ => trivial) trivial
  | cancelled _ => exact conserved.entersUpstream rfl (fun _ _ => trivial) trivial

theorem step_conserved {action : Action} (conserved : Conserved json state)
    (taken : state.step json limits action = some next) : Conserved json next := by
  rcases step_cases taken with ⟨_, -, effect⟩ | ⟨_, -, effect⟩ | quiet
  · exact effect.conserved conserved
  · exact effect.conserved conserved
  · exact conserved.clientMoves quiet.pending quiet.upstream (by rw [quiet.client])
      (fun running => ⟨quiet.client ▸ running, by rw [quiet.client]⟩) (by rw [quiet.sent])
      (quiet.sent ▸ conserved.framed)

theorem new_conserved (clientInput upstreamInput : Input) :
    Conserved json (Connection.new clientInput upstreamInput) where
  balance key := by simp [Connection.new, held]
  gap := ⟨none, rfl, rfl⟩
  reads := trivial
  framed := nofun
  present _ key := by simp [Connection.new, ClientPhase.broadcastKey]
  single key other one := by simp [Connection.new] at one

theorem UpstreamEffect.keepsBroadcast {action : UpstreamAction}
    (effect : state.UpstreamEffect json limits action next) {key : String}
    (found : state.pending.lookup key = some .broadcast) : next.pending.lookup key = some .broadcast := by
  cases effect with
  | took _ other => exact (lookup_erase_upstream other key).mpr found
  | read _ | dropped _ _ | sent _ _ | refused _ _ | cancelled _ => exact found

/-- The books of one connection, at one point of a run. -/
structure KeepsBooks (json : SerdeJson) (limits : ConnectionLimits) (state : Connection) : Prop where
  /-- A reserved query is delivered, owed, or in the table. At most one key is
  owed: by the task that is about to send it, or by one that has ended. -/
  balance : ∃ owed, state.upstream.phase.Owes owed ∧
    ∀ key, state.client.reserved.count (key, .upstream) =
      (delivered state.sent).count key + owed.toList.count key + held state.pending key
  /-- What counts as delivered for a key is a response with that key. -/
  framed : ∀ sent ∈ state.sent, Framed json sent
  /-- A response that is dropped consumes no entry. -/
  dropped : ∀ frame key next, state.upstream.phase = .locking frame key →
    state.step json limits (.upstream .lock) = some next → next.upstream.phase = .reading →
    next.pending = state.pending ∧ next.upstream.removed = state.upstream.removed
  single : ∀ key other, state.pending.lookup key = some .broadcast →
    state.pending.lookup other = some .broadcast → key = other
  /-- A broadcast has its entry from its reservation until its release. -/
  present : state.client.phase.isCancelled = false →
    ∀ key, state.pending.lookup key = some .broadcast ↔ state.client.phase.broadcastKey = some key
  upstreamKeeps : ∀ action next key, state.step json limits (.upstream action) = some next →
    state.pending.lookup key = some .broadcast → next.pending.lookup key = some .broadcast
  released : ∀ key response next, state.client.phase = .releasing key response →
    state.step json limits (.client .release) = some next → key ∉ next.pending

theorem correlation_table_conserved (json : SerdeJson) (limits : ConnectionLimits)
    (clientInput upstreamInput : Input) (schedule : List Action) (state : Connection)
    (execution : (machine json limits).run (.new clientInput upstreamInput) schedule = some state) :
    KeepsBooks json limits state := by
  have conserved : Conserved json state :=
    (machine json limits).run_preserves (fun _ _ _ => step_conserved)
      (new_conserved clientInput upstreamInput) execution
  refine
    { framed := conserved.framed
      single := conserved.single
      present := conserved.present
      balance := ?_
      dropped := ?_
      upstreamKeeps := fun _ _ _ taken found => (step_upstream taken).keepsBroadcast found
      released := ?_ }
  · obtain ⟨owed, split, owes⟩ := conserved.gap
    refine ⟨owed, owes, fun key => ?_⟩
    rw [conserved.balance key, split, List.count_append]
  · intro frame key next _ taken idle
    cases step_upstream taken with
    | took _ _ => cases idle
    | dropped _ _ => exact ⟨rfl, rfl⟩
  · intro key response next phase taken
    simp only [step, clientStep, phase, Option.some.injEq] at taken
    subst taken
    simp [AList.mem_erase]

def upstreamInput : Input :=
  ⟨utf8 "\x7b\"id\":1,\"result\":\"ok\"\x7d\n\x7b\"id\":2,\"result\":\"fake\"\x7d\n", .closed⟩

def collidingSchedule : List Action :=
  [.client .read, .client .reserve, .client (.write versionQuery.length), .client .read,
    .client .reserve, .client .call, .upstream .read, .upstream .lock, .upstream .send,
    .upstream .read, .upstream .lock]

theorem correlation_table_conserved_on_collision :
    ∃ state, (machine .reference ⟨1024, 8⟩).run
        (.new ⟨versionQuery ++ broadcastRequest, .closed⟩ upstreamInput) collidingSchedule = some state ∧
      delivered state.sent = ["1"] ∧ state.pending.lookup "2" = some .broadcast ∧
      KeepsBooks .reference ⟨1024, 8⟩ state := by
  have outcome : ((machine .reference ⟨1024, 8⟩).run
      (.new ⟨versionQuery ++ broadcastRequest, .closed⟩ upstreamInput) collidingSchedule).map
        (fun state => (delivered state.sent, state.pending.lookup "2")) =
      some (["1"], some .broadcast) := by decide +kernel
  obtain ⟨state, execution, same⟩ := Option.map_eq_some_iff.mp outcome
  obtain ⟨keys, found⟩ := Prod.mk.inj same
  exact ⟨state, execution, keys, found, correlation_table_conserved _ _ _ _ _ _ execution⟩

end Connection

end ElectrumPrivateRelay.Proxy

import ElectrumPrivateRelay.Proxy.Conservation
import ElectrumPrivateRelay.Proxy.Routing

/-! The window of requests the wallet is owed a response to.

The window is kept by the table, and a broadcast without a usable identifier
has no entry there. It is within the window only if the table has room for it
when it is taken up.
-/

set_option autoImplicit false

namespace ElectrumPrivateRelay.Proxy
open Json Protocol Semantics

/-- Queries that were forwarded under an identifier and not answered yet. A
response answers its query when it takes the entry out of the table. -/
def owedQueries (pending : PendingRequests) : Nat :=
  (pending.entries.filter fun entry => entry.2 = .upstream).length

/-- A broadcast is owed its response from its acceptance until the response is
in the channel. -/
def ClientPhase.owedBroadcasts : ClientPhase → Nat
  | .calling _ _ _ | .relaying _ _ | .releasing _ _ | .responding _ => 1
  | _ => 0

def ClientPhase.isUntabled : ClientPhase → Bool
  | .calling _ none _ | .relaying _ none | .responding _ => true
  | _ => false

namespace Connection

def owed (state : Connection) : Nat := owedQueries state.pending + state.client.phase.owedBroadcasts

def windowIsFull (limits : ConnectionLimits) (state : Connection) : Bool :=
  limits.maxPendingRequests ≤ state.pending.entries.length

/-- The step takes up a broadcast that no entry can be made for. -/
def takesUpUnkeyed (json : SerdeJson) (limits : ConnectionLimits) (state : Connection) : Action → Bool
  | .client .read =>
    match readFrame limits.maxFrameBytes state.client.input with
    | .frame frame _ =>
      match classify json frame with
      | .ok (.broadcast id _) => (requestIdKey json id).isNone
      | _ => false
    | _ => false
  | _ => false

def reservesBroadcast (state : Connection) : Action → Bool
  | .client .reserve =>
    match state.client.phase with
    | .reserving _ _ _ (.broadcast _) => true
    | _ => false
  | _ => false

/-- No broadcast without a usable identifier is taken up while the window is full. -/
def KeepsWindow (json : SerdeJson) (limits : ConnectionLimits) (state : Connection) (action : Action) : Prop :=
  (takesUpUnkeyed json limits state action && state.windowIsFull limits) = false

instance (json : SerdeJson) (limits : ConnectionLimits) : DecidableRel (KeepsWindow json limits) :=
  fun _ _ => inferInstanceAs (Decidable (_ = false))

theorem entry_of_lookup {pending : PendingRequests} {key : String} {request : PendingRequest}
    (found : pending.lookup key = some request) : ⟨key, request⟩ ∈ pending.entries :=
  AList.mem_lookup_iff.mp found

theorem length_erase {pending : PendingRequests} {key : String} {request : PendingRequest}
    (found : pending.lookup key = some request) :
    (pending.erase key).entries.length < pending.entries.length := by
  have member : key ∈ pending.entries.keys := List.mem_keys_of_mem (entry_of_lookup found)
  obtain ⟨kept, before, after, -, whole, erased⟩ := List.exists_of_kerase member
  have entries : (pending.erase key).entries = before ++ after := erased
  rw [entries, whole]
  simp only [List.length_append, List.length_cons]
  omega

theorem owedQueries_le (pending : PendingRequests) : owedQueries pending ≤ pending.entries.length :=
  List.length_filter_le _ _

theorem owedQueries_lt {pending : PendingRequests} {key : String}
    (found : pending.lookup key = some .broadcast) : owedQueries pending < pending.entries.length := by
  rw [owedQueries, List.length_filter_lt_length_iff_exists]
  exact ⟨_, entry_of_lookup found, by simp⟩

theorem reserveRequest_bounded {pending after : PendingRequests} {key : String} {request : PendingRequest}
    {maxPendingRequests : Nat} {outcome : Reservation}
    (decided : reserveRequest pending key request maxPendingRequests = (outcome, after))
    (bounded : pending.entries.length ≤ maxPendingRequests) : after.entries.length ≤ maxPendingRequests := by
  unfold reserveRequest at decided
  split at decided
  · cases decided
    exact bounded
  · next free =>
    split at decided
    · cases decided
      exact bounded
    · next room =>
      cases decided
      rw [AList.entries_insert_of_notMem free, List.length_cons]
      omega

theorem reserveRequest_full {pending after : PendingRequests} {key : String} {request : PendingRequest}
    {maxPendingRequests : Nat} {outcome : Reservation}
    (decided : reserveRequest pending key request maxPendingRequests = (outcome, after))
    (full : maxPendingRequests ≤ pending.entries.length) : outcome ≠ .reserved := by
  simp only [reserveRequest, full, if_true] at decided
  split at decided <;> cases decided <;> nofun

variable {json : SerdeJson} {limits : ConnectionLimits} {state next : Connection}

structure Windowed (limits : ConnectionLimits) (state : Connection) : Prop where
  bounded : state.pending.entries.length ≤ limits.maxPendingRequests
  room : state.client.phase.isUntabled = true → state.pending.entries.length < limits.maxPendingRequests

theorem Windowed.keep (windowed : Windowed limits state)
    (entries : next.pending.entries.length ≤ state.pending.entries.length)
    (untabled : next.client.phase.isUntabled = true → state.client.phase.isUntabled = true) :
    Windowed limits next :=
  ⟨Nat.le_trans entries windowed.bounded,
    fun now => Nat.lt_of_le_of_lt entries (windowed.room (untabled now))⟩

theorem takenUpPhase_untabled {frame : List UInt8} (untabled : (takenUpPhase json frame).isUntabled = true) :
    ∃ id rawTransaction, classify json frame = .ok (.broadcast id rawTransaction) ∧
      requestIdKey json id = none := by
  unfold takenUpPhase at untabled
  split at untabled
  · cases untabled
  · split at untabled <;> cases untabled
  · next id rawTransaction classified =>
    split at untabled
    · cases untabled
    · next unkeyed => exact ⟨id, rawTransaction, classified, unkeyed⟩
  · cases untabled

theorem Windowed.afterRead (windowed : Windowed limits state)
    (keeps : KeepsWindow json limits state (.client .read)) :
    Windowed limits { state with client := state.client.read json limits } := by
  refine ⟨windowed.bounded, fun untabled => ?_⟩
  simp only [ClientTask.read] at untabled
  split at untabled
  · next frame rest found =>
    obtain ⟨id, rawTransaction, classified, unkeyed⟩ := takenUpPhase_untabled untabled
    -- The condition on the run is about exactly this frame.
    simp only [KeepsWindow, takesUpUnkeyed, found, classified, unkeyed, Option.isNone_none, Bool.true_and,
      windowIsFull, decide_eq_false_iff_not, Nat.not_le] at keeps
    exact keeps
  · cases untabled
  · cases untabled
  · cases untabled

theorem ClientEffect.windowed {action : ClientAction} (effect : state.ClientEffect json limits action next)
    (conserved : Conserved json state) (keeps : KeepsWindow json limits state (.client action))
    (windowed : Windowed limits state) : Windowed limits next := by
  cases effect with
  | read _ _ => exact windowed.afterRead keeps
  | @reserved frame id key purpose outcome pending phase decided =>
    refine ⟨reserveRequest_bounded decided windowed.bounded, ?_⟩
    cases purpose <;> cases outcome <;> nofun
  | @released key response phase =>
    have present := (conserved.present (by rw [phase]; rfl) key).mpr (by rw [phase]; rfl)
    have shorter := length_erase present
    have fits := Nat.lt_of_lt_of_le shorter windowed.bounded
    exact ⟨Nat.le_of_lt fits, fun _ => fits⟩
  | @called _ key _ phase =>
    refine windowed.keep (Nat.le_refl _) ?_
    rw [phase]
    cases key <;> exact id
  | returnedUnkeyed phase =>
    refine windowed.keep (Nat.le_refl _) ?_
    rw [phase]
    exact id
  | @wrote remaining count phase =>
    refine windowed.keep (Nat.le_refl _) ?_
    simp only [writingPhase]
    split <;> nofun
  | observed _ _ | writeFailed _ | returned _ | answered _ _ | noticed _ _ | refused _ _ | cancelled _ _ =>
    exact windowed.keep (Nat.le_refl _) nofun

theorem UpstreamEffect.windowed {action : UpstreamAction}
    (effect : state.UpstreamEffect json limits action next) (windowed : Windowed limits state) :
    Windowed limits next := by
  have same : next.client.phase.isUntabled = true → state.client.phase.isUntabled = true := by
    rw [effect.client_eq]
    exact id
  cases effect with
  | took _ found => exact windowed.keep (Nat.le_of_lt (length_erase found)) same
  | read _ | dropped _ _ | sent _ _ | refused _ _ | cancelled _ => exact windowed.keep (Nat.le_refl _) same

theorem step_windowed {action : Action} (conserved : Conserved json state)
    (keeps : KeepsWindow json limits state action) (windowed : Windowed limits state)
    (taken : state.step json limits action = some next) : Windowed limits next := by
  rcases step_cases taken with ⟨_, rfl, effect⟩ | ⟨_, rfl, effect⟩ | quiet
  · exact effect.windowed conserved keeps windowed
  · exact effect.windowed windowed
  · refine windowed.keep (by rw [quiet.pending]) ?_
    rw [quiet.client]
    exact id

theorem ClientPhase.owedBroadcasts_cases (phase : ClientPhase) :
    phase.owedBroadcasts = 0 ∨ phase.owedBroadcasts = 1 ∧
      (phase.isUntabled = true ∨ phase.isCancelled = false ∧ ∃ key, phase.broadcastKey = some key) := by
  cases phase with
  | calling id key rawTransaction =>
    cases key with
    | none => exact .inr ⟨rfl, .inl rfl⟩
    | some key => exact .inr ⟨rfl, .inr ⟨rfl, key, rfl⟩⟩
  | relaying id key =>
    cases key with
    | none => exact .inr ⟨rfl, .inl rfl⟩
    | some key => exact .inr ⟨rfl, .inr ⟨rfl, key, rfl⟩⟩
  | releasing key response => exact .inr ⟨rfl, .inr ⟨rfl, key, rfl⟩⟩
  | responding response => exact .inr ⟨rfl, .inl rfl⟩
  | reading | reserving _ _ _ _ | writing _ | closing _ | ended _ => exact .inl rfl

theorem Windowed.owed_le (windowed : Windowed limits state) (conserved : Conserved json state) :
    state.owed ≤ limits.maxPendingRequests := by
  have bounded := windowed.bounded
  have queries := owedQueries_le state.pending
  unfold owed
  rcases ClientPhase.owedBroadcasts_cases state.client.phase with none | ⟨one, untabled | ⟨running, key, holds⟩⟩
  · omega
  · have room := windowed.room untabled
    omega
  · have fewer := owedQueries_lt ((conserved.present running key).mpr holds)
    omega

theorem run_windowed {clientInput upstreamInput : Input} {schedule : List Action}
    (execution : (machine json limits).RunsWhere (KeepsWindow json limits) (.new clientInput upstreamInput)
      schedule state) : Conserved json state ∧ Windowed limits state := by
  refine execution.preserves (motive := fun later => Conserved json later ∧ Windowed limits later) ?_
    ⟨new_conserved clientInput upstreamInput, Nat.zero_le _, nofun⟩
  rintro middle action later ⟨conserved, windowed⟩ keeps taken
  exact ⟨step_conserved conserved taken, step_windowed conserved keeps windowed taken⟩

theorem reserve_full (full : state.windowIsFull limits = true) {action : Action}
    (reserves : reservesBroadcast state action = true)
    (taken : state.step json limits action = some next) :
    next.client.phase.isStopped = true ∧ next.client.relayCalls = state.client.relayCalls := by
  cases action with
  | client move =>
    have effect := step_client taken
    cases effect with
    | @reserved frame id key purpose outcome pending phase decided =>
      refine ⟨?_, rfl⟩
      have refused := reserveRequest_full decided (by simpa [windowIsFull] using full)
      cases purpose <;> cases outcome <;> first | rfl | exact absurd rfl refused
    | observed _ _ | read _ _ | wrote _ | writeFailed _ | called _ | returned _ | returnedUnkeyed _
    | released _ | answered _ _ | noticed _ _ | refused _ _ | cancelled _ _ => cases reserves
  | upstream _ | writer _ | supervisor _ | beginShutdown => cases reserves

/-- The window covers every request that is owed a response. -/
structure CoversWindow (json : SerdeJson) (limits : ConnectionLimits) (state : Connection) : Prop where
  owed : state.owed ≤ limits.maxPendingRequests
  /-- Neither way of meeting a broadcast leads to a call while the window is full. -/
  refused : state.windowIsFull limits = true → ∀ action next more final,
    KeepsWindow json limits state action →
    (takesUpUnkeyed json limits state action || reservesBroadcast state action) = true →
    state.step json limits action = some next → (machine json limits).run next more = some final →
    final.client.relayCalls = state.client.relayCalls

theorem window_covers_owed (json : SerdeJson) (limits : ConnectionLimits) (clientInput upstreamInput : Input)
    (schedule : List Action) (state : Connection)
    (execution : (machine json limits).RunsWhere (KeepsWindow json limits) (.new clientInput upstreamInput)
      schedule state) : CoversWindow json limits state := by
  obtain ⟨conserved, windowed⟩ := run_windowed execution
  refine ⟨windowed.owed_le conserved, ?_⟩
  intro full action next more final keeps meets taken continued
  rw [Bool.or_eq_true] at meets
  rcases meets with unkeyed | reserves
  · rw [KeepsWindow, unkeyed, full] at keeps
    cases keeps
  · obtain ⟨stopped, calls⟩ := reserve_full full reserves taken
    rw [(run_stopped stopped continued).relayCalls, calls]

def nullRequest : List UInt8 :=
  utf8 ("\x7b\"id\":null,\"method\":\"blockchain.transaction.broadcast\",\"params\":[\"00aa\"]\x7d\n")

def nullSchedule : List Action :=
  [.client .read, .client .reserve, .client (.write versionQuery.length), .client .read, .client .call]

theorem window_covers_null_broadcast :
    ∃ state, (machine .reference ⟨1024, 2⟩).RunsWhere (KeepsWindow .reference ⟨1024, 2⟩)
        (.new ⟨versionQuery ++ nullRequest, .closed⟩ ⟨[], .closed⟩) nullSchedule state ∧
      state.owed = 2 ∧ CoversWindow .reference ⟨1024, 2⟩ state := by
  have outcome : ((machine .reference ⟨1024, 2⟩).runWhere (KeepsWindow .reference ⟨1024, 2⟩)
      (.new ⟨versionQuery ++ nullRequest, .closed⟩ ⟨[], .closed⟩) nullSchedule).map owed = some 2 := by
    decide +kernel
  obtain ⟨state, found, two⟩ := Option.map_eq_some_iff.mp outcome
  have execution := Machine.RunsWhere.of_runWhere found
  exact ⟨state, execution, two, window_covers_owed _ _ _ _ _ _ execution⟩

/-- With room for one, the query fills the window and the broadcast is relayed all the same. -/
theorem null_broadcast_exceeds_window :
    ∃ full state, (machine .reference ⟨1024, 1⟩).run
        (.new ⟨versionQuery ++ nullRequest, .closed⟩ ⟨[], .closed⟩) (nullSchedule.take 3) = some full ∧
      (machine .reference ⟨1024, 1⟩).run full (nullSchedule.drop 3) = some state ∧
      full.windowIsFull ⟨1024, 1⟩ = true ∧ full.client.relayCalls = [] ∧
      state.client.relayCalls = ["00aa"] ∧ state.owed = 2 := by
  have outcome : ((machine .reference ⟨1024, 1⟩).run
      (.new ⟨versionQuery ++ nullRequest, .closed⟩ ⟨[], .closed⟩) (nullSchedule.take 3)).bind (fun full =>
        ((machine .reference ⟨1024, 1⟩).run full (nullSchedule.drop 3)).map fun state =>
          (full.windowIsFull ⟨1024, 1⟩, full.client.relayCalls, state.client.relayCalls, state.owed)) =
      some (true, [], ["00aa"], 2) := by decide +kernel
  obtain ⟨full, first, later⟩ := Option.bind_eq_some_iff.mp outcome
  obtain ⟨state, second, same⟩ := Option.map_eq_some_iff.mp later
  simp only [Prod.mk.injEq] at same
  exact ⟨full, state, first, second, same⟩

end Connection

end ElectrumPrivateRelay.Proxy

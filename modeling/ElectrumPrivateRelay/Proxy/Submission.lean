import ElectrumPrivateRelay.Proxy.Deployment
import Mathlib.Data.List.Sort

/-! What reaches the adapter comes from a wallet.

The calls of the gate are the relay calls of the connections, and a connection
has one of them under way at most. So what is submitted for a connection keeps
the order of its broadcasts, however the connections interleave.
-/

set_option autoImplicit false

namespace ElectrumPrivateRelay.Proxy
open ElectrumPrivateRelay.Configuration Json Protocol Relay Semantics
open Relay.Draining (Accounted Drain)
open Relay.Stack (Linked)

def ClientTask.isParked (task : ClientTask) : Bool := task.phase.isRelaying || task.phase.isEnded

/-- The relay calls of a client come from the frames of the wallet, also after a panic. -/
structure Fed (json : SerdeJson) (limits : ConnectionLimits) (input : Input) (task : ClientTask) : Prop where
  read : FramesRead limits.maxFrameBytes input task.frames task.input
  called : task.relayCalls <+: broadcasts json task.taken
  routed : task.phase.isEnded = false → Routed json limits input task

theorem Fed.of_routed {json : SerdeJson} {limits : ConnectionLimits} {input : Input} {task : ClientTask}
    (routed : Routed json limits input task) : Fed json limits input task :=
  ⟨routed.read, ⟨_, routed.called⟩, fun _ => routed⟩

namespace Connection

variable {json : SerdeJson} {limits : ConnectionLimits} {state next : Connection} {input : Input}

theorem ClientEffect.rests {action : ClientAction} (effect : state.ClientEffect json limits action next)
    (calls : action ≠ .call) :
    next.client.relayCalls = state.client.relayCalls ∧
      ((∀ outcome, action ≠ .relayReturns outcome) → state.client.isParked = true → next.client.isParked = true) := by
  cases effect with
  | called _ => exact absurd rfl calls
  | returned _ | returnedUnkeyed _ => exact ⟨rfl, fun quiet => absurd rfl (quiet _)⟩
  | cancelled _ _ => exact ⟨rfl, fun _ _ => rfl⟩
  | read phase _ =>
    refine ⟨(read_betweenCalls json limits state.client).2, fun _ parked => ?_⟩
    simp [ClientTask.isParked, phase, ClientPhase.isRelaying, ClientPhase.isEnded] at parked
  | observed phase _ | reserved phase _ | wrote phase | writeFailed phase | released phase | answered phase _
  | noticed phase _ =>
    refine ⟨rfl, fun _ parked => ?_⟩
    simp [ClientTask.isParked, phase, ClientPhase.isRelaying, ClientPhase.isEnded] at parked
  | refused _ _ => exact ⟨rfl, fun _ _ => rfl⟩

theorem step_rests {action : Action} (calls : action ≠ .client .call)
    (taken : state.step json limits action = some next) :
    next.client.relayCalls = state.client.relayCalls ∧
      ((∀ outcome, action ≠ .client (.relayReturns outcome)) → state.client.isParked = true →
        next.client.isParked = true) := by
  rcases step_cases taken with ⟨move, rfl, effect⟩ | ⟨move, rfl, effect⟩ | quiet
  · obtain ⟨same, parked⟩ := effect.rests (by rintro rfl; exact calls rfl)
    exact ⟨same, fun quiet => parked fun outcome which => quiet outcome (congrArg Action.client which)⟩
  · rw [effect.client_eq]
    exact ⟨rfl, fun _ parked => parked⟩
  · rw [quiet.client]
    exact ⟨rfl, fun _ parked => parked⟩

theorem panic_client {subtask : FinishedTask} (taken : state.panic subtask = some next) :
    next.client = state.client ∨ next.client = { state.client with phase := .ended .panicked } := by
  cases subtask with
  | writer | upstream =>
    simp only [panic] at taken
    split at taken <;> cases taken
    exact .inl rfl
  | client =>
    simp only [panic] at taken
    split at taken <;> cases taken
    exact .inr rfl

theorem step_fed {action : Action} (fed : Fed json limits input state.client)
    (taken : state.step json limits action = some next) : Fed json limits input next.client := by
  cases ended : state.client.phase.isEnded with
  | true =>
    rw [(step_ended ended taken).1]
    exact fed
  | false => exact .of_routed (step_routed (fed.routed ended) taken)

theorem panic_fed {subtask : FinishedTask} (fed : Fed json limits input state.client)
    (taken : state.panic subtask = some next) : Fed json limits input next.client := by
  rcases panic_client taken with same | same
  · rw [same]
    exact fed
  · rw [same]
    refine ⟨fed.read, fed.called, ?_⟩
    rintro ⟨⟩

end Connection

theorem client_eq_of_kept {before after : Option Connection}
    (same : after.map Connection.kept = before.map Connection.kept) :
    after.map Connection.client = before.map Connection.client := by
  have clients := congrArg (Option.map Prod.fst) same
  rwa [Option.map_map, Option.map_map] at clients

namespace Server

variable {json : SerdeJson} {config : Config} {server next : Server}

def transactionsOf (server : Server) (index : Nat) : List String :=
  ((server.connection index).map Connection.client).elim [] ClientTask.relayCalls

def isParked (server : Server) (index : Nat) : Bool :=
  ((server.connection index).map Connection.client).any ClientTask.isParked

theorem step_rests {action : ServeAction} (sound : server.Sound config)
    (taken : server.step json config action = some next) (index : Nat)
    (calls : action ≠ .task index (.connection (.client .call))) :
    next.transactionsOf index = server.transactionsOf index ∧
      ((∀ outcome, action ≠ .task index (.connection (.client (.relayReturns outcome)))) →
        server.isParked index = true → next.isParked index = true) := by
  have touches := (step_effect taken).touches sound index
  unfold transactionsOf isParked
  revert touches
  generalize server.connection index = before
  generalize next.connection index = after
  intro touches
  cases touches with
  | kept same =>
    rw [client_eq_of_kept same]
    exact ⟨rfl, fun _ parked => parked⟩
  | opened _ =>
    refine ⟨rfl, ?_⟩
    rintro _ ⟨⟩
  | moved which moves =>
    subst which
    obtain ⟨same, parked⟩ := Connection.step_rests (by rintro rfl; exact calls rfl) moves
    refine ⟨same, fun quiet => ?_⟩
    simp only [Option.map_some, Option.any_some]
    refine parked ?_
    rintro outcome rfl
    exact quiet outcome rfl
  | panicked _ moves =>
    refine ⟨Connection.panic_relayCalls moves, fun _ parked => ?_⟩
    simp only [Option.map_some, Option.any_some] at parked ⊢
    rcases Connection.panic_client moves with same | same
    · rw [same]
      exact parked
    · rw [same]
      rfl

end Server

theorem Server.step_call {json : SerdeJson} {config : Config} {server next : Server} {index : Nat}
    {rawTransaction : String} (carries : server.uncalled index = some rawTransaction)
    (taken : server.step json config (.task index (.connection (.client .call))) = some next) :
    server.isParked index = false ∧ next.isParked index = true ∧
      next.transactionsOf index = server.transactionsOf index ++ [rawTransaction] := by
  cases step_effect taken with
  | @moved _ _ task changed selected effect =>
    have bound := (List.getElem?_eq_some_iff.mp selected).1
    cases effect with
    | @moved _ connection later found moves _ =>
      have before : server.connection index = some connection := by simp [Server.connection, selected, found]
      have after : Server.connection { server with
          slots := if task.isLive && !({ task with connection := some later } : ConnectionTask).isLive then
            server.slots + 1 else server.slots
          tasks := server.tasks.set index { task with connection := some later } } index = some later := by
        simp [Server.connection, List.getElem?_set_self bound]
      simp only [uncalled, before, Option.bind_some] at carries
      simp only [isParked, transactionsOf, before, after]
      cases Connection.step_client moves with
      | called phase =>
        simp only [phase, ClientPhase.uncalled, List.head?_cons] at carries
        cases carries
        refine ⟨?_, rfl, rfl⟩
        simp [ClientTask.isParked, phase, ClientPhase.isRelaying, ClientPhase.isEnded]
    | gaveUp _ which | stopped _ _ which => rcases which with which | which <;> cases which

/-! ## Whose call it is -/

namespace Deployment

variable {json : SerdeJson} {config : Config} {deployment next : Deployment}

def callsOf (deployment : Deployment) (index : Nat) : List Nat :=
  (List.range deployment.callers.length).filter fun call => deployment.callers[call]? = some index

def submissionsOf (deployment : Deployment) (index : Nat) : List Nat :=
  deployment.stack.owners.filter fun call => deployment.callers[call]? = some index

structure Attributed (deployment : Deployment) : Prop where
  carried : deployment.callers.length = deployment.stack.transactions.length
  relayed : ∀ index, (deployment.callsOf index).filterMap (deployment.stack.transactions[·]?) =
    deployment.server.transactionsOf index
  latest : ∀ (call index : Nat), deployment.callers[call]? = some index →
    ∃ last, deployment.awaited index = some last ∧ call ≤ last
  awaits : ∀ (index last : Nat), deployment.awaited index = some last → deployment.callers[last]? = some index
  /-- A connection has one call under way at most, and makes no other one meanwhile. -/
  busy : ∀ (call index : Nat) (gate : Draining.Call), deployment.callers[call]? = some index →
    deployment.stack.drain.calls[call]? = some gate → gate.isOver = false →
    deployment.awaited index = some call ∧ deployment.server.isParked index = true
  ordered : ∀ index, (deployment.submissionsOf index).Pairwise (· < ·)

theorem Attributed.new (config : Config) : Attributed (.new config) where
  carried := rfl
  relayed _ := rfl
  latest call index found := by simp [Deployment.new] at found
  awaits index last found := by cases found
  busy call index gate found := by simp [Deployment.new] at found
  ordered _ := List.Pairwise.nil

theorem Attributed.serve (attributed : Attributed deployment) {server : Server}
    (same : ∀ index, server.transactionsOf index = deployment.server.transactionsOf index)
    (parked : ∀ (call index : Nat) (gate : Draining.Call), deployment.callers[call]? = some index →
      deployment.awaited index = some call → deployment.stack.drain.calls[call]? = some gate → gate.isOver = false →
      deployment.server.isParked index = true → server.isParked index = true) :
    Attributed { deployment with server } where
  carried := attributed.carried
  relayed index := (attributed.relayed index).trans (same index).symm
  latest := attributed.latest
  awaits := attributed.awaits
  busy call index gate found selected under := by
    obtain ⟨awaited, before⟩ := attributed.busy call index gate found selected under
    exact ⟨awaited, parked call index gate found awaited selected under before⟩
  ordered := attributed.ordered

theorem Attributed.relay (attributed : Attributed deployment) {action : StackAction} {stack : Stack}
    (other : ∀ rawTransaction, action ≠ .call rawTransaction) (taken : deployment.stack.step action = some stack)
    {past : List StackAction} (linked : Linked past deployment.stack) :
    Attributed { deployment with stack } := by
  obtain ⟨transactions, owners⟩ := (Stack.step_effect taken).tables other
  have later := Stack.step_linked linked taken
  constructor
  · rw [transactions]
    exact attributed.carried
  · intro index
    rw [transactions]
    exact attributed.relayed index
  · exact attributed.latest
  · exact attributed.awaits
  · intro call index gate found selected under
    have known : call < deployment.stack.drain.calls.length := by
      rw [← linked.carried, ← attributed.carried]
      exact (List.getElem?_eq_some_iff.mp found).1
    obtain ⟨before, earlier, waiting⟩ := Stack.step_unfinished taken known selected under
    exact attributed.busy call index before found earlier waiting
  · intro index
    rcases owners with same | ⟨call, invoked, admitted, grown⟩
    · simp only [submissionsOf, same]
      exact attributed.ordered index
    · simp only [submissionsOf, grown, List.filter_append]
      by_cases own : deployment.callers[call]? = some index
      · -- what was submitted for the connection before is older than the call it waits for
        obtain ⟨awaited, -⟩ := attributed.busy call index _ own admitted rfl
        rw [List.filter_singleton, decide_eq_true own]
        refine List.pairwise_append.mpr ⟨attributed.ordered index, List.pairwise_singleton _ _, ?_⟩
        intro earlier member last selected
        cases List.mem_singleton.mp selected
        obtain ⟨submitted, foundEarlier⟩ := List.mem_filter.mp member
        obtain ⟨last, awaits, below⟩ := attributed.latest earlier index (of_decide_eq_true foundEarlier)
        cases awaits.symm.trans awaited
        have distinct := later.distinct
        rw [grown] at distinct
        have fresh : earlier ≠ call := by
          rintro rfl
          exact (List.nodup_append.mp distinct).2.2 earlier submitted earlier (List.mem_singleton.mpr rfl) rfl
        omega
      · rw [List.filter_singleton, decide_eq_false own]
        simpa [submissionsOf] using attributed.ordered index

theorem mem_callsOf {call index : Nat} : call ∈ deployment.callsOf index ↔ deployment.callers[call]? = some index := by
  simp only [callsOf, List.mem_filter, List.mem_range, decide_eq_true_eq, and_iff_right_iff_imp]
  exact fun found => (List.getElem?_eq_some_iff.mp found).1

theorem filter_range_snoc (callers : List Nat) (caller index : Nat) :
    ((List.range (callers ++ [caller]).length).filter fun call => (callers ++ [caller])[call]? = some index) =
      ((List.range callers.length).filter fun call => callers[call]? = some index) ++
        if caller = index then [callers.length] else [] := by
  rw [List.length_append, List.length_singleton, List.range_succ, List.filter_append]
  congr 1
  · apply List.filter_congr
    intro call inside
    rw [List.getElem?_append_left (List.mem_range.mp inside)]
  · rw [List.filter_singleton, List.getElem?_concat_length]
    by_cases same : caller = index <;> simp [same]

theorem callers_snoc {callers : List Nat} {caller call index : Nat}
    (found : (callers ++ [caller])[call]? = some index) :
    callers[call]? = some index ∨ (call = callers.length ∧ index = caller) := by
  by_cases old : call < callers.length
  · rw [List.getElem?_append_left old] at found
    exact .inl found
  · have bound := (List.getElem?_eq_some_iff.mp found).1
    rw [List.length_append, List.length_singleton] at bound
    have last : call = callers.length := by omega
    rw [last, List.getElem?_concat_length] at found
    exact .inr ⟨last, (Option.some.inj found).symm⟩

/-- A connection that makes a call waits for that one. -/
def awaitedAfter (deployment : Deployment) (index : Nat) : Nat → Option Nat :=
  Function.update deployment.awaited index (some deployment.callers.length)

theorem awaitedAfter_self (deployment : Deployment) (index : Nat) :
    deployment.awaitedAfter index index = some deployment.callers.length := Function.update_self ..

theorem awaitedAfter_other {index position : Nat} (other : position ≠ index) :
    deployment.awaitedAfter index position = deployment.awaited position := Function.update_of_ne other ..

theorem Attributed.relayed_called (attributed : Attributed deployment) {index : Nat} {rawTransaction : String}
    {transactions : List String} (appended : transactions = deployment.stack.transactions ++ [rawTransaction])
    (position : Nat) :
    ((List.range (deployment.callers ++ [index]).length).filter fun call =>
        (deployment.callers ++ [index])[call]? = some position).filterMap (transactions[·]?) =
      deployment.server.transactionsOf position ++ if index = position then [rawTransaction] else [] := by
  have size := attributed.carried
  have before : ((deployment.callsOf position).filterMap (transactions[·]?)) =
      deployment.server.transactionsOf position := by
    rw [← attributed.relayed position]
    apply List.filterMap_congr
    intro call member
    have inside := (List.getElem?_eq_some_iff.mp (mem_callsOf.mp member)).1
    rw [appended, List.getElem?_append_left (size ▸ inside)]
  rw [callsOf] at before
  rw [filter_range_snoc, List.filterMap_append, before]
  by_cases own : index = position
  · simp [own, appended, size]
  · simp [own]

theorem Attributed.latest_called (attributed : Attributed deployment) {index call position : Nat}
    (found : (deployment.callers ++ [index])[call]? = some position) :
    ∃ last, deployment.awaitedAfter index position = some last ∧ call ≤ last := by
  rcases callers_snoc found with earlier | ⟨rfl, rfl⟩
  · obtain ⟨last, awaited, below⟩ := attributed.latest call position earlier
    by_cases own : position = index
    · subst own
      have inside := (List.getElem?_eq_some_iff.mp earlier).1
      exact ⟨_, awaitedAfter_self deployment position, inside.le⟩
    · exact ⟨last, (awaitedAfter_other own).trans awaited, below⟩
  · exact ⟨_, awaitedAfter_self deployment position, Nat.le_refl _⟩

theorem Attributed.awaits_called (attributed : Attributed deployment) {index position last : Nat}
    (awaited : deployment.awaitedAfter index position = some last) :
    (deployment.callers ++ [index])[last]? = some position := by
  by_cases own : position = index
  · subst own
    cases (awaitedAfter_self deployment position).symm.trans awaited
    exact List.getElem?_concat_length
  · have found := attributed.awaits position last ((awaitedAfter_other own).symm.trans awaited)
    exact (List.getElem?_append_left (List.getElem?_eq_some_iff.mp found).1).trans found

theorem Attributed.busy_called (attributed : Attributed deployment) {index : Nat} {server : Server}
    (idle : deployment.server.isParked index = false) (parked : server.isParked index = true)
    (others : ∀ position, position ≠ index → deployment.server.isParked position = true →
      server.isParked position = true)
    {calls : List Draining.Call} {entered : Draining.Call} (appended : calls = deployment.stack.drain.calls ++ [entered])
    (size : deployment.callers.length = deployment.stack.drain.calls.length) {call position : Nat}
    {gate : Draining.Call} (found : (deployment.callers ++ [index])[call]? = some position)
    (selected : calls[call]? = some gate) (under : gate.isOver = false) :
    deployment.awaitedAfter index position = some call ∧ server.isParked position = true := by
  rcases callers_snoc found with earlier | ⟨rfl, rfl⟩
  · have inside := (List.getElem?_eq_some_iff.mp earlier).1
    rw [appended, List.getElem?_append_left (size ▸ inside)] at selected
    obtain ⟨awaited, waits⟩ := attributed.busy call position gate earlier selected under
    by_cases own : position = index
    · -- the task could not have made another call
      rw [own, idle] at waits
      cases waits
    · exact ⟨(awaitedAfter_other own).trans awaited, others position own waits⟩
  · exact ⟨awaitedAfter_self deployment position, parked⟩

theorem Attributed.call (attributed : Attributed deployment) (sound : deployment.server.Sound config) {index : Nat}
    {rawTransaction : String} {server : Server} {stack : Stack}
    (carries : deployment.server.uncalled index = some rawTransaction)
    (started : deployment.server.step json config (.task index (.connection (.client .call))) = some server)
    (invoked : deployment.stack.step (.call rawTransaction) = some stack) {past : List StackAction}
    (linked : Linked past deployment.stack) :
    Attributed { server, stack
                 awaited := deployment.awaitedAfter index
                 callers := deployment.callers ++ [index] } := by
  obtain ⟨idle, parked, grown⟩ := Server.step_call carries started
  have others : ∀ position, position ≠ index →
      server.transactionsOf position = deployment.server.transactionsOf position ∧
        (deployment.server.isParked position = true → server.isParked position = true) := by
    intro position other
    obtain ⟨same, kept⟩ := Server.step_rests sound started position (by simp [other.symm])
    exact ⟨same, kept (by simp)⟩
  obtain ⟨transactions, drain, owners⟩ : stack.transactions = deployment.stack.transactions ++ [rawTransaction] ∧
      stack.drain.calls = deployment.stack.drain.calls ++ [⟨.called, false⟩] ∧
      stack.owners = deployment.stack.owners := by
    cases Option.some.inj invoked
    exact ⟨rfl, rfl, rfl⟩
  have size : deployment.callers.length = deployment.stack.drain.calls.length :=
    attributed.carried.trans linked.carried
  constructor
  · rw [transactions, List.length_append, List.length_append, attributed.carried]
    rfl
  · intro position
    rw [callsOf, attributed.relayed_called transactions]
    by_cases own : index = position
    · subst own
      rw [if_pos rfl, grown]
    · rw [if_neg own, List.append_nil, (others position (Ne.symm own)).1]
  · exact fun _ _ found => attributed.latest_called found
  · exact fun _ _ awaited => attributed.awaits_called awaited
  · intro call position gate found selected under
    exact attributed.busy_called idle parked (fun position other => (others position other).2) drain size found
      selected under
  · intro position
    have same : (stack.owners.filter fun call => (deployment.callers ++ [index])[call]? = some position) =
        deployment.submissionsOf position := by
      rw [owners, submissionsOf]
      apply List.filter_congr
      intro call member
      rw [List.getElem?_append_left (size ▸ linked.owner_lt member)]
    simp only [submissionsOf, same]
    exact attributed.ordered position

/-- The stack has gone through a run of its own, in which the adapter returned
what it returned in the run of the process. -/
def Relays (config : Config) (past : List DeploymentAction) (stack : Stack) : Prop :=
  ∃ history, Stack.machine.run (.new config.maxConcurrentBroadcasts) history = some stack ∧
    ∀ submission outcome, .relayReturns submission outcome ∈ history →
      .relay (.relayReturns submission outcome) ∈ past

structure Traced (json : SerdeJson) (config : Config) (past : List DeploymentAction) (deployment : Deployment) :
    Prop where
  sound : deployment.server.Sound config
  relays : Relays config past deployment.stack
  attributed : Attributed deployment
  signalled : deployment.server.signalled = true → deployment.stack.drain.ShutdownBegun
  fed : ∀ index connection, deployment.server.connection index = some connection →
    ∃ clientInput upstreamInput, .server (.task index (.connected clientInput upstreamInput)) ∈ past ∧
      Fed json (connectionLimits config) clientInput connection.client

theorem Traced.new (json : SerdeJson) (config : Config) : Traced json config [] (.new config) where
  sound := .new config
  relays := ⟨[], rfl, by simp⟩
  attributed := .new config
  signalled signalled := by cases signalled
  fed index connection found := by simp [Deployment.new, Server.new, Server.connection] at found

theorem Relays.step {past : List DeploymentAction} {stack later : Stack} (relays : Relays config past stack)
    {action : StackAction} (taken : stack.step action = some later) (move : DeploymentAction)
    (returns : ∀ submission outcome, action = .relayReturns submission outcome →
      move = .relay (.relayReturns submission outcome)) : Relays config (past ++ [move]) later := by
  obtain ⟨history, execution, known⟩ := relays
  refine ⟨history ++ [action], Stack.machine.run_snoc execution taken, ?_⟩
  intro submission outcome member
  rcases List.mem_append.mp member with old | new
  · exact List.mem_append_left _ (known submission outcome old)
  · rw [returns submission outcome (List.mem_singleton.mp new).symm]
    exact List.mem_append_right _ (List.mem_singleton.mpr rfl)

theorem Relays.mono {past : List DeploymentAction} {stack : Stack} (relays : Relays config past stack)
    (move : DeploymentAction) : Relays config (past ++ [move]) stack := by
  obtain ⟨history, execution, known⟩ := relays
  exact ⟨history, execution, fun submission outcome member =>
    List.mem_append_left _ (known submission outcome member)⟩

theorem Relays.linked {past : List DeploymentAction} {stack : Stack} (relays : Relays config past stack) :
    ∃ history, Linked history stack :=
  ⟨relays.choose, (Stack.run_linked relays.choose_spec.1).1⟩

theorem dropAction_cases (stack : Stack) (call : Nat) :
    (∃ submission, dropAction stack call = .abandon submission) ∨ dropAction stack call = .gate (.cancel call) := by
  unfold dropAction
  split
  · exact .inl ⟨_, rfl⟩
  · exact .inr rfl

theorem Effect.stack {action : DeploymentAction} (effect : deployment.Effect json config action next) :
    next.stack = deployment.stack ∨ ∃ move, deployment.stack.step move = some next.stack ∧
      ∀ submission outcome, move = .relayReturns submission outcome →
        action = .relay (.relayReturns submission outcome) := by
  cases effect with
  | served _ _ | returned _ _ _ | signalled _ _ => exact .inl rfl
  | relayed which taken =>
    refine .inr ⟨_, taken, ?_⟩
    rintro submission outcome rfl
    rcases which with ⟨rfl, -⟩ | ⟨-, which⟩
    · rfl
    · cases which
  | called _ _ invoked =>
    refine .inr ⟨_, invoked, ?_⟩
    rintro submission outcome ⟨⟩
  | @abandoned index call panics server stack _ _ taken =>
    refine .inr ⟨_, taken, fun submission outcome which => ?_⟩
    rcases dropAction_cases deployment.stack call with ⟨position, shape⟩ | shape
    · rw [shape] at which
      cases which
    · rw [shape] at which
      cases which

theorem Effect.server {action : DeploymentAction} (effect : deployment.Effect json config action next) :
    next.server = deployment.server ∨ ∃ move, deployment.server.step json config move = some next.server ∧
      ∀ index clientInput upstreamInput, move = .task index (.connected clientInput upstreamInput) →
        action = .server (.task index (.connected clientInput upstreamInput)) := by
  cases effect with
  | relayed _ _ => exact .inl rfl
  | served _ taken =>
    refine .inr ⟨_, taken, ?_⟩
    rintro index clientInput upstreamInput rfl
    rfl
  | called _ taken _ | returned _ _ taken | signalled _ taken =>
    refine .inr ⟨_, taken, ?_⟩
    rintro index clientInput upstreamInput ⟨⟩
  | @abandoned index call panics server stack taken _ _ =>
    refine .inr ⟨_, taken, ?_⟩
    rintro position clientInput upstreamInput which
    cases panics <;> cases which

theorem Effect.attributed {action : DeploymentAction} (effect : deployment.Effect json config action next)
    (sound : deployment.server.Sound config) (attributed : Attributed deployment) {past : List StackAction}
    (linked : Linked past deployment.stack) : Attributed next := by
  cases effect with
  | @served move server free taken =>
    have quiet : ∀ index, move ≠ .task index (.connection (.client .call)) ∧
        ∀ outcome, move ≠ .task index (.connection (.client (.relayReturns outcome))) := by
      intro index
      constructor
      · rintro rfl
        cases free
      · rintro outcome rfl
        cases free
    refine attributed.serve (fun index => (Server.step_rests sound taken index (quiet index).1).1) ?_
    intro call index gate _ _ _ _ parked
    exact (Server.step_rests sound taken index (quiet index).1).2 (quiet index).2 parked
  | relayed which taken =>
    refine attributed.relay ?_ taken linked
    rintro rawTransaction rfl
    rcases which with ⟨-, own⟩ | ⟨-, which⟩
    · cases own
    · cases which
  | called carries started invoked => exact attributed.call sound carries started invoked linked
  | @returned index call outcome invoked server awaited ended taken =>
    refine attributed.serve (fun position => (Server.step_rests sound taken position (by simp)).1) ?_
    intro other position gate found waits selected under parked
    refine (Server.step_rests sound taken position (by simp)).2 ?_ parked
    -- the result the connection takes is that of its last call, which is over
    rintro outcome ⟨⟩
    cases waits.symm.trans awaited
    cases selected.symm.trans ended
    cases under
  | @abandoned index call panics server stack dropped awaited taken =>
    have quiet : ∀ position, (.task index (abandonment panics) : ServeAction) ≠
        .task position (.connection (.client .call)) ∧ ∀ outcome, (.task index (abandonment panics) : ServeAction) ≠
          .task position (.connection (.client (.relayReturns outcome))) := by
      intro position
      cases panics <;> simp [abandonment]
    have served : Attributed { deployment with server } := by
      refine attributed.serve (fun position => (Server.step_rests sound dropped position (quiet position).1).1) ?_
      intro call position gate _ _ _ _ parked
      exact (Server.step_rests sound dropped position (quiet position).1).2 (quiet position).2 parked
    refine served.relay ?_ taken linked
    rintro rawTransaction which
    rcases dropAction_cases deployment.stack call with ⟨position, shape⟩ | shape
    · rw [shape] at which
      cases which
    · rw [shape] at which
      cases which
  | signalled _ taken =>
    refine attributed.serve (fun index => (Server.step_rests sound taken index (by simp)).1) ?_
    intro call index gate _ _ _ _ parked
    exact (Server.step_rests sound taken index (by simp)).2 (by simp) parked

theorem Effect.begun {action : DeploymentAction} (effect : deployment.Effect json config action next)
    (begun : deployment.stack.drain.ShutdownBegun) : next.stack.drain.ShutdownBegun := by
  rcases effect.stack with same | ⟨move, moved, -⟩
  · rw [same]
    exact begun
  · rcases (Stack.step_effect moved).drain with same | ⟨inner, taken⟩
    · rw [same]
      exact begun
    · exact Draining.Drain.step_begun begun taken

theorem Effect.signals {action : DeploymentAction} (effect : deployment.Effect json config action next)
    (signalled : next.server.signalled = true) :
    deployment.server.signalled = true ∨ deployment.stack.drain.ShutdownBegun := by
  cases effect with
  | relayed _ _ => exact .inl signalled
  | served free taken =>
    have flags := (Server.step_effect taken).flags (Process.isFree_quiet free).1
    exact .inl (flags.signalled.symm.trans signalled)
  | called _ taken _ | returned _ _ taken | abandoned taken _ _ =>
    have flags := (Server.step_effect taken).flags (by simp)
    exact .inl (flags.signalled.symm.trans signalled)
  | @signalled active server begun _ =>
    obtain ⟨rest, shutdowns⟩ := List.head?_eq_some_iff.mp begun
    refine .inr ⟨.returned active, ?_, by simp⟩
    rw [shutdowns]
    exact List.mem_cons_self

theorem Effect.fed {past : List DeploymentAction} {action : DeploymentAction}
    (effect : deployment.Effect json config action next) (sound : deployment.server.Sound config)
    (fed : ∀ index connection, deployment.server.connection index = some connection →
      ∃ clientInput upstreamInput, .server (.task index (.connected clientInput upstreamInput)) ∈ past ∧
        Fed json (connectionLimits config) clientInput connection.client)
    (index : Nat) (connection : Connection) (found : next.server.connection index = some connection) :
    ∃ clientInput upstreamInput,
      .server (.task index (.connected clientInput upstreamInput)) ∈ past ++ [action] ∧
        Fed json (connectionLimits config) clientInput connection.client := by
  rcases effect.server with same | ⟨move, moved, opens⟩
  · obtain ⟨clientInput, upstreamInput, member, feeds⟩ := fed index connection (same ▸ found)
    exact ⟨clientInput, upstreamInput, List.mem_append_left _ member, feeds⟩
  · have touches := (Server.step_effect moved).touches sound index
    rw [found] at touches
    generalize before : deployment.server.connection index = earlier at touches
    cases touches with
    | kept same =>
      obtain ⟨previous, rfl, client⟩ := Option.map_eq_some_iff.mp (client_eq_of_kept same).symm
      obtain ⟨clientInput, upstreamInput, member, feeds⟩ := fed index previous before
      exact ⟨clientInput, upstreamInput, List.mem_append_left _ member, client ▸ feeds⟩
    | @opened clientInput upstreamInput stopping which =>
      refine ⟨clientInput, upstreamInput, ?_, .of_routed (Connection.new_routed clientInput upstreamInput)⟩
      rw [opens _ _ _ which]
      exact List.mem_append_right _ (List.mem_singleton.mpr rfl)
    | moved _ taken =>
      obtain ⟨clientInput, upstreamInput, member, feeds⟩ := fed index _ before
      exact ⟨clientInput, upstreamInput, List.mem_append_left _ member, Connection.step_fed feeds taken⟩
    | panicked _ taken =>
      obtain ⟨clientInput, upstreamInput, member, feeds⟩ := fed index _ before
      exact ⟨clientInput, upstreamInput, List.mem_append_left _ member, Connection.panic_fed feeds taken⟩

theorem step_traced {past : List DeploymentAction} {action : DeploymentAction}
    (traced : Traced json config past deployment) (taken : deployment.step json config action = some next) :
    Traced json config (past ++ [action]) next := by
  have effect := step_effect taken
  obtain ⟨history, linked⟩ := traced.relays.linked
  constructor
  · rcases effect.server with same | ⟨move, moved, -⟩
    · rw [same]
      exact traced.sound
    · exact traced.sound.step moved
  · rcases effect.stack with same | ⟨move, moved, returns⟩
    · rw [same]
      exact traced.relays.mono action
    · exact traced.relays.step moved action returns
  · exact effect.attributed traced.sound traced.attributed linked
  · intro signalled
    rcases effect.signals signalled with earlier | begun
    · exact effect.begun (traced.signalled earlier)
    · exact effect.begun begun
  · exact effect.fed traced.sound traced.fed

theorem run_traced {schedule : List DeploymentAction}
    (execution : (machine json config).run (.new config) schedule = some deployment) :
    Traced json config schedule deployment :=
  (machine json config).run_preserves_history (motive := Traced json config)
    (fun _ _ _ _ traced taken => step_traced traced taken) (.new json config) execution

theorem run_stack {schedule : List DeploymentAction} {final : Deployment}
    (execution : (machine json config).run deployment schedule = some final) :
    ∃ history, Stack.machine.run deployment.stack history = some final.stack := by
  refine (machine json config).run_preserves
    (motive := fun later => ∃ history, Stack.machine.run deployment.stack history = some later.stack) ?_
    ⟨[], rfl⟩ execution
  rintro middle action later ⟨history, before⟩ taken
  rcases (step_effect taken).stack with same | ⟨move, moved, -⟩
  · exact ⟨history, same ▸ before⟩
  · exact ⟨history ++ [move], Stack.machine.run_snoc before moved⟩

/-! ## What is submitted -/

/-- What the limiter got for a connection, in the order in which it got it. -/
def submitted (deployment : Deployment) (index : Nat) : List String :=
  ((deployment.stack.owners.zip deployment.stack.limiter.calls).filter fun entry =>
    deployment.callers[entry.1]? = some index).map fun entry => entry.2.rawTransaction

/-- The connection that a call of the limiter was made for. -/
def submitter (deployment : Deployment) (submission : Nat) : Option Nat :=
  (deployment.stack.owners[submission]?).bind fun call => deployment.callers[call]?

theorem map_filter_zip {Key Entry Label : Type} (keep : Key → Bool) (label : Key → Option Label)
    (read : Entry → Label) (keys : List Key) (entries : List Entry)
    (same : keys.map label = entries.map fun entry => some (read entry)) :
    ((keys.zip entries).filter fun pair => keep pair.1).map (fun pair => read pair.2) =
      (keys.filter keep).filterMap label := by
  induction keys generalizing entries with
  | nil => rfl
  | cons key keys ih =>
    cases entries with
    | nil => cases same
    | cons entry entries =>
      obtain ⟨first, rest⟩ := List.cons.inj same
      cases kept : keep key with
      | true => simp [kept, first, ih entries rest]
      | false => simp [kept, ih entries rest]

theorem Attributed.submitted_sublist (attributed : Attributed deployment) {past : List StackAction}
    (linked : Linked past deployment.stack) (index : Nat) :
    (deployment.submitted index).Sublist (deployment.server.transactionsOf index) := by
  have read : deployment.submitted index =
      (deployment.submissionsOf index).filterMap (deployment.stack.transactions[·]?) :=
    map_filter_zip (fun call => decide (deployment.callers[call]? = some index)) _ _ _ _ linked.transactions_eq
  have made : ((List.range deployment.callers.length).filter fun call =>
      deployment.callers[call]? = some index).Pairwise (· < ·) := List.pairwise_lt_range.filter _
  have inside : deployment.submissionsOf index ⊆ deployment.callsOf index := by
    intro call member
    exact mem_callsOf.mpr (of_decide_eq_true (List.mem_filter.mp member).2)
  have ordered := attributed.ordered index
  have distinct : (deployment.submissionsOf index).Nodup := ordered.imp Nat.ne_of_lt
  have chosen : (deployment.submissionsOf index).Sublist (deployment.callsOf index) :=
    List.sublist_of_subperm_of_pairwise (List.subperm_of_subset distinct inside) (ordered.imp Nat.le_of_lt)
      (made.imp Nat.le_of_lt)
  rw [read, ← attributed.relayed index]
  exact chosen.filterMap _

theorem submitter_eq {submission index : Nat} (made : deployment.submitter submission = some index) :
    ∃ call : Nat, deployment.stack.owners[submission]? = some call ∧ deployment.callers[call]? = some index :=
  Option.bind_eq_some_iff.mp made

theorem Attributed.source (attributed : Attributed deployment) {past : List StackAction}
    (linked : Linked past deployment.stack) {submission : Nat} {call : Limited.Call}
    (selected : deployment.stack.limiter.calls[submission]? = some call) :
    ∃ index connection, deployment.submitter submission = some index ∧
      deployment.server.connection index = some connection := by
  have inside := (List.getElem?_eq_some_iff.mp selected).1
  rw [← linked.submitted] at inside
  have owned := List.getElem?_eq_getElem inside
  generalize deployment.stack.owners[submission] = owner at owned
  have known : owner < deployment.callers.length := by
    rw [attributed.carried, linked.carried]
    exact linked.owner_lt (List.mem_of_getElem? owned)
  have caller := List.getElem?_eq_getElem known
  generalize deployment.callers[owner] = index at caller
  have carried := (linked.belongs submission owner call owned selected).carried
  have relayed : call.rawTransaction ∈ deployment.server.transactionsOf index := by
    rw [← attributed.relayed index]
    exact List.mem_filterMap.mpr ⟨owner, mem_callsOf.mpr caller, carried⟩
  cases found : deployment.server.connection index with
  | none => simp [Server.transactionsOf, found] at relayed
  | some connection =>
    refine ⟨index, connection, ?_, found⟩
    rw [submitter, owned, Option.bind_some, caller]

theorem Attributed.single (attributed : Attributed deployment) {past : List StackAction}
    (linked : Linked past deployment.stack) {submission index : Nat} {call : Limited.Call}
    (made : deployment.submitter submission = some index)
    (selected : deployment.stack.limiter.calls[submission]? = some call) (going : call.result = none) :
    ∃ owner, deployment.stack.owners[submission]? = some owner ∧ deployment.awaited index = some owner := by
  obtain ⟨owner, owned, caller⟩ := submitter_eq made
  obtain ⟨⟨gate, found, -, tied⟩, -⟩ := linked.belongs submission owner call owned selected
  have under : gate.isOver = false := by simp [Draining.Call.isOver, tied.unfinished going]
  exact ⟨owner, owned, (attributed.busy owner index gate caller found under).1⟩

theorem Attributed.last (attributed : Attributed deployment) {index call : Nat} {rawTransaction : String}
    (awaited : deployment.awaited index = some call)
    (carried : deployment.stack.transactions[call]? = some rawTransaction) :
    (deployment.server.transactionsOf index).getLast? = some rawTransaction := by
  have member : call ∈ deployment.callsOf index := mem_callsOf.mpr (attributed.awaits index call awaited)
  obtain ⟨front, rest, split⟩ := List.append_of_mem member
  have sorted : (deployment.callsOf index).Pairwise (· < ·) := List.pairwise_lt_range.filter _
  have nothing : rest = [] := by
    cases rest with
    | nil => rfl
    | cons later rest =>
      rw [split, List.pairwise_append, List.pairwise_cons] at sorted
      have above := sorted.2.1.1 later List.mem_cons_self
      have made : later ∈ deployment.callsOf index := by simp [split]
      obtain ⟨last, same, below⟩ := attributed.latest later index (mem_callsOf.mp made)
      cases same.symm.trans awaited
      omega
  rw [← attributed.relayed index, split, nothing, List.filterMap_append]
  simp [carried]

theorem connection_of_step {server later : Server} {index : Nat} {action : Action}
    (taken : server.step json config (.task index (.connection action)) = some later) :
    ∃ connection, server.connection index = some connection := by
  cases Server.step_effect taken with
  | moved selected effect =>
    cases effect with
    | gaveUp _ which | stopped _ _ which => rcases which with which | which <;> cases which
    | @moved _ connection _ found _ _ => exact ⟨connection, by simp [Server.connection, selected, found]⟩

/-- What the process submits and what its connections are told, at one point of a run. -/
structure Delivers (json : SerdeJson) (config : Config) (schedule : List DeploymentAction) (deployment : Deployment) :
    Prop where
  /-- For each connection, some of its broadcasts, unchanged and in the order of its frames. -/
  inOrder : ∀ index connection, deployment.server.connection index = some connection →
    (deployment.submitted index).Sublist (broadcasts json connection.client.taken)
  read : ∀ index connection, deployment.server.connection index = some connection →
    ∃ clientInput upstreamInput, .server (.task index (.connected clientInput upstreamInput)) ∈ schedule ∧
      FramesRead config.maxFrameBytes clientInput connection.client.frames connection.client.input
  /-- Every submission was made for a connection that was opened; one that has ended is kept. -/
  attributed : ∀ (submission : Nat) (call : Limited.Call),
    deployment.stack.limiter.calls[submission]? = some call → ∃ index connection,
      deployment.submitter submission = some index ∧ deployment.server.connection index = some connection
  single : ∀ (first second index : Nat) (one other : Limited.Call),
    deployment.submitter first = some index → deployment.submitter second = some index →
    deployment.stack.limiter.calls[first]? = some one → deployment.stack.limiter.calls[second]? = some other →
    one.result = none → other.result = none → first = second
  /-- A connection is told the generic failure, or what the adapter returned for its last broadcast. -/
  answered : ∀ index next, deployment.step json config (.relayReturns index) = some next →
    ∃ connection outcome, deployment.server.connection index = some connection ∧
      deployment.server.step json config (.task index (.connection (.client (.relayReturns outcome)))) =
        some next.server ∧
      (outcome = .err .failed ∨ ∃ (submission : Nat) (call : Limited.Call),
        deployment.submitter submission = some index ∧
        deployment.stack.limiter.calls[submission]? = some call ∧
        connection.client.relayCalls.getLast? = some call.rawTransaction ∧
        .relay (.relayReturns submission outcome) ∈ schedule)
  /-- Once the server has heard of the shutdown and the gate counts nothing, the
  adapter gets nothing more. -/
  silent : deployment.server.signalled = true → deployment.stack.drain.active = 0 → ∀ more final,
    (machine json config).run deployment more = some final →
      final.stack.limiter.calls = deployment.stack.limiter.calls

theorem Traced.told {schedule : List DeploymentAction} (traced : Traced json config schedule deployment)
    {index call : Nat} {outcome : Outcome} {invoked : Bool} {connection : Connection}
    (awaited : deployment.awaited index = some call)
    (ended : deployment.stack.drain.calls[call]? = some ⟨.ended (some outcome), invoked⟩)
    (found : deployment.server.connection index = some connection) :
    outcome = .err .failed ∨ ∃ (submission : Nat) (call : Limited.Call),
      deployment.submitter submission = some index ∧
      deployment.stack.limiter.calls[submission]? = some call ∧
      connection.client.relayCalls.getLast? = some call.rawTransaction ∧
      .relay (.relayReturns submission outcome) ∈ schedule := by
  obtain ⟨history, execution, known⟩ := traced.relays
  obtain ⟨linked, layered⟩ := Stack.run_linked execution
  rcases linked.answered_by (Stack.run_consistent layered) ended with failed | ⟨submission, owned, member⟩
  · exact .inl failed
  · have inside : submission < deployment.stack.limiter.calls.length := by
      rw [← linked.submitted]
      exact (List.getElem?_eq_some_iff.mp owned).1
    have selected := List.getElem?_eq_getElem inside
    have carried := (linked.belongs submission call _ owned selected).carried
    refine .inr ⟨submission, _, ?_, selected, ?_, known submission outcome member⟩
    · rw [submitter, owned, Option.bind_some, traced.attributed.awaits index call awaited]
    · have last := traced.attributed.last awaited carried
      simpa only [Server.transactionsOf, found, Option.map_some, Option.elim_some] using last

theorem Traced.answered {schedule : List DeploymentAction} (traced : Traced json config schedule deployment)
    {index : Nat} (taken : deployment.step json config (.relayReturns index) = some next) :
    ∃ connection outcome, deployment.server.connection index = some connection ∧
      deployment.server.step json config (.task index (.connection (.client (.relayReturns outcome)))) =
        some next.server ∧
      (outcome = .err .failed ∨ ∃ (submission : Nat) (call : Limited.Call),
        deployment.submitter submission = some index ∧
        deployment.stack.limiter.calls[submission]? = some call ∧
        connection.client.relayCalls.getLast? = some call.rawTransaction ∧
        .relay (.relayReturns submission outcome) ∈ schedule) := by
  cases step_effect taken with
  | relayed which _ => rcases which with ⟨which, -⟩ | ⟨which, -⟩ <;> cases which
  | returned awaited ended served =>
    obtain ⟨connection, found⟩ := connection_of_step served
    exact ⟨connection, _, found, served, traced.told awaited ended found⟩

theorem submissions_from_wallets (json : SerdeJson) (config : Config) (schedule : List DeploymentAction)
    (deployment : Deployment) (reached : (machine json config).run (.new config) schedule = some deployment) :
    Delivers json config schedule deployment := by
  have traced := run_traced reached
  obtain ⟨history, execution, known⟩ := traced.relays
  obtain ⟨linked, layered⟩ := Stack.run_linked execution
  constructor
  · intro index connection found
    obtain ⟨_, _, _, feeds⟩ := traced.fed index connection found
    have chosen := traced.attributed.submitted_sublist linked index
    simp only [Server.transactionsOf, found, Option.map_some, Option.elim_some] at chosen
    exact chosen.trans feeds.called.sublist
  · intro index connection found
    obtain ⟨clientInput, upstreamInput, member, feeds⟩ := traced.fed index connection found
    exact ⟨clientInput, upstreamInput, member, feeds.read⟩
  · intro submission call selected
    exact traced.attributed.source linked selected
  · intro first second index one other madeOne madeOther selectedOne selectedOther goingOne goingOther
    obtain ⟨owner, owned, awaited⟩ := traced.attributed.single linked madeOne selectedOne goingOne
    obtain ⟨_, sameOwner, again⟩ := traced.attributed.single linked madeOther selectedOther goingOther
    cases again.symm.trans awaited
    have bound := (List.getElem?_eq_some_iff.mp owned).1
    exact (List.getElem?_inj bound linked.distinct).mp (owned.trans sameOwner.symm)
  · exact fun index next taken => traced.answered taken
  · intro signalled idle more final later
    obtain ⟨steps, run⟩ := run_stack later
    have closed := (Stack.run_accounted layered).closed (traced.signalled signalled)
    rw [(Stack.run_drained linked layered closed idle run).1]

def twoWallets : List DeploymentAction :=
  [.server .bind, .server .accept, .server .accept,
    .server (.task 0 (.connected ⟨broadcastRequest, .closed⟩ ⟨[], .closed⟩)),
    .server (.task 1 (.connected ⟨Connection.reusingRequest, .closed⟩ ⟨[], .closed⟩)),
    .server (.task 0 (.connection (.client .read))), .server (.task 0 (.connection (.client .reserve))),
    .server (.task 1 (.connection (.client .read))), .server (.task 1 (.connection (.client .reserve))),
    .call 1, .call 0, .relay (.gate (.enter 1)), .relay (.gate (.enter 0)), .relay (.start 1),
    .relay (.limiter (.acquireRequest 0)), .relay (.limiter (.acquirePayload 0)), .relay (.relayReturns 0 (.ok "11")),
    .relay (.limiter (.releasePayload 0)), .relay (.limiter (.releaseRequest 0)), .relay (.finish 0),
    .relay (.gate (.leave 1)), .relay (.gate (.publish (.call 1))), .relay (.start 0), .relayReturns 0,
    .relay (.limiter (.acquireRequest 1)), .relay (.limiter (.acquirePayload 1))]

theorem submissions_from_two_wallets :
    ∃ deployment, (machine .reference Config.default).run (.new Config.default) twoWallets = some deployment ∧
      (deployment.submitted 0, deployment.submitted 1) = (["00aa"], ["00aa"]) ∧
      deployment.submitter 0 = some 0 ∧ deployment.submitter 1 = some 1 ∧
      Delivers .reference Config.default twoWallets deployment := by
  have outcome : ((machine .reference Config.default).run (.new Config.default) twoWallets).map
      (fun deployment => (deployment.submitted 0, deployment.submitted 1, deployment.submitter 0,
        deployment.submitter 1)) = some (["00aa"], ["00aa"], some 0, some 1) := by decide +kernel
  obtain ⟨deployment, reached, same⟩ := Option.map_eq_some_iff.mp outcome
  simp only [Prod.mk.injEq] at same
  obtain ⟨first, second, own, other⟩ := same
  exact ⟨deployment, reached, by rw [first, second], own, other, submissions_from_wallets _ _ _ _ reached⟩

end Deployment

end ElectrumPrivateRelay.Proxy

import ElectrumPrivateRelay.Proxy.Provenance
import ElectrumPrivateRelay.Relay.Chaining

/-! What a confirmation is worth when a proxy is the relay of another one.

The inner proxy talks to an upstream of its own, and its answers share a stream
with everything that upstream says. The outer adapter takes the first line of
that stream. If it takes it for a success, the inner relay has been called with
the transaction and has confirmed it.
-/

set_option autoImplicit false

namespace ElectrumPrivateRelay.Relay
open Json Protocol Proxy Semantics

variable {json : SerdeJson}

theorem framesRead_line {maxFrameBytes : Nat} {frame : List UInt8} {ending : Ending} {frames : List (List UInt8)}
    {rest : Input} (framed : IsFrame frame) (read : FramesRead maxFrameBytes ⟨frame, ending⟩ frames rest) :
    (frames = [] ∧ rest.bytes = frame) ∨ (frames = [frame] ∧ rest.bytes = []) := by
  induction read with
  | nil => exact .inl ⟨rfl, rfl⟩
  | @snoc frames middle rest found _ step ih =>
    obtain ⟨split, -, -, -⟩ := readFrame_eq_frame step
    obtain ⟨body, rfl, clear⟩ := framed
    obtain ⟨front, same, frontClear⟩ := Connection.readFrame_isFrame step
    rcases ih with ⟨rfl, whole⟩ | ⟨-, empty⟩
    · rw [whole, same, List.append_assoc, List.singleton_append] at split
      have one := lines_line rest.bytes frontClear
      rw [← split, lines_line [] clear] at one
      obtain ⟨heads, -⟩ := Prod.mk.inj one
      obtain ⟨first, -⟩ := List.cons.inj heads
      obtain rfl : body = front := List.append_cancel_right first
      refine .inr ⟨by rw [same]; rfl, ?_⟩
      simpa using split
    · rw [empty, same] at split
      simp at split

theorem answerIds_length_le (taken : List Intake) :
    (answerIds json taken).length ≤ (taken.filterMap Intake.bytes?).length := by
  induction taken with
  | nil => exact Nat.le_refl 0
  | cons intake rest ih =>
    rw [answerIds, List.flatMap_cons, ← answerIds, List.length_append]
    cases intake with
    | frame bytes reservation =>
      have one : ((Intake.frame bytes reservation).answerId json).length ≤ 1 := by
        simp only [Intake.answerId]
        repeat' split
        all_goals simp
      have kept : (Intake.frame bytes reservation :: rest).filterMap Intake.bytes? =
          bytes :: rest.filterMap Intake.bytes? := rfl
      rw [kept, List.length_cons]
      omega
    | endOfStream | unreadable _ =>
      rw [Intake.answerId, List.length_nil, Nat.zero_add]
      exact ih

theorem fields_head {name : String} {names others : List String} {tree : Tree} {first second : Option Tree}
    {firsts seconds : List (Option Tree)} (one : fields (name :: names) tree = some (first :: firsts))
    (two : fields (name :: others) tree = some (second :: seconds)) : first = second := by
  cases tree with
  | object members =>
    have left := fields_object.mp one
    have right := fields_object.mp two
    simp only [List.map_cons, List.cons.injEq] at left right
    exact Option.some.inj (left.1.symm.trans right.1)
  | array elements =>
    simp only [fields] at one two
    split at one
    · split at two
      · cases elements with
        | nil =>
          simp only [List.map_nil, List.length_nil, List.length_cons, Nat.sub_zero, List.nil_append,
            List.replicate_succ, Option.some.injEq, List.cons.injEq] at one two
          exact one.1.symm.trans two.1
        | cons element rest =>
          simp only [List.map_cons, List.cons_append, Option.some.injEq, List.cons.injEq] at one two
          exact one.1.symm.trans two.1
      · cases two
    · cases one
  | null | bool _ | number _ | string _ => cases one

namespace SocksElectrumRelay

/-- A notification is not the adapter's response: it has no identifier. -/
theorem notification_rejected {line : List UInt8} {transactionId : String}
    (read : upstreamFrame json line = some .notification) : checkResponse json line ≠ .ok transactionId := by
  intro accepted
  rcases checkResponse_cases json line with failed | ⟨tree, value, parsed, decoded, -, -⟩
  · rw [failed] at accepted
    cases accepted
  · simp only [upstreamFrame, parsed, Option.bind_some] at read
    have envelope : ∃ method, UpstreamEnvelope.ofTree json tree = some ⟨none, some method⟩ := by
      split at read
      · obtain ⟨_, _, same⟩ := Option.map_eq_some_iff.mp read
        cases same
      · next method found => exact ⟨method, found⟩
      · cases read
      · cases read
      · cases read
    obtain ⟨method, found⟩ := envelope
    obtain ⟨id, part, parts, absent, -⟩ := UpstreamEnvelope.ofTree_eq_some found
    unfold RelayResponse.ofTree at decoded
    split at decoded
    · next other result error others =>
      obtain rfl := fields_head parts others
      simp only [Option.bind_eq_bind, Option.bind_eq_some_iff, Option.pure_def] at decoded
      obtain ⟨_, ids, _, _, _, _, same⟩ := decoded
      cases same
      rcases json.optionalValue_eq_some absent with ⟨-, rfl | rfl⟩ | ⟨_, _, _, _, present⟩
      · cases ids
      · simp only [SerdeJson.requiredValue, Tree.toValue] at ids
        split at ids <;> cases ids
      · cases present
    · cases decoded

section Inner

variable {limits : ConnectionLimits} {rawTransaction : String} {ending : Ending} {schedule : List Action}
  {state : Connection}

theorem taken_request (compact : json.PrintsCompactly)
    (traced : Connection.Traced json limits ⟨request json rawTransaction, ending⟩ schedule state) :
    (state.client.frames = [] ∨ state.client.frames = [request json rawTransaction]) ∧
      ∀ bytes reservation, .frame bytes reservation ∈ state.client.taken → bytes = request json rawTransaction := by
  have framed : IsFrame (request json rawTransaction) := by
    rw [request_eq]
    exact encodeResponse_framed compact (requestValue_exact rawTransaction)
  have frames : state.client.frames = [] ∨ state.client.frames = [request json rawTransaction] :=
    (framesRead_line framed traced.routed.read).imp And.left And.left
  refine ⟨frames, fun bytes reservation member => ?_⟩
  have found : bytes ∈ state.client.frames := List.mem_filterMap.mpr ⟨_, member, rfl⟩
  rcases frames with none | one
  · rw [none] at found
    cases found
  · rw [one] at found
    exact List.mem_singleton.mp found

theorem called_once (compact : json.PrintsCompactly) (reads : json.ReadsJson) (holds : json.HoldsStrings)
    (hex : isHexTransaction rawTransaction = true)
    (traced : Connection.Traced json limits ⟨request json rawTransaction, ending⟩ schedule state)
    {outcome : Outcome} (returned : outcome ∈ outcomes schedule) :
    outcomes schedule = [outcome] ∧ state.client.relayCalls = [rawTransaction] := by
  obtain ⟨frames, same⟩ := taken_request compact traced
  have single : (answerIds json state.client.taken).length ≤ 1 := by
    refine (answerIds_length_le state.client.taken).trans ?_
    rcases frames with none | one
    · rw [ClientTask.frames] at none
      rw [none]
      exact Nat.zero_le 1
    · rw [ClientTask.frames] at one
      rw [one]
      exact Nat.le_refl 1
  have some : 0 < (outcomes schedule).length := List.length_pos_of_mem returned
  obtain ⟨ids, front, counted, -⟩ := traced.front
  have within := front.length_le
  have alone : (outcomes schedule).length = 1 := by omega
  obtain ⟨only, all⟩ := List.length_eq_one_iff.mp alone
  rw [all] at returned
  obtain rfl := List.mem_singleton.mp returned
  refine ⟨all, ?_⟩
  -- The call that returned is the only one, so none is still to be made.
  have uncalled : state.client.phase.uncalled = [] := by
    rcases traced.answering with responds | ⟨ended, -⟩
    · obtain ⟨others, split, -, length⟩ := responds.returned
      have sum := congrArg List.length split
      rw [List.length_append] at sum
      have unreturned : state.client.phase.unreturned = [] := List.length_eq_zero_iff.mp (by omega)
      cases phase : state.client.phase with
      | calling _ _ _ =>
        rw [phase] at unreturned
        cases unreturned
      | _ => rfl
    · cases phase : state.client.phase with
      | calling _ _ _ =>
        rw [phase] at ended
        cases ended
      | _ => rfl
  have called := traced.routed.called
  rw [uncalled, List.append_nil] at called
  have length : (broadcasts json state.client.taken).length = 1 := by
    rw [← answerIds_length]
    omega
  obtain ⟨transaction, whole⟩ := List.length_eq_one_iff.mp length
  rw [called, whole]
  have member : transaction ∈ broadcasts json state.client.taken := by
    rw [whole]
    exact List.mem_singleton.mpr rfl
  obtain ⟨intake, inside, relayed⟩ := List.mem_flatMap.mp member
  cases intake with
  | frame bytes reservation =>
    have classified := classify_request compact reads holds hex
    rw [← same bytes reservation inside] at classified
    simp only [Intake.relayed, classified] at relayed
    split at relayed
    · rw [List.mem_singleton.mp relayed]
    · cases relayed
  | endOfStream | unreadable _ => cases relayed

theorem answerId_request_eq (compact : json.PrintsCompactly) (reads : json.ReadsJson) (holds : json.HoldsStrings)
    (hex : isHexTransaction rawTransaction = true)
    (traced : Connection.Traced json limits ⟨request json rawTransaction, ending⟩ schedule state) {id : Value}
    (member : id ∈ answerIds json state.client.taken) : id = .string relayRequestId := by
  obtain ⟨-, same⟩ := taken_request compact traced
  obtain ⟨intake, inside, answered⟩ := List.mem_flatMap.mp member
  cases intake with
  | frame bytes reservation =>
    have classified := classify_request compact reads holds hex
    rw [← same bytes reservation inside] at classified
    simp only [Intake.answerId, classified] at answered
    split at answered
    · exact List.mem_singleton.mp answered
    · cases answered
  | endOfStream | unreadable _ => cases answered

/-- The inner proxy asks its upstream nothing. -/
theorem no_query (compact : json.PrintsCompactly) (reads : json.ReadsJson) (holds : json.HoldsStrings)
    (hex : isHexTransaction rawTransaction = true)
    (traced : Connection.Traced json limits ⟨request json rawTransaction, ending⟩ schedule state) (key : String) :
    key ∉ queryKeys json state.client.taken := by
  intro member
  obtain ⟨-, same⟩ := taken_request compact traced
  obtain ⟨intake, inside, asked⟩ := List.mem_filterMap.mp member
  unfold Intake.queryKey at asked
  split at asked
  · next bytes =>
    rw [same bytes _ inside, classify_request compact reads holds hex] at asked
    cases asked
  all_goals cases asked

end Inner

theorem confirmation_genuine (json : SerdeJson) (reads : json.ReadsJson) (compact : json.PrintsCompactly)
    (holds : json.HoldsStrings) (limits : ConnectionLimits) (rawTransaction : String)
    (hex : isHexTransaction rawTransaction = true) (ending : Ending) (upstreamInput : Input)
    (schedule : List Action) (state : Connection)
    (execution : (Connection.machine json limits).run
      (.new ⟨request json rawTransaction, ending⟩ upstreamInput) schedule = some state)
    (streamEnd : StreamEnd) (transactionId : String)
    (confirmed : (broadcast json (.answered ⟨state.writer.walletBytes, streamEnd⟩) rawTransaction).outcome =
      .ok transactionId) :
    ∃ reported, outcomes schedule = [.ok reported] ∧ state.client.relayCalls = [rawTransaction] ∧
      isTransactionId reported = true ∧ transactionId = toAsciiLowercase reported := by
  have traced := Connection.run_traced execution
  have outcome := confirmed
  rw [broadcast_outcome] at outcome
  cases found : readResponse ⟨state.writer.walletBytes, streamEnd⟩ with
  | none =>
    rw [found] at outcome
    cases outcome
  | some response =>
    rw [found, Option.map_some, Option.getD_some] at outcome
    obtain ⟨line, rest, ended, clear, bytes, -⟩ := readResponse_eq_some.mp found
    have split : state.writer.walletBytes = response ++ rest := by
      rw [ended, List.append_assoc]
      exact bytes
    have first : response ∈ (lines state.writer.walletBytes).1 := by
      have whole := lines_line rest clear
      simp only at bytes
      rw [bytes, whole, ended]
      exact List.mem_cons_self
    obtain ⟨later, sent, -⟩ := Connection.run_delivered compact execution
    have inside : response ∈ state.sent.map Sent.frame := by
      rw [sent]
      exact List.mem_append_left _ first
    obtain ⟨entry, member, rfl⟩ := List.mem_map.mp inside
    rw [split] at confirmed
    cases traced.source member with
    | @answer id returned paired same =>
      obtain ⟨answered, returns⟩ := List.of_mem_zip paired
      obtain rfl := answerId_request_eq compact reads holds hex traced answered
      obtain ⟨only, calls⟩ := called_once compact reads holds hex traced returns
      rw [same] at confirmed
      cases returned with
      | ok reported =>
        refine ⟨reported, only, calls, ?_⟩
        cases shaped : isTransactionId reported with
        | true =>
          rw [relayResponse, success_accepted reads compact holds shaped] at confirmed
          exact ⟨rfl, (Outcome.ok.inj confirmed).symm⟩
        | false =>
          have scalar : Value.IsScalar (.string relayRequestId) := trivial
          rw [relayResponse, success_rejected reads compact holds scalar shaped] at confirmed
          cases confirmed
      | err error =>
        have scalar : Value.IsScalar (.string relayRequestId) := trivial
        simp only [relayResponse, relayErrorResponse] at confirmed
        split at confirmed <;> rw [error_rejected reads compact holds scalar] at confirmed <;> cases confirmed
    | @refusal error refused same =>
      have scalar := (refusals_request refused).1
      rw [same, ProtocolError.response, error_rejected reads compact holds scalar] at confirmed
      cases confirmed
    | @response key asked _ => exact absurd asked (no_query compact reads holds hex traced key)
    | notification read => exact absurd outcome (notification_rejected read)

/-- The upstream of the inner proxy sends a success of its own and a notification
before the relay returns. -/
def forgingInput : Input :=
  ⟨objectReport.line ++ utf8 "\x7b\"method\":\"m\",\"params\":[]\x7d\n", .closed⟩

def innerSchedule : List Action :=
  [.client .read, .client .reserve, .client .call, .upstream .read, .upstream .lock,
    .client (.relayReturns (.ok reportedId)), .client .release, .client .send, .upstream .read, .upstream .send,
    .writer .receive, .writer (.write 108)]

theorem confirmation_genuine_beside_forgery :
    ∃ state, (Connection.machine .reference ⟨1024, 8⟩).run
        (.new ⟨request .reference "00aa", .closed⟩ forgingInput) innerSchedule = some state ∧
      (broadcast .reference (.answered ⟨state.writer.walletBytes, .silent⟩) "00aa").outcome =
        .ok (toAsciiLowercase reportedId) ∧
      ∃ reported, outcomes innerSchedule = [.ok reported] ∧ state.client.relayCalls = ["00aa"] ∧
        isTransactionId reported = true ∧ toAsciiLowercase reportedId = toAsciiLowercase reported := by
  have outcome : ((Connection.machine .reference ⟨1024, 8⟩).run
      (.new ⟨request .reference "00aa", .closed⟩ forgingInput) innerSchedule).map
        (fun state => (broadcast .reference (.answered ⟨state.writer.walletBytes, .silent⟩) "00aa").outcome) =
      some (.ok (toAsciiLowercase reportedId)) := by decide +kernel
  obtain ⟨state, execution, confirmed⟩ := Option.map_eq_some_iff.mp outcome
  exact ⟨state, execution, confirmed, confirmation_genuine .reference SerdeJson.reference_readsJson
    SerdeJson.reference_printsCompactly SerdeJson.reference_holdsStrings _ "00aa" (by decide +kernel) _ _ _ _ execution
    .silent _ confirmed⟩

end SocksElectrumRelay

end ElectrumPrivateRelay.Relay

import ElectrumPrivateRelay.Proxy.Connection
import ElectrumPrivateRelay.Relay.SocksElectrum

/-! A proxy behind the adapter of another one.

The line the adapter writes is a broadcast of the same transaction to the
proxy, and the line the proxy answers is a success to the adapter only if the
proxy's own relay succeeded.
-/

set_option autoImplicit false

namespace ElectrumPrivateRelay.Relay
open Json Protocol Proxy

namespace SocksElectrumRelay

variable {json : SerdeJson}

def requestValue (rawTransaction : String) : Value :=
  .object [("id", .string relayRequestId), ("method", .string broadcastMethod),
    ("params", .array [.string rawTransaction])]

theorem requestValue_exact (rawTransaction : String) : (requestValue rawTransaction).IsExact :=
  ⟨trivial, trivial, ⟨trivial, trivial⟩, trivial⟩

theorem request_eq (rawTransaction : String) :
    request json rawTransaction = encodeResponse json (requestValue rawTransaction) := by
  simp [request, encodeResponse, requestValue, Value.ofMembers, insertMember, precedes, newline]

theorem requestValue_ofTree (holds : json.HoldsStrings) (rawTransaction : String) :
    Request.ofTree json (requestValue rawTransaction).toTree =
      some ⟨some (.string relayRequestId), broadcastMethod, some (.array [.string rawTransaction])⟩ := by
  have parts : fields ["id", "method", "params"] (requestValue rawTransaction).toTree =
      some [some (.string relayRequestId), some (.string broadcastMethod),
        some (.array [.string rawTransaction])] := by
    simp [requestValue, Value.toTree, memberTrees, elementTrees, fields, field]
  have id : json.optionalValue (some (.string relayRequestId)) = some (some (.string relayRequestId)) :=
    json.optionalValue_of_fits (by simp) (holds.1 relayRequestId)
  have params : json.optionalValue (some (.array [.string rawTransaction])) =
      some (some (.array [.string rawTransaction])) :=
    json.optionalValue_of_fits (by simp) (holds.2 [rawTransaction])
  simp only [Request.ofTree, parts, id, params, requiredString, Option.bind_eq_bind, Option.bind_some,
    Option.pure_def]

theorem classify_request (compact : json.PrintsCompactly) (reads : json.ReadsJson) (holds : json.HoldsStrings)
    {rawTransaction : String} (hex : isHexTransaction rawTransaction = true) :
    classify json (request json rawTransaction) = .ok (.broadcast (.string relayRequestId) rawTransaction) := by
  have exact := requestValue_exact rawTransaction
  have parsed := reads (read_line exact)
  have valid : isValidRequestId (.string relayRequestId) = true := by decide
  rw [request_eq, encodeResponse_eq compact exact, classify_eq_verdict parsed, requestValue_ofTree holds]
  simp [Request.verdict, valid, soleTransaction, hex]

theorem readResponse_printed {value : Value} (exact : value.IsExact) (rest : List UInt8) (ending : StreamEnd) :
    readResponse ⟨value.line ++ rest, ending⟩ =
      if value.line.length ≤ maxRelayResponseBytes then some value.line else none := by
  split
  · next short => exact readResponse_eq_some.mpr (isLine_line value exact rest short)
  · next long =>
    rw [Option.eq_none_iff_forall_ne_some]
    intro response found
    have clear := encodeUtf8_newline (print_clear value exact)
    have isLine := readResponse_eq_some.mp found
    simp only [Value.line, List.append_assoc, List.cons_append, List.nil_append] at isLine
    obtain ⟨rfl, short⟩ := (isLine_iff clear).mp isLine
    exact long short

theorem broadcast_printed_failed (reads : json.ReadsJson) (holds : json.HoldsStrings) {value : Value}
    (exact : value.IsExact) (rest : List UInt8) (ending : StreamEnd) (rawTransaction : String)
    (otherwise : ∀ parts reported, fields ["id", "result", "error"] value.toTree = some parts →
      AcceptedParts reported parts → isTransactionId reported = false) :
    (broadcast json (.answered ⟨value.line ++ rest, ending⟩) rawTransaction).outcome = .err .failed := by
  rw [broadcast_outcome, readResponse_printed exact]
  split
  · rw [Option.map_some, Option.getD_some]
    rcases checkResponse_cases json value.line with failed | ⟨tree, reported, parsed, decoded, shaped, -⟩
    · exact failed
    · rw [reads (read_line exact)] at parsed
      cases parsed
      obtain ⟨parts, found, accepted⟩ := (ofTree_eq_accepted holds).mp decoded
      rw [otherwise parts reported found accepted] at shaped
      cases shaped
  · rfl

theorem error_rejected (reads : json.ReadsJson) (compact : json.PrintsCompactly) (holds : json.HoldsStrings)
    {id : Value} (scalar : id.IsScalar) (code : Int64) (message : String) (rest : List UInt8)
    (ending : StreamEnd) (rawTransaction : String) :
    (broadcast json (.answered ⟨errorResponse json id code message ++ rest, ending⟩) rawTransaction).outcome =
      .err .failed := by
  have exact := Reply.exact scalar.exact (.error code message)
  rw [errorResponse_eq, encodeResponse_eq compact exact]
  refine broadcast_printed_failed reads holds exact rest ending rawTransaction ?_
  rintro parts reported found ⟨error, rfl, -⟩
  -- There is no result.
  have noResult := fields_object.mp found
  simp [memberTrees, field] at noResult

def successStart : List Char :=
  '\x7b' :: printString "id" ++ ':' :: printString relayRequestId ++ ',' :: printString "result" ++ [':']

theorem success_length {transactionId : String} (shaped : isTransactionId transactionId = true) :
    (Reply.toValue (.string relayRequestId) (.result transactionId)).line.length ≤ maxRelayResponseBytes := by
  have text : (Reply.toValue (.string relayRequestId) (.result transactionId)).print =
      successStart ++ (printString transactionId ++ ['\x7d']) := by
    simp [Reply.toValue, Value.print, printMembers, successStart]
  have start : (encodeUtf8 successStart).length ≤ 64 := by decide
  have stop : (encodeUtf8 ['\x7d']).length = 1 := by decide
  have printed := printString_length transactionId
  have size : transactionId.utf8ByteSize = 64 := by
    simp only [isTransactionId, Bool.and_eq_true, decide_eq_true_eq] at shaped
    exact shaped.1
  rw [Value.line, text, encodeUtf8_append, encodeUtf8_append]
  simp only [List.length_append, List.length_singleton, stop, maxRelayResponseBytes]
  omega

theorem success_accepted (reads : json.ReadsJson) (compact : json.PrintsCompactly) (holds : json.HoldsStrings)
    {transactionId : String} (shaped : isTransactionId transactionId = true) (rest : List UInt8)
    (ending : StreamEnd) (rawTransaction : String) :
    (broadcast json (.answered ⟨successResponse json (.string relayRequestId) transactionId ++ rest, ending⟩)
      rawTransaction).outcome = .ok (toAsciiLowercase transactionId) := by
  have id : Value.IsExact (.string relayRequestId) := trivial
  have exact := Reply.exact id (.result transactionId)
  rw [successResponse_eq, encodeResponse_eq compact exact]
  apply broadcast_contract reads holds
  exact ⟨_, _, transactionId, isLine_line _ exact rest (success_length shaped), read_line exact,
    reports_result transactionId, shaped, rfl⟩

theorem success_rejected (reads : json.ReadsJson) (compact : json.PrintsCompactly) (holds : json.HoldsStrings)
    {id : Value} (scalar : id.IsScalar) {transactionId : String}
    (unshaped : isTransactionId transactionId = false) (rest : List UInt8)
    (ending : StreamEnd) (rawTransaction : String) :
    (broadcast json (.answered ⟨successResponse json id transactionId ++ rest, ending⟩)
      rawTransaction).outcome = .err .failed := by
  have exact := Reply.exact scalar.exact (.result transactionId)
  rw [successResponse_eq, encodeResponse_eq compact exact]
  refine broadcast_printed_failed reads holds exact rest ending rawTransaction ?_
  rintro parts reported found ⟨error, rfl, -⟩
  have result := fields_object.mp found
  simp [memberTrees, field, Value.toTree] at result
  rw [← result.2.1]
  exact unshaped

/-- The error lines a proxy can answer the adapter's request with. -/
inductive ErrorLine (json : SerdeJson) : List UInt8 → Prop where
  | relayError (relayIsDisabled : Bool) :
      ErrorLine json (relayErrorResponse json (.string relayRequestId) relayIsDisabled)
  | pendingRequestLimit : ErrorLine json (pendingRequestLimitResponse json (.string relayRequestId))
  | invalidFrame : ErrorLine json (invalidFrameResponse json)
  | protocolError {frame : List UInt8} {error : ProtocolError}
      (classified : classify json frame = .error error) : ErrorLine json (error.response json)

theorem ErrorLine.isError {line : List UInt8} (answer : ErrorLine json line) :
    ∃ id code message, Value.IsScalar id ∧ line = errorResponse json id code message := by
  cases answer with
  | relayError relayIsDisabled =>
    cases relayIsDisabled with
    | true => exact ⟨.string relayRequestId, _, _, trivial, rfl⟩
    | false => exact ⟨.string relayRequestId, _, _, trivial, rfl⟩
  | pendingRequestLimit => exact ⟨.string relayRequestId, _, _, trivial, rfl⟩
  | invalidFrame => exact ⟨.null, _, _, trivial, rfl⟩
  | @protocolError frame error classified => exact ⟨error.id, _, _, protocolError_scalar classified, rfl⟩

/-- What the adapter makes of the proxy's outcome. -/
def throughAdapter : Outcome → Outcome
  | .ok transactionId =>
    if isTransactionId transactionId then .ok (toAsciiLowercase transactionId) else .err .failed
  | .err _ => .err .failed

structure ChainsWithProxy (json : SerdeJson) : Prop where
  submits : ∀ frame id rawTransaction stream, classify json frame = .ok (.broadcast id rawTransaction) →
    (∃ body, (broadcast json (.answered stream) rawTransaction).written = body ++ [newline] ∧ newline ∉ body) ∧
    classify json (broadcast json (.answered stream) rawTransaction).written =
      .ok (.broadcast (.string relayRequestId) rawTransaction)
  succeeds : ∀ transactionId rest ending rawTransaction, isTransactionId transactionId = true →
    (broadcast json (.answered ⟨successResponse json (.string relayRequestId) transactionId ++ rest, ending⟩)
      rawTransaction).outcome = .ok (toAsciiLowercase transactionId)
  fails : ∀ line rest ending rawTransaction, ErrorLine json line →
    (broadcast json (.answered ⟨line ++ rest, ending⟩) rawTransaction).outcome = .err .failed
  chained : ∀ outcome rest ending rawTransaction,
    (broadcast json (.answered ⟨relayResponse json (.string relayRequestId) outcome ++ rest, ending⟩)
      rawTransaction).outcome = throughAdapter outcome

theorem adapter_chains_with_proxy (json : SerdeJson) (reads : json.ReadsJson) (compact : json.PrintsCompactly)
    (holds : json.HoldsStrings) : ChainsWithProxy json := by
  have fails : ∀ line rest ending rawTransaction, ErrorLine json line →
      (broadcast json (.answered ⟨line ++ rest, ending⟩) rawTransaction).outcome = .err .failed := by
    intro line rest ending rawTransaction answer
    obtain ⟨id, code, message, scalar, rfl⟩ := answer.isError
    exact error_rejected reads compact holds scalar code message rest ending rawTransaction
  constructor
  · intro frame id rawTransaction stream classified
    obtain ⟨-, -, -, -, -, -, -, -, hex⟩ := classify_broadcast classified
    have written : (broadcast json (.answered stream) rawTransaction).written = request json rawTransaction := by
      simp only [broadcast]
      split <;> rfl
    rw [written]
    refine ⟨?_, classify_request compact reads holds hex⟩
    rw [request_eq]
    exact encodeResponse_framed compact (requestValue_exact rawTransaction)
  · intro transactionId rest ending rawTransaction shaped
    exact success_accepted reads compact holds shaped rest ending rawTransaction
  · exact fails
  · intro outcome rest ending rawTransaction
    cases outcome with
    | ok transactionId =>
      cases shaped : isTransactionId transactionId with
      | true =>
        simp only [relayResponse, throughAdapter, shaped, if_true]
        exact success_accepted reads compact holds shaped rest ending rawTransaction
      | false =>
        simp only [relayResponse, throughAdapter, shaped, Bool.false_eq_true, if_false]
        have scalar : Value.IsScalar (.string relayRequestId) := trivial
        exact success_rejected reads compact holds scalar shaped rest ending rawTransaction
    | err error => exact fails _ rest ending rawTransaction (.relayError _)

theorem reference_adapter_chains : ChainsWithProxy .reference :=
  adapter_chains_with_proxy .reference SerdeJson.reference_readsJson SerdeJson.reference_printsCompactly
    SerdeJson.reference_holdsStrings

end SocksElectrumRelay

end ElectrumPrivateRelay.Relay

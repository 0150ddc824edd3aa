import ElectrumPrivateRelay.Json.Printing
import ElectrumPrivateRelay.Protocol.Requests

/-! The lines the proxy writes itself, as their reader finds them. -/

set_option autoImplicit false

namespace ElectrumPrivateRelay.Protocol
open Json

inductive Reply where
  | result (transactionId : String)
  | error (code : Int64) (message : String)
  deriving DecidableEq

def errorValue (code : Int64) (message : String) : Value :=
  .object [("code", int64Value code), ("message", .string message)]

def Reply.toValue (id : Value) : Reply → Value
  | .result transactionId => .object [("id", id), ("result", .string transactionId)]
  | .error code message => .object [("error", errorValue code message), ("id", id)]

section Encoding

variable (json : SerdeJson)

theorem successResponse_eq (id : Value) (transactionId : String) :
    successResponse json id transactionId =
      encodeResponse json (Reply.toValue id (.result transactionId)) := by
  simp [successResponse, Reply.toValue, Value.ofMembers, insertMember, precedes]

theorem errorResponse_eq (id : Value) (code : Int64) (message : String) :
    errorResponse json id code message = encodeResponse json (Reply.toValue id (.error code message)) := by
  simp [errorResponse, Reply.toValue, errorValue, Value.ofMembers, insertMember, precedes]

end Encoding

theorem int64Value_scalar (code : Int64) : (int64Value code).IsScalar := by
  unfold int64Value
  split
  · exact ⟨trivial, trivial⟩
  · next negative =>
    have below : code.toInt < 0 := by
      simpa [Int64.le_iff_toInt_le] using negative
    exact ⟨trivial, below⟩

theorem Reply.exact {id : Value} (exact : id.IsExact) (reply : Reply) : (reply.toValue id).IsExact := by
  cases reply with
  | result transactionId => exact ⟨exact, trivial, trivial⟩
  | error code message => exact ⟨⟨(int64Value_scalar code).exact, trivial, trivial⟩, exact, trivial⟩

theorem errorValue_toTree (code : Int64) (message : String) :
    (errorValue code message).toTree.toValue = errorValue code message := by
  have kept := (int64Value_scalar code).toValue_toTree
  simp [errorValue, Value.toTree, memberTrees, Tree.toValue, memberValues, kept, Value.ofMembers, insertMember,
    precedes]

def Reply.Found (members : List (String × Tree)) : Reply → Prop
  | .result transactionId =>
    field members "result" = some (some (.string transactionId)) ∧ field members "error" = some none
  | .error code message =>
    field members "result" = some none ∧
      ∃ part, field members "error" = some (some part) ∧ part.toValue = errorValue code message

/-- One object on one line that answers this identifier with either a result
or an error. -/
structure Carries (line : List UInt8) (id : Value) (reply : Reply) : Prop where
  framed : ∃ body, line = body ++ [0x0A] ∧ 0x0A ∉ body
  decoded : ∃ members part, read line = some (.object members) ∧ field members "id" = some (some part) ∧
    part.toValue = id ∧ reply.Found members

theorem Carries.id_eq {line : List UInt8} {left right : Value} {leftReply rightReply : Reply}
    (first : Carries line left leftReply) (second : Carries line right rightReply) : left = right := by
  obtain ⟨members, part, read, found, rfl, -⟩ := first.decoded
  obtain ⟨others, other, again, same, rfl, -⟩ := second.decoded
  cases read.symm.trans again
  cases found.symm.trans same
  rfl

variable {json : SerdeJson}

theorem encodeResponse_eq (compact : json.PrintsCompactly) {value : Value} (exact : value.IsExact) :
    encodeResponse json value = value.line := by
  rw [encodeResponse, utf8, compact.bytes exact, Value.line]

theorem encodeResponse_framed (compact : json.PrintsCompactly) {value : Value} (exact : value.IsExact) :
    ∃ body, encodeResponse json value = body ++ [0x0A] ∧ 0x0A ∉ body :=
  ⟨encodeUtf8 value.print, encodeResponse_eq compact exact, encodeUtf8_newline (print_clear value exact)⟩

theorem encodeResponse_carries (compact : json.PrintsCompactly) {id : Value} (scalar : id.IsScalar)
    (reply : Reply) : Carries (encodeResponse json (reply.toValue id)) id reply := by
  have exact := Reply.exact scalar.exact reply
  refine ⟨encodeResponse_framed compact exact, ?_⟩
  rw [encodeResponse_eq compact exact, read_line exact]
  cases reply with
  | result transactionId =>
    exact ⟨_, id.toTree, rfl, by simp [memberTrees, field], scalar.toValue_toTree,
      by simp [memberTrees, Value.toTree, field], by simp [memberTrees, field]⟩
  | error code message =>
    exact ⟨_, id.toTree, rfl, by simp [memberTrees, field], scalar.toValue_toTree,
      by simp [memberTrees, field], (errorValue code message).toTree, by simp [memberTrees, field],
      errorValue_toTree code message⟩

theorem validId_scalar {tree : Tree} (valid : isValidRequestId tree.toValue = true) : tree.toValue.IsScalar := by
  cases tree with
  | string value => trivial
  | number token =>
    refine ⟨?_, token.toNumber_canonical⟩
    rw [Tree.toValue] at valid
    cases kept : token.toNumber with
    | posInt _ | negInt _ => trivial
    | float _ =>
      rw [kept] at valid
      cases valid
  | null | bool _ | array _ => cases valid
  | object _ => simp [Tree.toValue, Value.ofMembers, isValidRequestId] at valid

/-- The identifier of the request in a frame, null when it has none. -/
def RequestId (json : SerdeJson) (frame : List UInt8) (id : Value) : Prop :=
  ∃ tree request, json.fromSlice frame = some tree ∧ Request.ofTree json tree = some request ∧
    id = request.id.getD .null

theorem Request.id_scalar {tree : Tree} {request : Request} (decoded : Request.ofTree json tree = some request)
    (accepted : AcceptedId request.id) : (request.id.getD .null).IsScalar := by
  obtain ⟨idPart, -, -, -, id, -, -⟩ := Request.ofTree_eq_some decoded
  rcases json.optionalValue_eq_some id with ⟨absent, -⟩ | ⟨part, -, -, -, present⟩
  · rw [absent]
    trivial
  · rw [present]
    exact validId_scalar (accepted _ present)

theorem broadcastId_scalar {frame : List UInt8} {id : Value} {rawTransaction : String}
    (classified : classify json frame = .ok (.broadcast id rawTransaction)) : id.IsScalar := by
  obtain ⟨tree, request, -, decoded, rfl, accepted, -⟩ := classify_broadcast classified
  exact Request.id_scalar decoded accepted

theorem broadcastId_eq {frame : List UInt8} {id : Value} {rawTransaction : String}
    (classified : classify json frame = .ok (.broadcast id rawTransaction)) : RequestId json frame id := by
  obtain ⟨tree, request, parsed, decoded, same, -⟩ := classify_broadcast classified
  exact ⟨tree, request, parsed, decoded, same.symm⟩

theorem passthroughId_scalar {frame : List UInt8} {id : Value}
    (classified : classify json frame = .ok (.passthrough (some id))) : id.IsScalar := by
  obtain ⟨tree, request, -, decoded, same, accepted, -⟩ := classify_passthrough.mp classified
  have scalar := Request.id_scalar decoded (same ▸ accepted)
  rwa [same, Option.getD_some] at scalar

theorem passthroughId_eq {frame : List UInt8} {id : Value}
    (classified : classify json frame = .ok (.passthrough (some id))) : RequestId json frame id := by
  obtain ⟨tree, request, parsed, decoded, same, -⟩ := classify_passthrough.mp classified
  exact ⟨tree, request, parsed, decoded, by rw [same, Option.getD_some]⟩

/-- A frame is refused without its identifier, or it is a broadcast whose
parameters are refused. -/
theorem classify_error {frame : List UInt8} {error : ProtocolError}
    (classified : classify json frame = .error error) :
    error = invalidRequest ∨
      ∃ tree request, json.fromSlice frame = some tree ∧ Request.ofTree json tree = some request ∧
        AcceptedId request.id ∧ request.method = broadcastMethod ∧
        error = invalidParams (request.id.getD .null) := by
  unfold classify at classified
  split at classified
  · cases classified
    exact .inl rfl
  · next request read =>
    obtain ⟨tree, parsed, decoded⟩ := Option.bind_eq_some_iff.mp read
    split at classified
    · cases classified
      exact .inl rfl
    · next valid =>
      have accepted := any_invalid_eq_false.mp (Bool.eq_false_iff.mpr valid)
      split at classified
      · cases classified
      · next method =>
        -- Both refusals of the parameters report the same error.
        have refused : error = invalidParams (request.id.getD .null) := by
          split at classified
          · exact (Except.error.inj classified).symm
          · split at classified
            · cases classified
            · exact (Except.error.inj classified).symm
        exact .inr ⟨tree, request, parsed, decoded, accepted, not_ne_iff.mp method, refused⟩

theorem protocolError_scalar {frame : List UInt8} {error : ProtocolError}
    (classified : classify json frame = .error error) : error.id.IsScalar := by
  rcases classify_error classified with rfl | ⟨tree, request, -, decoded, accepted, -, rfl⟩
  · trivial
  · exact Request.id_scalar decoded accepted

end ElectrumPrivateRelay.Protocol

import ElectrumPrivateRelay.Json.Serde

/-! Client requests and the responses the proxy writes itself.

A frame is decoded leniently into a `Request`; only what a broadcast carries is
checked further. Every other method passes through unread.
-/

set_option autoImplicit false

namespace ElectrumPrivateRelay.Protocol
open Json

def broadcastMethod : String := "blockchain.transaction.broadcast"
def maxRequestIdStringBytes : Nat := 256

def utf8 (text : String) : List UInt8 := text.toUTF8.data.toList

inductive ClientFrame where
  | broadcast (id : Value) (rawTransaction : String)
  | passthrough (id : Option Value)

structure ProtocolError where
  id : Value
  code : Int64
  message : String

structure Request where
  id : Option Value
  method : String
  params : Option Value

def isValidRequestId : Value → Bool
  | .number (.posInt _) | .number (.negInt _) => true
  | .string value => value.utf8ByteSize ≤ maxRequestIdStringBytes
  | _ => false

def isAsciiHexdigit (byte : UInt8) : Bool :=
  (0x30 ≤ byte && byte ≤ 0x39) || (0x41 ≤ byte && byte ≤ 0x46) || (0x61 ≤ byte && byte ≤ 0x66)

section Responses

variable (json : SerdeJson)

def encodeResponse (value : Value) : List UInt8 := utf8 (json.toText value) ++ [0x0A]

def int64Value (value : Int64) : Value :=
  if 0 ≤ value then .number (.posInt (.ofNat value.toInt.toNat)) else .number (.negInt value)

def errorResponse (id : Value) (code : Int64) (message : String) : List UInt8 :=
  encodeResponse json (.ofMembers [
    ("id", id),
    ("error", .ofMembers [("code", int64Value code), ("message", .string message)])])

def ProtocolError.response (error : ProtocolError) : List UInt8 :=
  errorResponse json error.id error.code error.message

def invalidRequest : ProtocolError := ⟨.null, -32600, "invalid Electrum request"⟩

def invalidParams (id : Value) : ProtocolError :=
  ⟨id, -32602, "broadcast expects one hex-encoded transaction"⟩

def successResponse (id : Value) (transactionId : String) : List UInt8 :=
  encodeResponse json (.ofMembers [("id", id), ("result", .string transactionId)])

def relayErrorResponse (id : Value) (relayIsDisabled : Bool) : List UInt8 :=
  if relayIsDisabled then errorResponse json id (-32090) "private broadcasting is not configured"
  else errorResponse json id (-32091) "private broadcast failed; no public fallback was attempted"

def invalidFrameResponse : List UInt8 := invalidRequest.response json

def pendingRequestLimitResponse (id : Value) : List UInt8 :=
  errorResponse json id (-32092) "too many pending requests"

end Responses

section Classification

variable (json : SerdeJson)

def Request.ofTree (tree : Tree) : Option Request :=
  match fields ["id", "method", "params"] tree with
  | some [id, method, params] => do
    let id ← json.optionalValue id
    let method ← requiredString method
    let params ← json.optionalValue params
    return ⟨id, method, params⟩
  | _ => none

theorem Request.ofTree_eq_some {json : SerdeJson} {tree : Tree} {request : Request}
    (decoded : Request.ofTree json tree = some request) :
    ∃ id method params, fields ["id", "method", "params"] tree = some [id, method, params] ∧
      json.optionalValue id = some request.id ∧ requiredString method = some request.method ∧
      json.optionalValue params = some request.params := by
  unfold Request.ofTree at decoded
  split at decoded
  · next id method params parts =>
    simp only [Option.bind_eq_bind, Option.bind_eq_some_iff] at decoded
    obtain ⟨idValue, ids, methodName, methods, paramsValue, paramss, same⟩ := decoded
    cases same
    exact ⟨id, method, params, parts, ids, methods, paramss⟩
  · cases decoded

/-- The one transaction of the parameters: alone in an array, or the legacy
bare string. -/
def soleTransaction : Option Value → Option String
  | some (.array [.string value]) => some value
  | some (.string value) => some value
  | _ => none

def isHexTransaction (rawTransaction : String) : Bool :=
  !rawTransaction.isEmpty && rawTransaction.utf8ByteSize % 2 = 0 &&
    (utf8 rawTransaction).all isAsciiHexdigit

def classify (frame : List UInt8) : Except ProtocolError ClientFrame :=
  match (json.fromSlice frame).bind (Request.ofTree json) with
  | none => .error invalidRequest
  | some request =>
    -- An identifier that cannot be correlated is not echoed either.
    if request.id.any fun id => !isValidRequestId id then .error invalidRequest
    else if request.method ≠ broadcastMethod then .ok (.passthrough request.id)
    else
      let id := request.id.getD .null
      match soleTransaction request.params with
      | none => .error (invalidParams id)
      | some rawTransaction =>
        if isHexTransaction rawTransaction then .ok (.broadcast id rawTransaction)
        else .error (invalidParams id)

variable {json}

/-- The identifier a request may carry, absent or null included. -/
def AcceptedId (id : Option Value) : Prop := ∀ value, id = some value → isValidRequestId value = true

theorem any_invalid_eq_false {id : Option Value} :
    (id.any fun value => !isValidRequestId value) = false ↔ AcceptedId id := by
  cases id <;> simp [AcceptedId]

theorem accepted_not_object {members : List (String × Tree)} {id : Option Value}
    (decoded : json.optionalValue (some (.object members)) = some id) : ¬ AcceptedId id := by
  intro accepted
  rcases json.optionalValue_eq_some decoded with ⟨-, absent | null⟩ | ⟨tree, same, -, -, rfl⟩
  · cases absent
  · cases null
  · cases same
    have valid := accepted _ rfl
    simp [Tree.toValue, Value.ofMembers, isValidRequestId] at valid

theorem classify_passthrough {frame : List UInt8} {id : Option Value} :
    classify json frame = .ok (.passthrough id) ↔
      ∃ tree request, json.fromSlice frame = some tree ∧ Request.ofTree json tree = some request ∧
        request.id = id ∧ AcceptedId id ∧ request.method ≠ broadcastMethod := by
  unfold classify
  split
  · next unread =>
    simp only [reduceCtorEq, false_iff]
    rintro ⟨tree, request, parsed, decoded, -⟩
    simp [parsed, decoded] at unread
  · next request read =>
    obtain ⟨tree, parsed, decoded⟩ := Option.bind_eq_some_iff.mp read
    -- A frame has one reading, so a request found in it is the request.
    have same : ∀ {other : Tree} {found : Request}, json.fromSlice frame = some other →
        Request.ofTree json other = some found → found = request := by
      intro other found otherParsed otherDecoded
      rw [otherParsed, Option.bind_some, otherDecoded] at read
      exact Option.some.inj read
    constructor
    · intro classified
      split at classified
      · cases classified
      · next valid =>
        split at classified
        · next method =>
          cases classified
          exact ⟨tree, request, parsed, decoded, rfl,
            any_invalid_eq_false.mp (Bool.eq_false_iff.mpr valid), method⟩
        · split at classified
          · cases classified
          · split at classified <;> cases classified
    · rintro ⟨other, found, otherParsed, otherDecoded, rfl, accepted, method⟩
      obtain rfl := same otherParsed otherDecoded
      rw [any_invalid_eq_false.mpr accepted]
      simp [method]

theorem classify_broadcast {frame : List UInt8} {id : Value} {rawTransaction : String}
    (classified : classify json frame = .ok (.broadcast id rawTransaction)) :
    ∃ tree request, json.fromSlice frame = some tree ∧ Request.ofTree json tree = some request ∧
      request.id.getD .null = id ∧ AcceptedId request.id ∧ request.method = broadcastMethod ∧
      soleTransaction request.params = some rawTransaction ∧
      isHexTransaction rawTransaction = true := by
  unfold classify at classified
  split at classified
  · cases classified
  · next request read =>
    obtain ⟨tree, parsed, decoded⟩ := Option.bind_eq_some_iff.mp read
    split at classified
    · cases classified
    · next valid =>
      split at classified
      · cases classified
      · next method =>
        split at classified
        · cases classified
        · next sole =>
          split at classified
          · next hex =>
            cases classified
            exact ⟨tree, request, parsed, decoded, rfl,
              any_invalid_eq_false.mp (Bool.eq_false_iff.mpr valid), not_ne_iff.mp method, sole, hex⟩
          · cases classified

theorem toValue_eq_string {tree : Tree} {value : String} (same : tree.toValue = .string value) :
    tree = .string value := by
  cases tree with
  | string found =>
    cases same
    rfl
  | null | bool _ | number _ | array _ | object _ => simp [Tree.toValue, Value.ofMembers] at same

theorem toValue_eq_singleton {tree : Tree} {value : String}
    (same : tree.toValue = .array [.string value]) : tree = .array [.string value] := by
  cases tree with
  | array elements =>
    rw [Tree.toValue, Value.array.injEq] at same
    rcases elements with _ | ⟨element, rest⟩
    · cases same
    · rw [elementValues, List.cons.injEq] at same
      obtain ⟨head, tail⟩ := same
      rcases rest with _ | ⟨second, others⟩
      · rw [toValue_eq_string head]
      · cases tail
  | null | bool _ | number _ | string _ | object _ => simp [Tree.toValue, Value.ofMembers] at same

theorem soleTransaction_size {tree : Tree} {rawTransaction : String}
    (sole : soleTransaction (some tree.toValue) = some rawTransaction) :
    rawTransaction.utf8ByteSize ≤ tree.stringBytes := by
  unfold soleTransaction at sole
  split at sole
  · next single =>
    cases sole
    rw [toValue_eq_singleton (Option.some.inj single)]
    simp [Tree.stringBytes, elementBytes]
  · next single =>
    cases sole
    rw [toValue_eq_string (Option.some.inj single)]
    simp [Tree.stringBytes]
  · cases sole

theorem classify_broadcast_size (within : json.DecodesWithinText) {frame : List UInt8} {id : Value}
    {rawTransaction : String} (classified : classify json frame = .ok (.broadcast id rawTransaction)) :
    rawTransaction.utf8ByteSize ≤ frame.length := by
  obtain ⟨tree, request, parsed, decoded, -, -, -, sole, -⟩ := classify_broadcast classified
  have textLe := within parsed
  obtain ⟨idPart, methodPart, paramsPart, parts, -, -, params⟩ := Request.ofTree_eq_some decoded
  rcases json.optionalValue_eq_some params with ⟨absent, -⟩ | ⟨part, rfl, -, -, present⟩
  · rw [absent] at sole
    cases sole
  · rw [present] at sole
    calc rawTransaction.utf8ByteSize ≤ part.stringBytes := soleTransaction_size sole
      _ ≤ tree.stringBytes := fields_within parts (by simp)
      _ ≤ frame.length := textLe

end Classification

def versionQuery : List UInt8 :=
  utf8 "\x7b\"id\":1,\"method\":\"server.version\",\"params\":[]\x7d\n"

def broadcastRequest : List UInt8 :=
  utf8 ("\x7b\"id\":2,\"method\":\"blockchain.transaction.broadcast\",\"params\":[\"00aa\"]\x7d\n")

example : classify .reference versionQuery = .ok (.passthrough (some (.number (.posInt 1)))) := rfl

example : classify .reference broadcastRequest = .ok (.broadcast (.number (.posInt 2)) "00aa") := rfl

end ElectrumPrivateRelay.Protocol

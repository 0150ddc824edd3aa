import ElectrumPrivateRelay.Protocol.Lines
import ElectrumPrivateRelay.Protocol.ObjectFrames
import ElectrumPrivateRelay.Proxy.Frames
import ElectrumPrivateRelay.Relay.Outcome

/-! The adapter that submits to one Electrum server through SOCKS5.

What the network does is an argument: whether the connection and the write
succeed, and the bytes that arrive before the read times out.
-/

set_option autoImplicit false

namespace ElectrumPrivateRelay.Relay
open Json Protocol Proxy

def relayRequestId : String := "electrum-private-relay"
def maxRelayResponseBytes : Nat := 64 * 1024

structure RelayResponse where
  id : Value
  result : Option Value
  error : Option Value

def RelayResponse.ofTree (json : SerdeJson) (tree : Tree) : Option RelayResponse :=
  match fields ["id", "result", "error"] tree with
  | some [id, result, error] => do
    let id ← json.requiredValue id
    let result ← json.optionalValue result
    let error ← json.optionalValue error
    return ⟨id, result, error⟩
  | _ => none

inductive StreamEnd where
  | closed
  | failed
  /-- Nothing more arrives before the timeout. -/
  | silent
  deriving DecidableEq, Repr

structure ResponseStream where
  bytes : List UInt8
  ending : StreamEnd
  deriving DecidableEq, Repr

/-- One exchange with the relay; a failure and a timeout are treated alike. -/
inductive Exchange where
  | unconnected
  | unwritten (accepted : Nat)
  | answered (stream : ResponseStream)
  deriving DecidableEq, Repr

structure Submission where
  written : List UInt8
  outcome : Outcome
  deriving DecidableEq, Repr

namespace SocksElectrumRelay

def asStr : Value → Option String
  | .string value => some value
  | _ => none

def toAsciiLowercase (text : String) : String := .ofList (text.toList.map Char.toLower)

def isTransactionId (candidate : String) : Bool :=
  candidate.utf8ByteSize = 64 && (utf8 candidate).all isAsciiHexdigit

variable (json : SerdeJson)

def request (rawTransaction : String) : List UInt8 :=
  utf8 (json.toText (.ofMembers [
    ("id", .string relayRequestId),
    ("method", .string broadcastMethod),
    ("params", .array [.string rawTransaction])])) ++ [newline]

/-- The line of the response, `none` when it is missing, broken or too long. -/
def readResponse (stream : ResponseStream) : Option (List UInt8) :=
  let response := (readUntil newline (maxRelayResponseBytes + 1) stream.bytes).1
  -- A short read without a newline goes on until the stream ends.
  if response.length ≤ maxRelayResponseBytes && response.getLast? ≠ some newline &&
      stream.ending ≠ .closed then none
  else if response.length = 0 || maxRelayResponseBytes < response.length ||
      response.getLast? ≠ some newline then none
  else some response

def checkResponse (response : List UInt8) : Outcome :=
  match (json.fromSlice response).bind (RelayResponse.ofTree json) with
  | none => .err .failed
  | some response =>
    if asStr response.id ≠ some relayRequestId || response.error.isSome then .err .failed
    else match (response.result.bind asStr).filter isTransactionId with
      | some transactionId => .ok (toAsciiLowercase transactionId)
      | none => .err .failed

def broadcast (exchange : Exchange) (rawTransaction : String) : Submission :=
  match exchange with
  | .unconnected => ⟨[], .err .failed⟩
  | .unwritten accepted => ⟨(request json rawTransaction).take accepted, .err .failed⟩
  | .answered stream =>
    match readResponse stream with
    | none => ⟨request json rawTransaction, .err .failed⟩
    | some response => ⟨request json rawTransaction, checkResponse json response⟩

/-- The bytes up to the first newline, which is within the limit. -/
def IsLine (bytes response : List UInt8) : Prop :=
  ∃ line rest, response = line ++ [newline] ∧ newline ∉ line ∧ bytes = line ++ newline :: rest ∧
    response.length ≤ maxRelayResponseBytes

theorem readResponse_eq_some {stream : ResponseStream} {response : List UInt8} :
    readResponse stream = some response ↔ IsLine stream.bytes response := by
  constructor
  · intro found
    have whole := readUntil_append newline (maxRelayResponseBytes + 1) stream.bytes
    simp only [readResponse] at found
    split at found
    · cases found
    · split at found
      · cases found
      · next sized =>
        cases found
        simp only [Bool.or_eq_true, decide_eq_true_eq, not_or, Nat.not_lt, ne_eq, not_not] at sized
        rcases readUntil_clear newline (maxRelayResponseBytes + 1) stream.bytes with
          ⟨line, same, clear⟩ | clear
        · refine ⟨line, (readUntil newline (maxRelayResponseBytes + 1) stream.bytes).2, same, clear, ?_,
            sized.1.2⟩
          rw [same, List.append_assoc] at whole
          exact whole.symm
        · exact absurd (List.mem_of_mem_getLast? sized.2) clear
  · rintro ⟨line, rest, rfl, clear, whole, short⟩
    simp only [List.length_append, List.length_singleton] at short
    have room : line.length < maxRelayResponseBytes + 1 := by omega
    have read := readUntil_line rest clear room
    simp only [readResponse, whole, read, List.getLast?_concat, List.length_append, List.length_singleton]
    simp only [ne_eq, not_true_eq_false, decide_false, Bool.and_false, Bool.false_and, Bool.or_false,
      Bool.false_eq_true, if_false]
    rw [if_neg]
    simp only [Bool.or_eq_true, decide_eq_true_eq, not_or]
    omega

variable {json}

def AcceptedParts (value : String) (parts : List (Option Tree)) : Prop :=
  ∃ error, parts = [some (.string relayRequestId), some (.string value), error] ∧
    (error = none ∨ error = some .null)

theorem ofTree_eq_accepted (holds : json.HoldsStrings) {tree : Tree} {value : String} :
    RelayResponse.ofTree json tree = some ⟨.string relayRequestId, some (.string value), none⟩ ↔
      ∃ parts, fields ["id", "result", "error"] tree = some parts ∧ AcceptedParts value parts := by
  unfold RelayResponse.ofTree
  constructor
  · intro decoded
    split at decoded
    · next id result error parts =>
      simp only [Option.bind_eq_bind, Option.bind_eq_some_iff, Option.pure_def] at decoded
      obtain ⟨idValue, ids, resultValue, results, errorValue, errors, same⟩ := decoded
      cases same
      have idPart : id = some (.string relayRequestId) := by
        cases id with
        | none => cases ids
        | some tree =>
          simp only [SerdeJson.requiredValue] at ids
          split at ids
          · rw [toValue_eq_string (Option.some.inj ids)]
          · cases ids
      have resultPart : result = some (.string value) := by
        rcases json.optionalValue_eq_some results with ⟨absent, -⟩ | ⟨tree, rfl, -, -, same⟩
        · cases absent
        · rw [toValue_eq_string (Option.some.inj same).symm]
      have errorPart : error = none ∨ error = some .null := by
        rcases json.optionalValue_eq_some errors with ⟨-, absent⟩ | ⟨tree, -, -, -, present⟩
        · exact absent
        · cases present
      exact ⟨_, parts, error, by rw [idPart, resultPart], errorPart⟩
    · cases decoded
  · rintro ⟨parts, found, error, rfl, absent⟩
    have errors : json.optionalValue error = some none := by
      rcases absent with rfl | rfl <;> rfl
    have results : json.optionalValue (some (.string value)) = some (some (.string value)) :=
      json.optionalValue_of_fits (by simp) (holds.1 value)
    simp only [found, SerdeJson.requiredValue, holds.1, if_true, results, errors, Option.bind_eq_bind,
      Option.bind_some, Option.pure_def, Tree.toValue]

theorem asStr_eq_some {value : Value} {text : String} : asStr value = some text ↔ value = .string text := by
  cases value <;> simp [asStr]

theorem checkResponse_cases (json : SerdeJson) (response : List UInt8) :
    checkResponse json response = .err .failed ∨
      ∃ tree value, json.fromSlice response = some tree ∧
        RelayResponse.ofTree json tree = some ⟨.string relayRequestId, some (.string value), none⟩ ∧
        isTransactionId value = true ∧ checkResponse json response = .ok (toAsciiLowercase value) := by
  unfold checkResponse
  split
  · exact .inl rfl
  · next response found =>
    obtain ⟨tree, parsed, decoded⟩ := Option.bind_eq_some_iff.mp found
    split
    · exact .inl rfl
    · next matching =>
      simp only [Bool.or_eq_true, decide_eq_true_eq, not_or, ne_eq, not_not, Bool.not_eq_true,
        Option.isSome_eq_false_iff, Option.isNone_iff_eq_none] at matching
      split
      · next value kept =>
        obtain ⟨found, shaped⟩ := Option.filter_eq_some_iff.mp kept
        obtain ⟨result, present, text⟩ := Option.bind_eq_some_iff.mp found
        obtain ⟨id, resultField, error⟩ := response
        obtain ⟨idText, noError⟩ := matching
        cases asStr_eq_some.mp idText
        cases asStr_eq_some.mp text
        cases present
        cases noError
        exact .inr ⟨tree, value, parsed, decoded, shaped, rfl⟩
      · exact .inl rfl

theorem checkResponse_eq_ok (holds : json.HoldsStrings) {response : List UInt8} {transactionId : String} :
    checkResponse json response = .ok transactionId ↔
      ∃ tree parts value, json.fromSlice response = some tree ∧
        fields ["id", "result", "error"] tree = some parts ∧ AcceptedParts value parts ∧
        isTransactionId value = true ∧ transactionId = toAsciiLowercase value := by
  constructor
  · intro accepted
    rcases checkResponse_cases json response with failed | ⟨tree, value, parsed, decoded, shaped, same⟩
    · rw [failed] at accepted
      cases accepted
    · rw [same] at accepted
      cases accepted
      obtain ⟨parts, found, acceptable⟩ := (ofTree_eq_accepted holds).mp decoded
      exact ⟨tree, parts, value, parsed, found, acceptable, shaped, rfl⟩
  · rintro ⟨tree, parts, value, parsed, found, acceptable, shaped, rfl⟩
    have decoded := (ofTree_eq_accepted holds).mpr ⟨parts, found, acceptable⟩
    have kept : Option.filter isTransactionId (some value) = some value :=
      Option.filter_eq_some_iff.mpr ⟨rfl, shaped⟩
    simp [checkResponse, parsed, decoded, asStr, kept]

/-- An object whose identifier is the request's, without an error, with this
transaction ID. -/
structure Reports (members : List (String × Tree)) (value : String) : Prop where
  id : occurrences members "id" = 1 ∧ ("id", .string relayRequestId) ∈ members
  error : occurrences members "error" ≤ 1 ∧ ∀ error, ("error", error) ∈ members → error = .null
  result : occurrences members "result" = 1 ∧ ("result", .string value) ∈ members

theorem field_eq_some_some {members : List (String × Tree)} {name : String} {value : Tree} :
    field members name = some (some value) ↔ occurrences members name = 1 ∧ (name, value) ∈ members := by
  constructor
  · intro read
    exact ⟨(FoundByAll.of_field read).count, field_mem read⟩
  · rintro ⟨once, member⟩
    have kept : (name, value) ∈ members.filter fun member => member.1 = name :=
      List.mem_filter.mpr ⟨member, by simp⟩
    obtain ⟨only, same⟩ := List.length_eq_one_iff.mp once
    rw [same, List.mem_singleton] at kept
    simp only [field, same, ← kept]

theorem fields_object_accepted {members : List (String × Tree)} {value : String} :
    (∃ parts, fields ["id", "result", "error"] (.object members) = some parts ∧ AcceptedParts value parts) ↔
      Reports members value := by
  constructor
  · rintro ⟨parts, found, error, rfl, absent⟩
    have each := fields_object.mp found
    simp only [List.map_cons, List.map_nil, List.cons.injEq, and_true] at each
    obtain ⟨id, result, errorField⟩ := each
    refine ⟨field_eq_some_some.mp id, ⟨?_, ?_⟩, field_eq_some_some.mp result⟩
    · rw [(FoundByAll.of_field errorField).count]
      cases error <;> simp
    · intro other member
      have same := field_unique errorField member
      rcases absent with rfl | rfl
      · cases same
      · exact (Option.some.inj same).symm
  · rintro ⟨id, ⟨atMost, null⟩, result⟩
    have errorField : ∃ error, field members "error" = some error ∧ (error = none ∨ error = some .null) := by
      unfold occurrences at atMost
      cases errors : members.filter fun member => member.1 = "error" with
      | nil => exact ⟨none, by simp [field, errors], .inl rfl⟩
      | cons first rest =>
        obtain ⟨key, value⟩ := first
        have member : (key, value) ∈ members.filter fun member => member.1 = "error" := by simp [errors]
        obtain ⟨inside, named⟩ := List.mem_filter.mp member
        have same : key = "error" := by simpa using named
        have isNull := null value (same ▸ inside)
        have alone : rest = [] := by
          rw [errors, List.length_cons] at atMost
          exact List.length_eq_zero_iff.mp (by omega)
        exact ⟨some .null, by simp [field, errors, alone, isNull], .inr rfl⟩
    obtain ⟨error, found, absent⟩ := errorField
    refine ⟨_, fields_object.mpr ?_, error, rfl, absent⟩
    simp only [List.map_cons, List.map_nil, field_eq_some_some.mpr id, field_eq_some_some.mpr result, found]

/-- The elements of an array that is read by position as such an object. -/
def ReportsByPosition (elements : List Tree) (value : String) : Prop :=
  elements = [.string relayRequestId, .string value] ∨
    elements = [.string relayRequestId, .string value, .null]

theorem fields_array_accepted {elements : List Tree} {value : String} :
    (∃ parts, fields ["id", "result", "error"] (.array elements) = some parts ∧ AcceptedParts value parts) ↔
      ReportsByPosition elements value := by
  constructor
  · rintro ⟨parts, found, error, rfl, absent⟩
    simp only [fields] at found
    split at found
    · next few =>
      have same := Option.some.inj found
      rcases elements with _ | ⟨first, _ | ⟨second, _ | ⟨third, more⟩⟩⟩
      · cases same
      · cases same
      · simp at same
        exact .inl (by rw [same.1, same.2.1])
      · simp only [List.map_cons, List.cons_append, List.cons.injEq, Option.some.injEq] at same
        obtain ⟨id, result, last, none⟩ := same
        have alone : more = [] := by
          simp only [List.length_cons, List.length_nil] at few
          exact List.length_eq_zero_iff.mp (by omega)
        rcases absent with rfl | rfl
        · cases last
        · exact .inr (by rw [id, result, Option.some.inj last, alone])
    · cases found
  · rintro (rfl | rfl)
    · exact ⟨_, rfl, none, rfl, .inl rfl⟩
    · exact ⟨_, rfl, some .null, rfl, .inr rfl⟩

def ReportedBy (value : String) : Tree → Prop
  | .object members => Reports members value
  | .array elements => ReportsByPosition elements value
  | .null | .bool _ | .number _ | .string _ => False

theorem fields_accepted {tree : Tree} {value : String} :
    (∃ parts, fields ["id", "result", "error"] tree = some parts ∧ AcceptedParts value parts) ↔
      ReportedBy value tree := by
  cases tree with
  | object members => exact fields_object_accepted
  | array elements => exact fields_array_accepted
  | null | bool _ | number _ | string _ =>
    constructor
    · rintro ⟨parts, found, -⟩
      cases found
    · exact False.elim

/-- The stream starts with a line that is the JSON text of an object that
reports this transaction ID. -/
def FollowsContract (bytes : List UInt8) (transactionId : String) : Prop :=
  ∃ response members value, IsLine bytes response ∧ read response = some (.object members) ∧
    Reports members value ∧ isTransactionId value = true ∧ transactionId = toAsciiLowercase value

/-- The stream starts with a line that is the JSON text of an array that reports
a transaction ID by position. -/
def FollowsByPosition (bytes : List UInt8) : Prop :=
  ∃ response elements value, IsLine bytes response ∧ read response = some (.array elements) ∧
    ReportsByPosition elements value ∧ isTransactionId value = true

variable (json)

/-- The stream starts with a line that is no JSON text, but the parser finds a
report in it. -/
def FollowsUnread (bytes : List UInt8) : Prop :=
  ∃ response tree value, IsLine bytes response ∧ read response = none ∧ json.fromSlice response = some tree ∧
    ReportedBy value tree ∧ isTransactionId value = true

/-- What the adapter makes of the stream is what the contract says. Bytes after
the first newline never matter, nor does how the stream ends. -/
structure AcceptsContract (rawTransaction : String) (stream : ResponseStream) : Prop where
  accepted : ∀ transactionId, (broadcast json (.answered stream) rawTransaction).outcome = .ok transactionId ↔
    FollowsContract stream.bytes transactionId
  refused : (¬ ∃ transactionId, FollowsContract stream.bytes transactionId) →
    (broadcast json (.answered stream) rawTransaction).outcome = .err .failed
  later : ∀ line rest others ending, newline ∉ line → stream.bytes = line ++ newline :: rest →
    (broadcast json (.answered ⟨line ++ newline :: others, ending⟩) rawTransaction).outcome =
      (broadcast json (.answered stream) rawTransaction).outcome

variable {json}

theorem broadcast_outcome (stream : ResponseStream) (rawTransaction : String) :
    (broadcast json (.answered stream) rawTransaction).outcome =
      ((readResponse stream).map (checkResponse json)).getD (.err .failed) := by
  cases found : readResponse stream <;> simp [broadcast, found]

theorem broadcast_eq_ok (holds : json.HoldsStrings) {stream : ResponseStream}
    {rawTransaction transactionId : String} :
    (broadcast json (.answered stream) rawTransaction).outcome = .ok transactionId ↔
      ∃ response tree value, IsLine stream.bytes response ∧ json.fromSlice response = some tree ∧
        ReportedBy value tree ∧ isTransactionId value = true ∧ transactionId = toAsciiLowercase value := by
  rw [broadcast_outcome]
  constructor
  · intro accepted
    cases found : readResponse stream with
    | none => simp [found] at accepted
    | some response =>
      simp only [found, Option.map_some, Option.getD_some] at accepted
      obtain ⟨tree, parts, value, parsed, fieldParts, acceptable, shaped, rfl⟩ :=
        (checkResponse_eq_ok holds).mp accepted
      have reported := fields_accepted.mp ⟨parts, fieldParts, acceptable⟩
      exact ⟨response, tree, value, readResponse_eq_some.mp found, parsed, reported, shaped, rfl⟩
  · rintro ⟨response, tree, value, isLine, parsed, reported, shaped, rfl⟩
    obtain ⟨parts, found, acceptable⟩ := fields_accepted.mpr reported
    rw [readResponse_eq_some.mpr isLine, Option.map_some, Option.getD_some, checkResponse_eq_ok holds]
    exact ⟨tree, parts, value, parsed, found, acceptable, shaped, rfl⟩

theorem broadcast_eq_failed {stream : ResponseStream} {rawTransaction : String}
    (unaccepted : ∀ transactionId,
      (broadcast json (.answered stream) rawTransaction).outcome ≠ .ok transactionId) :
    (broadcast json (.answered stream) rawTransaction).outcome = .err .failed := by
  rw [broadcast_outcome] at unaccepted ⊢
  cases found : readResponse stream with
  | none => rfl
  | some response =>
    rw [found, Option.map_some, Option.getD_some] at unaccepted
    rcases checkResponse_cases json response with failed | ⟨tree, value, -, -, -, accepted⟩
    · exact failed
    · exact absurd accepted (unaccepted _)

theorem isLine_iff {line rest response : List UInt8} (clear : newline ∉ line) :
    IsLine (line ++ newline :: rest) response ↔
      response = line ++ [newline] ∧ response.length ≤ maxRelayResponseBytes := by
  constructor
  · rintro ⟨other, others, rfl, otherClear, whole, short⟩
    have same : line = other := by
      have upTo : ∀ {front back : List UInt8}, newline ∉ front →
          (front ++ newline :: back).takeWhile (· ≠ newline) = front := by
        intro front back free
        rw [List.takeWhile_append_of_pos]
        · simp
        · intro byte member
          have other : byte ≠ newline := by
            rintro rfl
            exact free member
          simpa using other
      rw [← upTo clear, whole, upTo otherClear]
    rw [same]
    exact ⟨rfl, short⟩
  · rintro ⟨rfl, short⟩
    exact ⟨line, rest, rfl, clear, rfl, short⟩

theorem IsLine.unique {bytes left right : List UInt8} (leftLine : IsLine bytes left)
    (rightLine : IsLine bytes right) : left = right := by
  obtain ⟨line, rest, rfl, clear, rfl, -⟩ := leftLine
  exact ((isLine_iff clear).mp rightLine).1.symm

theorem readResponse_line {line rest others : List UInt8} {ending otherEnding : StreamEnd}
    (clear : newline ∉ line) :
    readResponse ⟨line ++ newline :: rest, ending⟩ = readResponse ⟨line ++ newline :: others, otherEnding⟩ := by
  apply Option.ext
  intro response
  rw [readResponse_eq_some, readResponse_eq_some, isLine_iff clear, isLine_iff clear]

theorem broadcast_ok_cases (reads : json.ReadsJson) (holds : json.HoldsStrings) {stream : ResponseStream}
    {rawTransaction transactionId : String}
    (accepted : (broadcast json (.answered stream) rawTransaction).outcome = .ok transactionId) :
    FollowsContract stream.bytes transactionId ∨ FollowsByPosition stream.bytes ∨
      FollowsUnread json stream.bytes := by
  obtain ⟨response, tree, value, isLine, parsed, reported, shaped, rfl⟩ := (broadcast_eq_ok holds).mp accepted
  cases text : read response with
  | none => exact .inr (.inr ⟨response, tree, value, isLine, text, parsed, reported, shaped⟩)
  | some other =>
    -- Of a JSON text the parser reads the tree of the grammar.
    have same : other = tree := Option.some.inj ((reads text).symm.trans parsed)
    subst same
    cases other with
    | object members => exact .inl ⟨response, members, value, isLine, text, reported, shaped, rfl⟩
    | array elements => exact .inr (.inl ⟨response, elements, value, isLine, text, reported, shaped⟩)
    | null | bool _ | number _ | string _ => cases reported

theorem broadcast_contract (reads : json.ReadsJson) (holds : json.HoldsStrings) {stream : ResponseStream}
    {transactionId : String} (follows : FollowsContract stream.bytes transactionId) (rawTransaction : String) :
    (broadcast json (.answered stream) rawTransaction).outcome = .ok transactionId := by
  obtain ⟨response, members, value, isLine, text, reports, shaped, rfl⟩ := follows
  exact (broadcast_eq_ok holds).mpr ⟨response, _, value, isLine, reads text, reports, shaped, rfl⟩

theorem AcceptsContract.read {rawTransaction transactionId : String} {stream : ResponseStream}
    (meets : AcceptsContract json rawTransaction stream)
    (accepted : (broadcast json (.answered stream) rawTransaction).outcome = .ok transactionId)
    {response : List UInt8} (isLine : IsLine stream.bytes response) :
    ∃ members, Json.read response = some (.object members) := by
  obtain ⟨other, members, -, otherLine, text, -⟩ := (meets.accepted transactionId).mp accepted
  rw [isLine.unique otherLine]
  exact ⟨members, text⟩

theorem accepts_contract_iff (json : SerdeJson) (reads : json.ReadsJson) (holds : json.HoldsStrings)
    (rawTransaction : String) (stream : ResponseStream) :
    AcceptsContract json rawTransaction stream ↔
      ¬ FollowsByPosition stream.bytes ∧ ¬ FollowsUnread json stream.bytes := by
  constructor
  · intro meets
    constructor
    · rintro ⟨response, elements, value, isLine, text, reports, shaped⟩
      obtain ⟨members, object⟩ := meets.read ((broadcast_eq_ok holds).mpr
        ⟨response, .array elements, value, isLine, reads text, reports, shaped, rfl⟩) isLine
      rw [text] at object
      cases object
    · rintro ⟨response, tree, value, isLine, text, parsed, reported, shaped⟩
      obtain ⟨members, object⟩ := meets.read ((broadcast_eq_ok holds).mpr
        ⟨response, tree, value, isLine, parsed, reported, shaped, rfl⟩) isLine
      rw [text] at object
      cases object
  · rintro ⟨noArray, noOther⟩
    have accepted : ∀ transactionId,
        (broadcast json (.answered stream) rawTransaction).outcome = .ok transactionId ↔
          FollowsContract stream.bytes transactionId := by
      intro transactionId
      constructor
      · intro success
        rcases broadcast_ok_cases reads holds success with follows | array | unread
        · exact follows
        · exact absurd array noArray
        · exact absurd unread noOther
      · intro follows
        exact broadcast_contract reads holds follows rawTransaction
    refine ⟨accepted, ?_, ?_⟩
    · intro otherwise
      apply broadcast_eq_failed
      intro transactionId success
      exact otherwise ⟨transactionId, (accepted transactionId).mp success⟩
    · intro line rest others ending clear whole
      obtain ⟨bytes, streamEnding⟩ := stream
      obtain rfl : bytes = line ++ newline :: rest := whole
      rw [broadcast_outcome, broadcast_outcome, readResponse_line clear]

theorem isLine_line (value : Value) (exact : value.IsExact) (rest : List UInt8)
    (short : value.line.length ≤ maxRelayResponseBytes) : IsLine (value.line ++ rest) value.line := by
  refine ⟨encodeUtf8 value.print, rest, rfl, encodeUtf8_newline (print_clear value exact), ?_, short⟩
  rw [Value.line, List.append_assoc]
  rfl

theorem reports_result (value : String) :
    Reports (memberTrees [("id", .string relayRequestId), ("result", .string value)]) value := by
  constructor
  · simp [memberTrees, Value.toTree, occurrences]
  · simp [memberTrees, occurrences]
  · simp [memberTrees, Value.toTree, occurrences]

def reportedId : String := "00112233445566778899aabbccddeeff00112233445566778899AABBCCDDEEFF"

def objectReport : Value := .object [("id", .string relayRequestId), ("result", .string reportedId)]

def positionalReport : Value := .array [.string relayRequestId, .string reportedId]

theorem objectReport_read : read objectReport.line = some objectReport.toTree :=
  read_line ⟨trivial, trivial, trivial⟩

theorem objectReport_line : IsLine objectReport.line objectReport.line := by
  simpa using isLine_line objectReport ⟨trivial, trivial, trivial⟩ [] (by decide)

theorem objectReport_follows : FollowsContract objectReport.line (toAsciiLowercase reportedId) :=
  ⟨objectReport.line, _, reportedId, objectReport_line, objectReport_read, reports_result reportedId,
    by decide, rfl⟩

theorem accepts_contract_of_object :
    AcceptsContract .reference "00" ⟨objectReport.line, .closed⟩ ∧
      (broadcast .reference (.answered ⟨objectReport.line, .closed⟩) "00").outcome =
        .ok (toAsciiLowercase reportedId) := by
  have noArray : ¬ FollowsByPosition objectReport.line := by
    rintro ⟨response, elements, value, otherLine, text, -, -⟩
    rw [otherLine.unique objectReport_line, objectReport_read] at text
    cases text
  have noOther : ¬ FollowsUnread .reference objectReport.line := by
    rintro ⟨response, tree, value, otherLine, text, -⟩
    rw [otherLine.unique objectReport_line, objectReport_read] at text
    cases text
  have contract := (accepts_contract_iff .reference SerdeJson.reference_readsJson
    SerdeJson.reference_holdsStrings "00" ⟨objectReport.line, .closed⟩).mpr ⟨noArray, noOther⟩
  exact ⟨contract, (contract.accepted _).mpr objectReport_follows⟩

theorem positionalReport_read : read positionalReport.line = some positionalReport.toTree :=
  read_line ⟨trivial, trivial, trivial⟩

theorem positionalReport_line : IsLine positionalReport.line positionalReport.line := by
  simpa using isLine_line positionalReport ⟨trivial, trivial, trivial⟩ [] (by decide)

theorem positional_response_accepted : ¬ AcceptsContract .reference "00" ⟨positionalReport.line, .closed⟩ := by
  intro contract
  have accepted : (broadcast .reference (.answered ⟨positionalReport.line, .closed⟩) "00").outcome =
      .ok (toAsciiLowercase reportedId) :=
    (broadcast_eq_ok SerdeJson.reference_holdsStrings).mpr ⟨positionalReport.line, positionalReport.toTree,
      reportedId, positionalReport_line, SerdeJson.reference_readsJson positionalReport_read, .inl rfl,
      by decide, rfl⟩
  obtain ⟨members, object⟩ := contract.read accepted positionalReport_line
  rw [positionalReport_read] at object
  cases object

end SocksElectrumRelay

end ElectrumPrivateRelay.Relay

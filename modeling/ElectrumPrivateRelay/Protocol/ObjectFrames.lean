import ElectrumPrivateRelay.Protocol.Requests
import Mathlib.Data.List.Perm.Basic

/-! Object frames say the same to every reader.

Readers differ in which of several members of one name they keep, in the order
they expect members in, and in the names they know. A frame that is accepted
leaves none of them a choice.
-/

set_option autoImplicit false

namespace ElectrumPrivateRelay.Protocol
open Json

def requestNames : List String := ["id", "method", "params"]

def occurrences (members : List (String × Tree)) (name : String) : Nat :=
  (members.filter fun member => member.1 = name).length

/-- The member a reader keeps that ignores later members of the same name. -/
def firstMember (members : List (String × Tree)) (name : String) : Option Tree :=
  (members.find? fun member => member.1 = name).map Prod.snd

/-- The member a reader keeps that replaces earlier members of the same name. -/
def lastMember (members : List (String × Tree)) (name : String) : Option Tree :=
  firstMember members.reverse name

def requestOf (json : SerdeJson) (find : String → Option Tree) : Option Request := do
  let id ← json.optionalValue (find "id")
  let method ← requiredString (find "method")
  let params ← json.optionalValue (find "params")
  return ⟨id, method, params⟩

/-- The members that can matter, in any order. -/
def SameRequest (members changed : List (String × Tree)) : Prop :=
  (members.filter fun member => member.1 ∈ requestNames).Perm
    (changed.filter fun member => member.1 ∈ requestNames)

/-- What becomes of a request once it is decoded. -/
def Request.verdict (request : Request) : Except ProtocolError ClientFrame :=
  if request.id.any fun id => !isValidRequestId id then .error invalidRequest
  else if request.method ≠ broadcastMethod then .ok (.passthrough request.id)
  else match soleTransaction request.params with
    | none => .error (invalidParams (request.id.getD .null))
    | some rawTransaction =>
      if isHexTransaction rawTransaction then .ok (.broadcast (request.id.getD .null) rawTransaction)
      else .error (invalidParams (request.id.getD .null))

variable {json : SerdeJson}

theorem classify_eq_verdict {frame : List UInt8} {tree : Tree} (parsed : json.fromSlice frame = some tree) :
    classify json frame = match Request.ofTree json tree with
      | none => .error invalidRequest
      | some request => request.verdict := by
  simp only [classify, parsed, Option.bind_some]
  cases Request.ofTree json tree <;> rfl

theorem field_eq_some {members : List (String × Tree)} {name : String} {found : Option Tree}
    (read : field members name = some found) :
    (members.filter fun member => member.1 = name) = (found.map fun value => (name, value)).toList := by
  unfold field at read
  split at read
  · next none =>
    cases read
    exact none
  · next key value one =>
    cases read
    have kept : (key, value) ∈ members.filter fun member => member.1 = name := by simp [one]
    have same : key = name := by simpa using (List.mem_filter.mp kept).2
    rw [one, same]
    rfl
  · cases read

theorem field_perm {members changed : List (String × Tree)} {name : String}
    (same : (members.filter fun member => member.1 = name).Perm
      (changed.filter fun member => member.1 = name)) :
    field members name = field changed name := by
  unfold field
  generalize members.filter _ = left at same
  generalize changed.filter _ = right at same
  rcases left with _ | ⟨first, _ | ⟨second, others⟩⟩
  · rw [List.nil_perm.mp same]
  · rw [List.singleton_perm.mp same]
  · have length := same.length_eq
    rcases right with _ | ⟨one, _ | ⟨two, more⟩⟩
    · simp at length
    · simp at length
    · rfl

structure FoundByAll (members : List (String × Tree)) (name : String) (found : Option Tree) : Prop where
  first : firstMember members name = found
  last : lastMember members name = found
  count : occurrences members name = found.toList.length

theorem FoundByAll.of_field {members : List (String × Tree)} {name : String} {found : Option Tree}
    (read : field members name = some found) : FoundByAll members name found := by
  have only := field_eq_some read
  constructor
  · rw [firstMember, ← List.head?_filter, only]
    cases found <;> rfl
  · rw [lastMember, firstMember, ← List.head?_filter, List.filter_reverse, only]
    cases found <;> rfl
  · rw [occurrences, only]
    cases found <;> rfl

structure ReadAlike (json : SerdeJson) (members : List (String × Tree)) (request : Request) : Prop where
  method : occurrences members "method" = 1
  id : occurrences members "id" ≤ 1
  params : occurrences members "params" ≤ 1
  first : requestOf json (firstMember members) = some request
  last : requestOf json (lastMember members) = some request

theorem Request.ofTree_object {members : List (String × Tree)} {request : Request}
    (decoded : Request.ofTree json (.object members) = some request) :
    ∃ id method params, FoundByAll members "id" id ∧ FoundByAll members "method" method ∧
      FoundByAll members "params" params ∧ json.optionalValue id = some request.id ∧
      requiredString method = some request.method ∧ json.optionalValue params = some request.params := by
  obtain ⟨id, method, params, parts, ids, methods, paramss⟩ := Request.ofTree_eq_some decoded
  have each := fields_object.mp parts
  simp only [List.map_cons, List.cons.injEq] at each
  exact ⟨id, method, params, .of_field each.1, .of_field each.2.1, .of_field each.2.2.1, ids, methods,
    paramss⟩

theorem ReadAlike.of_ofTree {members : List (String × Tree)} {request : Request}
    (decoded : Request.ofTree json (.object members) = some request) : ReadAlike json members request := by
  obtain ⟨id, method, params, idFound, methodFound, paramsFound, ids, methods, paramss⟩ :=
    Request.ofTree_object decoded
  have single : ∀ found : Option Tree, found.toList.length ≤ 1 := by
    intro found
    cases found <;> simp
  constructor
  · rw [methodFound.count, requiredString_eq_some methods]
    rfl
  · rw [idFound.count]
    exact single id
  · rw [paramsFound.count]
    exact single params
  · simp [requestOf, idFound.first, methodFound.first, paramsFound.first, ids, methods, paramss]
  · simp [requestOf, idFound.last, methodFound.last, paramsFound.last, ids, methods, paramss]

theorem Request.ofTree_repeated {members : List (String × Tree)} {name : String}
    (known : name ∈ requestNames) (many : 2 ≤ occurrences members name) :
    Request.ofTree json (.object members) = none := by
  cases decoded : Request.ofTree json (.object members) with
  | none => rfl
  | some request =>
    have alike := ReadAlike.of_ofTree decoded
    simp only [requestNames, List.mem_cons, List.not_mem_nil, or_false] at known
    rcases known with rfl | rfl | rfl
    · exact absurd many (Nat.not_le_of_lt (Nat.lt_succ_of_le alike.id))
    · rw [alike.method] at many
      exact absurd many (by decide)
    · exact absurd many (Nat.not_le_of_lt (Nat.lt_succ_of_le alike.params))

theorem SameRequest.field_eq {members changed : List (String × Tree)} (same : SameRequest members changed)
    {name : String} (known : name ∈ requestNames) : field members name = field changed name := by
  apply field_perm
  have narrowed : ∀ all : List (String × Tree), (all.filter fun member => member.1 = name) =
      (all.filter fun member => member.1 ∈ requestNames).filter fun member => member.1 = name := by
    intro all
    rw [List.filter_filter]
    apply List.filter_congr
    intro member _
    by_cases named : member.1 = name
    · simp [named, known]
    · simp [named]
  rw [narrowed members, narrowed changed]
  exact same.filter _

theorem SameRequest.ofTree_eq {members changed : List (String × Tree)}
    (same : SameRequest members changed) :
    Request.ofTree json (.object members) = Request.ofTree json (.object changed) := by
  have id := same.field_eq (show "id" ∈ requestNames by decide)
  have method := same.field_eq (show "method" ∈ requestNames by decide)
  have params := same.field_eq (show "params" ∈ requestNames by decide)
  have parts : fields ["id", "method", "params"] (.object members) =
      fields ["id", "method", "params"] (.object changed) := by
    simp only [fields, List.mapM_cons, List.mapM_nil, id, method, params]
  unfold Request.ofTree
  rw [parts]

theorem Request.verdict_passthrough {request : Request} {id : Option Value}
    (passed : request.verdict = .ok (.passthrough id)) : request.method ≠ broadcastMethod := by
  unfold Request.verdict at passed
  split at passed
  · cases passed
  · split at passed
    · next other => exact other
    · split at passed
      · cases passed
      · split at passed <;> cases passed

theorem soleTransaction_eq_some {params : Option Value} {rawTransaction : String}
    (sole : soleTransaction params = some rawTransaction) :
    params = some (.string rawTransaction) ∨ params = some (.array [.string rawTransaction]) := by
  unfold soleTransaction at sole
  split at sole
  · cases sole
    exact .inr rfl
  · cases sole
    exact .inl rfl
  · cases sole

structure BroadcastOf (request : Request) (id : Value) (rawTransaction : String) : Prop where
  method : request.method = broadcastMethod
  identifier : id = request.id.getD .null
  nonempty : rawTransaction ≠ ""
  even : rawTransaction.utf8ByteSize % 2 = 0
  hex : ∀ byte ∈ utf8 rawTransaction, isAsciiHexdigit byte = true
  params : request.params = some (.string rawTransaction) ∨
    request.params = some (.array [.string rawTransaction])

theorem Request.verdict_broadcast {request : Request} {id : Value} {rawTransaction : String}
    (intercepted : request.verdict = .ok (.broadcast id rawTransaction)) :
    BroadcastOf request id rawTransaction := by
  unfold Request.verdict at intercepted
  split at intercepted
  · cases intercepted
  · split at intercepted
    · cases intercepted
    · next method =>
      split at intercepted
      · cases intercepted
      · next sole =>
        split at intercepted
        · next hex =>
          cases intercepted
          simp only [isHexTransaction, Bool.and_eq_true, Bool.not_eq_true', decide_eq_true_eq,
            List.all_eq_true] at hex
          refine ⟨not_ne_iff.mp method, rfl, ?_, hex.1.2, hex.2, soleTransaction_eq_some sole⟩
          rintro rfl
          cases hex.1.1
        · cases intercepted

/-- What holds of a frame whose text is an object of these members. -/
structure Unambiguous (json : SerdeJson) (frame : List UInt8) (members : List (String × Tree)) : Prop where
  accepted : ∀ result, classify json frame = .ok result →
    ∃ request, ReadAlike json members request ∧ request.verdict = .ok result
  rearranged : ∀ other changed, read other = some (.object changed) → SameRequest members changed →
    classify json other = classify json frame
  repeated : ∀ name ∈ requestNames, 2 ≤ occurrences members name →
    classify json frame = .error ⟨.null, -32600, "invalid Electrum request"⟩
  broadcast : ∀ id rawTransaction, classify json frame = .ok (.broadcast id rawTransaction) →
    ∃ request, ReadAlike json members request ∧ BroadcastOf request id rawTransaction
  /-- A frame that any reader takes for a broadcast is not passed through. -/
  intercepted : firstMember members "method" = some (.string broadcastMethod) ∨
      lastMember members "method" = some (.string broadcastMethod) →
    ∀ id, classify json frame ≠ .ok (.passthrough id)

theorem object_frame_unambiguous (reads : json.ReadsJson) (frame : List UInt8)
    (members : List (String × Tree)) (text : read frame = some (.object members)) :
    Unambiguous json frame members := by
  have verdict := classify_eq_verdict (reads text)
  have accepted : ∀ result, classify json frame = .ok result →
      ∃ request, Request.ofTree json (.object members) = some request ∧ request.verdict = .ok result := by
    intro result classified
    rw [verdict] at classified
    split at classified
    · cases classified
    · next request decoded => exact ⟨request, decoded, classified⟩
  constructor
  · intro result classified
    obtain ⟨request, decoded, found⟩ := accepted result classified
    exact ⟨request, .of_ofTree decoded, found⟩
  · intro other changed otherText same
    rw [verdict, classify_eq_verdict (reads otherText), same.ofTree_eq]
  · intro name known many
    rw [verdict, Request.ofTree_repeated known many]
    rfl
  · intro id rawTransaction classified
    obtain ⟨request, decoded, found⟩ := accepted _ classified
    exact ⟨request, .of_ofTree decoded, Request.verdict_broadcast found⟩
  · intro named id classified
    obtain ⟨request, decoded, found⟩ := accepted _ classified
    obtain ⟨_, method, _, -, methodFound, -, -, methods, -⟩ := Request.ofTree_object decoded
    -- Whichever reader saw the broadcast method, it is the one the frame was decoded with.
    have same : method = some (.string broadcastMethod) := by
      rcases named with first | last
      · exact methodFound.first.symm.trans first
      · exact methodFound.last.symm.trans last
    rw [same] at methods
    exact Request.verdict_passthrough found (Option.some.inj methods).symm

theorem object_frame_unambiguous_broadcast :
    classify .reference broadcastRequest = .ok (.broadcast (.number (.posInt 2)) "00aa") ∧
      Unambiguous .reference broadcastRequest
        [("id", .number ⟨false, 2, none, none⟩), ("method", .string broadcastMethod),
          ("params", .array [.string "00aa"])] :=
  ⟨rfl, object_frame_unambiguous SerdeJson.reference_readsJson broadcastRequest _ rfl⟩

end ElectrumPrivateRelay.Protocol

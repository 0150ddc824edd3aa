import ElectrumPrivateRelay.Protocol.Requests

/-! When a frame that passes through can still carry a broadcast.

The upstream may read a frame as one request or as a batch, and may keep the
first or the last of repeated members. A request of three positional fields is
the one shape whose parameters the upstream can take for a batched request.
-/

set_option autoImplicit false

namespace ElectrumPrivateRelay.Protocol
open Json

/-- No object that the text may be read as calls the broadcast method, whichever
occurrence of a repeated member counts. -/
def NoBroadcastCall (tree : Tree) : Prop :=
  ∀ members ∈ tree.messages, ("method", Tree.string broadcastMethod) ∉ members

variable (json : SerdeJson)

def PositionalId (id : Tree) : Prop :=
  id = .null ∨ (json.representable id = true ∧ isValidRequestId id.toValue = true)

/-- Three positional fields: an accepted identifier, another method, and an
object in place of the parameters that names the broadcast method. -/
def HidesBroadcast (tree : Tree) : Prop :=
  ∃ id method members, tree = .array [id, .string method, .object members] ∧
    PositionalId json id ∧ method ≠ broadcastMethod ∧
    json.representable (.object members) = true ∧
    ("method", Tree.string broadcastMethod) ∈ members

variable {json}

theorem PositionalId.accepted {id : Tree} (positional : PositionalId json id) :
    ∃ value, json.optionalValue (some id) = some value ∧ AcceptedId value := by
  rcases positional with rfl | ⟨fits, valid⟩
  · exact ⟨none, rfl, nofun⟩
  · by_cases null : id = .null
    · exact ⟨none, by rw [null]; rfl, nofun⟩
    · refine ⟨some id.toValue, json.optionalValue_of_fits null fits, ?_⟩
      intro value same
      exact Option.some.inj same ▸ valid

theorem PositionalId.of_accepted {id : Tree} {value : Option Value}
    (decoded : json.optionalValue (some id) = some value) (accepted : AcceptedId value) :
    PositionalId json id := by
  rcases json.optionalValue_eq_some decoded with ⟨-, absent | null⟩ | ⟨tree, same, -, fits, rfl⟩
  · cases absent
  · exact .inl (Option.some.inj null)
  · obtain rfl := Option.some.inj same
    exact .inr ⟨fits, accepted _ rfl⟩

theorem HidesBroadcast.passes {frame : List UInt8} {tree : Tree}
    (parsed : json.fromSlice frame = some tree) (hidden : HidesBroadcast json tree) :
    ∃ id, classify json frame = .ok (.passthrough id) := by
  obtain ⟨id, method, members, rfl, positional, other, fits, -⟩ := hidden
  obtain ⟨value, decoded, accepted⟩ := positional.accepted
  refine ⟨value, classify_passthrough.mpr
    ⟨_, ⟨value, method, some (Tree.object members).toValue⟩, parsed, ?_, rfl, accepted, other⟩⟩
  have params : json.optionalValue (some (.object members)) = some (some (Tree.object members).toValue) :=
    json.optionalValue_of_fits nofun fits
  simp [Request.ofTree, fields, decoded, requiredString, params]

theorem HidesBroadcast.calls {tree : Tree} (hidden : HidesBroadcast json tree) :
    ¬ NoBroadcastCall tree := by
  obtain ⟨id, method, members, rfl, -, -, -, named⟩ := hidden
  intro none
  exact none members (Tree.mem_messages_array.mpr (by simp)) named

theorem object_noBroadcastCall {members : List (String × Tree)} {request : Request}
    (decoded : Request.ofTree json (.object members) = some request)
    (other : request.method ≠ broadcastMethod) : NoBroadcastCall (.object members) := by
  obtain ⟨id, method, params, parts, -, required, -⟩ := Request.ofTree_eq_some decoded
  have found : field members "method" = some method := by
    have each := fields_object.mp parts
    simp only [List.map_cons, List.cons.injEq] at each
    exact each.2.1
  intro candidate message named
  obtain rfl := List.mem_singleton.mp message
  rw [field_unique found named] at required
  exact other (Option.some.inj required).symm

theorem array_hidesBroadcast {elements : List Tree} {request : Request}
    (decoded : Request.ofTree json (.array elements) = some request)
    (accepted : AcceptedId request.id) (other : request.method ≠ broadcastMethod)
    {members : List (String × Tree)} (element : .object members ∈ elements)
    (named : ("method", Tree.string broadcastMethod) ∈ members) :
    HidesBroadcast json (.array elements) := by
  obtain ⟨id, method, params, parts, ids, required, paramss⟩ := Request.ofTree_eq_some decoded
  have method := requiredString_eq_some required
  simp only [fields] at parts
  split at parts
  -- The fields in order: the identifier is no object, the method is a string,
  -- so an object can only stand in the third place.
  · rcases elements with _ | ⟨first, _ | ⟨second, _ | ⟨third, _ | ⟨fourth, others⟩⟩⟩⟩
    · cases element
    · cases parts
      cases method
    · cases parts
      cases method
      rcases List.mem_pair.mp element with rfl | same
      · exact absurd accepted (accepted_not_object ids)
      · cases same
    · cases parts
      cases method
      have positional := PositionalId.of_accepted ids accepted
      simp only [List.mem_cons, List.not_mem_nil, or_false] at element
      rcases element with rfl | same | rfl
      · exact absurd accepted (accepted_not_object ids)
      · cases same
      · rcases json.optionalValue_eq_some paramss with ⟨-, absent | null⟩ | ⟨tree, found, -, fits, -⟩
        · cases absent
        · cases null
        · cases found
          exact ⟨first, request.method, members, rfl, positional, other, fits, named⟩
    · next short =>
      simp only [List.length_cons, List.length_nil] at short
      omega
  · cases parts

/-- A frame of JSON text passes a broadcast on exactly when it is a positional
request with a broadcast in place of its parameters. -/
theorem passthrough_noBroadcastCall_iff (reads : json.ReadsJson) (frame : List UInt8) (tree : Tree)
    (text : read frame = some tree) :
    (∀ id, classify json frame = .ok (.passthrough id) → NoBroadcastCall tree) ↔
      ¬ HidesBroadcast json tree := by
  have parsed := reads text
  constructor
  · intro never hidden
    obtain ⟨id, passed⟩ := hidden.passes parsed
    exact hidden.calls (never id passed)
  · intro plain id passed
    obtain ⟨other, request, otherParsed, decoded, rfl, accepted, method⟩ := classify_passthrough.mp passed
    obtain rfl : tree = other := Option.some.inj (parsed.symm.trans otherParsed)
    cases tree with
    | object members => exact object_noBroadcastCall decoded method
    | array elements =>
      intro members message named
      exact plain (array_hidesBroadcast decoded accepted method
        (Tree.mem_messages_array.mp message) named)
    | null | bool _ | number _ | string _ => cases decoded

def versionQueryTree : Tree :=
  .object [("id", .number ⟨false, 1, none, none⟩), ("method", .string "server.version"),
    ("params", .array [])]

theorem passthrough_noBroadcastCall_of_versionQuery :
    classify .reference versionQuery = .ok (.passthrough (some (.number (.posInt 1)))) ∧
      NoBroadcastCall versionQueryTree := by
  refine ⟨rfl, ?_⟩
  have plain : ¬ HidesBroadcast .reference versionQueryTree := by
    rintro ⟨_, _, _, same, -⟩
    cases same
  exact (passthrough_noBroadcastCall_iff SerdeJson.reference_readsJson versionQuery versionQueryTree
    rfl).mpr plain _ rfl

/-- A positional version query whose parameters are a broadcast request. -/
def positionalQuery : List UInt8 :=
  utf8 ("[1,\"server.version\",\x7b\"id\":2,\"method\":\"blockchain.transaction.broadcast\"," ++
    "\"params\":[\"00\"]\x7d]\n")

def positionalQueryTree : Tree :=
  .array [.number ⟨false, 1, none, none⟩, .string "server.version",
    .object [("id", .number ⟨false, 2, none, none⟩), ("method", .string broadcastMethod),
      ("params", .array [.string "00"])]]

theorem positionalQuery_passes_broadcast :
    read positionalQuery = some positionalQueryTree ∧
      classify .reference positionalQuery = .ok (.passthrough (some (.number (.posInt 1)))) ∧
      ¬ NoBroadcastCall positionalQueryTree := by
  refine ⟨rfl, rfl, ?_⟩
  simp [NoBroadcastCall, positionalQueryTree, Tree.messages]

end ElectrumPrivateRelay.Protocol

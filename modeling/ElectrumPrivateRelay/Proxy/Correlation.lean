import ElectrumPrivateRelay.Protocol.Requests
import Mathlib.Data.List.AList

/-! The table of outstanding requests and what it lets through.

A response of the upstream is forwarded only if it takes the entry of a query
of its own out of the table; the entry of a broadcast stays.
-/

set_option autoImplicit false

namespace ElectrumPrivateRelay.Proxy
open Json Protocol

inductive PendingRequest where
  | upstream
  | broadcast
  deriving DecidableEq, Repr

inductive Reservation where
  | reserved
  | duplicate
  | limitExceeded
  deriving DecidableEq, Repr

abbrev PendingRequests := AList fun _ : String => PendingRequest

def reserveRequest (pending : PendingRequests) (key : String) (request : PendingRequest)
    (maxPendingRequests : Nat) : Reservation × PendingRequests :=
  -- A full table still reports a key it holds as a duplicate.
  if key ∈ pending then (.duplicate, pending)
  else if maxPendingRequests ≤ pending.entries.length then (.limitExceeded, pending)
  else (.reserved, pending.insert key request)

theorem reserveRequest_cases {pending after : PendingRequests} {key : String} {request : PendingRequest}
    {maxPendingRequests : Nat} {outcome : Reservation}
    (decided : reserveRequest pending key request maxPendingRequests = (outcome, after)) :
    (outcome = .reserved ∧ pending.lookup key = none ∧ after = pending.insert key request) ∨
      (outcome ≠ .reserved ∧ after = pending) := by
  unfold reserveRequest at decided
  split at decided
  · cases decided
    exact .inr ⟨nofun, rfl⟩
  · next free =>
    split at decided
    · cases decided
      exact .inr ⟨nofun, rfl⟩
    · cases decided
      exact .inl ⟨rfl, AList.lookup_eq_none.mpr free, rfl⟩

section Responses

variable (json : SerdeJson)

def requestIdKey (id : Value) : Option String :=
  if isValidRequestId id then some (json.toText id) else none

theorem requestIdKey_isSome (id : Value) : (requestIdKey json id).isSome = isValidRequestId id := by
  unfold requestIdKey
  split
  · next valid => exact valid.symm
  · next invalid => exact (Bool.eq_false_iff.mpr invalid).symm

structure UpstreamEnvelope where
  id : Option Value
  method : Option String

def UpstreamEnvelope.ofTree (tree : Tree) : Option UpstreamEnvelope :=
  match fields ["id", "method"] tree with
  | some [id, method] => do
    let id ← json.optionalValue id
    let method ← optionalString method
    return ⟨id, method⟩
  | _ => none

inductive UpstreamFrame where
  | response (key : String)
  | notification

/-- `none` is the error that ends the task. -/
def upstreamFrame (frame : List UInt8) : Option UpstreamFrame :=
  match (json.fromSlice frame).bind (UpstreamEnvelope.ofTree json) with
  | some ⟨some id, none⟩ => (requestIdKey json id).map .response
  | some ⟨none, some _⟩ => some .notification
  | some ⟨some _, some _⟩ | some ⟨none, none⟩ | none => none

end Responses

/-- The critical section of a response: whether it is forwarded, and the table
after it. -/
def takeResponse (pending : PendingRequests) (key : String) : Bool × PendingRequests :=
  match pending.lookup key with
  | some .upstream => (true, pending.erase key)
  | some .broadcast | none => (false, pending)

def shouldForward (json : SerdeJson) (frame : List UInt8) (pending : PendingRequests) :
    Option (Bool × PendingRequests) :=
  (upstreamFrame json frame).map fun
    | .response key => takeResponse pending key
    | .notification => (true, pending)

section Smuggling

variable {json : SerdeJson}

theorem UpstreamEnvelope.ofTree_eq_some {tree : Tree} {envelope : UpstreamEnvelope}
    (decoded : UpstreamEnvelope.ofTree json tree = some envelope) :
    ∃ id method, fields ["id", "method"] tree = some [id, method] ∧
      json.optionalValue id = some envelope.id ∧ optionalString method = some envelope.method := by
  unfold UpstreamEnvelope.ofTree at decoded
  split at decoded
  · next id method parts =>
    simp only [Option.bind_eq_bind, Option.bind_eq_some_iff] at decoded
    obtain ⟨idValue, ids, methodName, methods, same⟩ := decoded
    cases same
    exact ⟨id, method, parts, ids, methods⟩
  · cases decoded

def IdIn (tree id : Tree) : Prop := ∃ members ∈ tree.messages, ("id", id) ∈ members

theorem UpstreamEnvelope.not_object {elements : List Tree} {envelope : UpstreamEnvelope}
    (decoded : UpstreamEnvelope.ofTree json (.array elements) = some envelope)
    (accepted : AcceptedId envelope.id) (members : List (String × Tree)) :
    .object members ∉ elements := by
  intro element
  obtain ⟨id, method, parts, ids, methods⟩ := UpstreamEnvelope.ofTree_eq_some decoded
  simp only [fields] at parts
  split at parts
  · rcases elements with _ | ⟨first, _ | ⟨second, _ | ⟨third, others⟩⟩⟩
    · cases element
    · cases parts
      obtain rfl := List.mem_singleton.mp element
      exact accepted_not_object ids accepted
    · cases parts
      rcases List.mem_pair.mp element with rfl | rfl
      · exact accepted_not_object ids accepted
      · cases methods
    · next short =>
      simp only [List.length_cons, List.length_nil] at short
      omega
  · cases parts

theorem UpstreamEnvelope.ofTree_id {tree : Tree} {envelope : UpstreamEnvelope}
    (decoded : UpstreamEnvelope.ofTree json tree = some envelope)
    (accepted : AcceptedId envelope.id) {id : Tree} (found : IdIn tree id) (present : id ≠ .null) :
    envelope.id = some id.toValue := by
  obtain ⟨members, message, member⟩ := found
  cases tree with
  | object all =>
    obtain rfl := List.mem_singleton.mp message
    obtain ⟨part, method, parts, ids, -⟩ := UpstreamEnvelope.ofTree_eq_some decoded
    have read : field members "id" = some part := by
      have each := fields_object.mp parts
      simp only [List.map_cons, List.cons.injEq] at each
      exact each.1
    rw [field_unique read member] at ids
    rcases json.optionalValue_eq_some ids with ⟨-, absent | null⟩ | ⟨tree, same, -, -, decoded⟩
    · cases absent
    · exact absurd (Option.some.inj null) present
    · rw [decoded, Option.some.inj same]
  | array elements =>
    exact absurd (Tree.mem_messages_array.mp message) (UpstreamEnvelope.not_object decoded accepted members)
  | null | bool _ | number _ | string _ => cases decoded

/-- The key that stands for an identifier of the text is the one the frame is
correlated by. -/
theorem upstreamFrame_id {frame : List UInt8} {tree : Tree} {kind : UpstreamFrame}
    (parsed : json.fromSlice frame = some tree) (read : upstreamFrame json frame = some kind)
    {id : Tree} (found : IdIn tree id) (present : id ≠ .null) :
    ∃ key, kind = .response key ∧ requestIdKey json id.toValue = some key := by
  simp only [upstreamFrame, parsed, Option.bind_some] at read
  split at read
  · next value decoded =>
    -- A response that has a key has an accepted identifier.
    obtain ⟨key, keyed, rfl⟩ := Option.map_eq_some_iff.mp read
    have accepted : AcceptedId (some value) := by
      intro other same
      obtain rfl := Option.some.inj same
      by_contra invalid
      rw [requestIdKey, if_neg invalid] at keyed
      cases keyed
    have same := UpstreamEnvelope.ofTree_id decoded accepted found present
    exact ⟨key, rfl, Option.some.inj same ▸ keyed⟩
  · next decoded =>
    -- A notification has no identifier, so its text has none either.
    have same := UpstreamEnvelope.ofTree_id decoded nofun found present
    cases same
  · cases read
  · cases read
  · cases read

/-- What a forwarded frame may hold: each identifier in it is that of a query
whose entry this step takes out of the table, so a frame that takes no entry
out holds none. -/
structure Correlated (json : SerdeJson) (tree : Tree) (before after : PendingRequests) : Prop where
  removed : ∀ id, IdIn tree id → id ≠ .null →
    ∃ key, requestIdKey json id.toValue = some key ∧ before.lookup key = some .upstream ∧
      after = before.erase key
  silent : (∀ key, key ∈ before → key ∈ after) → ∀ id, IdIn tree id → id = .null

theorem forwarded_correlated (reads : json.ReadsJson) (frame : List UInt8) (tree : Tree)
    (text : read frame = some tree) (before after : PendingRequests)
    (forwarded : shouldForward json frame before = some (true, after)) :
    Correlated json tree before after := by
  obtain ⟨kind, read, decision⟩ := Option.map_eq_some_iff.mp forwarded
  have removed : ∀ id, IdIn tree id → id ≠ .null →
      ∃ key, requestIdKey json id.toValue = some key ∧ before.lookup key = some .upstream ∧
        after = before.erase key := by
    intro id found present
    obtain ⟨key, rfl, keyed⟩ := upstreamFrame_id (reads text) read found present
    refine ⟨key, keyed, ?_⟩
    simp only [takeResponse] at decision
    split at decision
    · next held =>
      cases decision
      exact ⟨held, rfl⟩
    · cases decision
    · cases decision
  refine ⟨removed, ?_⟩
  intro kept id found
  by_contra present
  obtain ⟨key, -, held, rfl⟩ := removed id found present
  have member : key ∈ before := AList.lookup_isSome.mp (by rw [held]; rfl)
  exact (AList.mem_erase.mp (kept key member)).1 rfl

theorem forwarded_correlated_answer :
    Correlated .reference
      (.object [("id", .number ⟨false, 7, none, none⟩), ("result", .string "ok")])
      (AList.singleton "7" .upstream) ∅ :=
  forwarded_correlated SerdeJson.reference_readsJson
    (utf8 "\x7b\"id\":7,\"result\":\"ok\"\x7d\n") _ rfl _ _ rfl

end Smuggling

end ElectrumPrivateRelay.Proxy

/-! The syntax tree of a JSON text.

The tree keeps what a text says and a value forgets: the order and repetition
of object members and the spelling of numbers. Strings and member names are
unescaped.
-/

set_option autoImplicit false

namespace Json

/-- A number as it is spelled: sign, integer part, and the digits of a
fraction and an exponent when they are present. -/
structure NumberToken where
  negative : Bool
  magnitude : Nat
  fraction : Option (List Char)
  exponent : Option (List Char)
  deriving DecidableEq, Repr

inductive Tree where
  | null
  | bool (value : Bool)
  | number (token : NumberToken)
  | string (value : String)
  | array (elements : List Tree)
  | object (members : List (String × Tree))

/-- The objects a reader finds that takes the text as one message, or as a
batch of messages when it is an array. -/
def Tree.messages : Tree → List (List (String × Tree))
  | .object members => [members]
  | .array elements => elements.filterMap fun
    | .object members => some members
    | _ => none
  | _ => []

theorem Tree.mem_messages_array {elements : List Tree} {members : List (String × Tree)} :
    members ∈ (Tree.array elements).messages ↔ .object members ∈ elements := by
  simp only [messages, List.mem_filterMap]
  constructor
  · rintro ⟨element, member, found⟩
    cases element with
    | object found' => exact (Option.some.inj found) ▸ member
    | null | bool _ | number _ | string _ | array _ => cases found
  · intro member
    exact ⟨_, member, rfl⟩

mutual

def Tree.stringBytes : Tree → Nat
  | .null | .bool _ | .number _ => 0
  | .string value => value.utf8ByteSize
  | .array elements => elementBytes elements
  | .object members => memberBytes members

def elementBytes : List Tree → Nat
  | [] => 0
  | element :: rest => element.stringBytes + elementBytes rest

def memberBytes : List (String × Tree) → Nat
  | [] => 0
  | (name, value) :: rest => name.utf8ByteSize + value.stringBytes + memberBytes rest

end

theorem stringBytes_le_elementBytes {elements : List Tree} {element : Tree} (member : element ∈ elements) :
    element.stringBytes ≤ elementBytes elements := by
  induction elements with
  | nil => cases member
  | cons first rest ih =>
    rw [elementBytes]
    rcases List.mem_cons.mp member with rfl | later
    · exact Nat.le_add_right _ _
    · exact Nat.le_add_left_of_le (ih later)

theorem stringBytes_le_memberBytes {members : List (String × Tree)} {name : String} {value : Tree}
    (member : (name, value) ∈ members) : value.stringBytes ≤ memberBytes members := by
  induction members with
  | nil => cases member
  | cons first rest ih =>
    obtain ⟨key, current⟩ := first
    rw [memberBytes]
    rcases List.mem_cons.mp member with same | later
    · obtain ⟨rfl, rfl⟩ := Prod.mk.inj same
      omega
    · have bound := ih later
      omega

end Json

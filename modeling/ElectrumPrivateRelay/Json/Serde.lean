import ElectrumPrivateRelay.Json.DecodedLength

/-! What a Rust program takes from `serde` and `serde_json`.

The crate itself is a parameter: how it reads a text, which parts of a text it
can hold as a value and how it prints one. The value a part denotes and the
shape a derived `Deserialize` accepts are its documented behaviour.
-/

set_option autoImplicit false

namespace Json

/-- An integer that fits its machine type is kept exactly; every other number
is a float, of which only the spelling matters here. -/
inductive Number where
  | posInt (value : UInt64)
  | negInt (value : Int64)
  | float (token : NumberToken)
  deriving DecidableEq

def NumberToken.toNumber (token : NumberToken) : Number :=
  if token.fraction.isSome || token.exponent.isSome then .float token
  else if !token.negative then
    if token.magnitude < 2 ^ 64 then .posInt (.ofNat token.magnitude) else .float token
  -- Minus zero is a float.
  else if 0 < token.magnitude ∧ token.magnitude ≤ 2 ^ 63 then .negInt (.ofInt (-token.magnitude))
  else .float token

inductive Value where
  | null
  | bool (value : Bool)
  | number (number : Number)
  | string (value : String)
  | array (elements : List Value)
  | object (members : List (String × Value))

/-- The order of the keys of a map: by code points, which for UTF-8 is by bytes. -/
def precedes : List Char → List Char → Bool
  | _, [] => false
  | [], _ :: _ => true
  | left :: lefts, right :: rights =>
    left.toNat < right.toNat || (left = right && precedes lefts rights)

/-- A map keeps its members in the order of their keys; a later member replaces
an earlier one of the same key. -/
def insertMember (name : String) (value : Value) : List (String × Value) → List (String × Value)
  | [] => [(name, value)]
  | (key, current) :: rest =>
    if name = key then (name, value) :: rest
    else if precedes name.toList key.toList then (name, value) :: (key, current) :: rest
    else (key, current) :: insertMember name value rest

def Value.ofMembers (members : List (String × Value)) : Value :=
  .object (members.foldl (fun map member => insertMember member.1 member.2 map) [])

mutual

def Tree.toValue : Tree → Value
  | .null => .null
  | .bool value => .bool value
  | .number token => .number token.toNumber
  | .string value => .string value
  | .array elements => .array (elementValues elements)
  | .object members => .ofMembers (memberValues members)

def elementValues : List Tree → List Value
  | [] => []
  | element :: rest => element.toValue :: elementValues rest

def memberValues : List (String × Tree) → List (String × Value)
  | [] => []
  | (name, value) :: rest => (name, value.toValue) :: memberValues rest

end

/-- The member of a field: unknown members are ignored, a repeated one is an error. -/
def field (members : List (String × Tree)) (name : String) : Option (Option Tree) :=
  match members.filter fun member => member.1 = name with
  | [] => some none
  | [(_, value)] => some (some value)
  | _ => none

/-- The parts a derived struct of these fields is built from: the members of an
object, or the elements of an array in the order of the fields. -/
def fields (names : List String) : Tree → Option (List (Option Tree))
  | .object members => names.mapM (field members)
  | .array elements =>
    -- Missing trailing fields are defaulted, surplus elements are an error.
    if elements.length ≤ names.length then
      some (elements.map some ++ List.replicate (names.length - elements.length) none)
    else none
  | .null | .bool _ | .number _ | .string _ => none

theorem field_unique {members : List (String × Tree)} {name : String} {found : Option Tree}
    (read : field members name = some found) {value : Tree} (member : (name, value) ∈ members) :
    found = some value := by
  have kept : (name, value) ∈ members.filter fun member => member.1 = name :=
    List.mem_filter.mpr ⟨member, by simp⟩
  unfold field at read
  split at read
  · next none => simp [none] at kept
  · next key current one =>
    rw [one, List.mem_singleton] at kept
    cases kept
    exact (Option.some.inj read).symm
  · cases read

theorem field_mem {members : List (String × Tree)} {name : String} {value : Tree}
    (read : field members name = some (some value)) : (name, value) ∈ members := by
  unfold field at read
  split at read
  · cases read
  · next key current one =>
    cases read
    have kept : (key, value) ∈ members.filter fun member => member.1 = name := by simp [one]
    obtain ⟨member, same⟩ := List.mem_filter.mp kept
    have named : key = name := by simpa using same
    exact named ▸ member
  · cases read

theorem fields_object {names : List String} {members : List (String × Tree)}
    {parts : List (Option Tree)} :
    fields names (.object members) = some parts ↔ names.map (field members) = parts.map some := by
  simp only [fields]
  induction names generalizing parts with
  | nil => cases parts <;> simp
  | cons name rest ih =>
    simp only [List.mapM_cons, Option.bind_eq_bind, Option.bind_eq_some_iff, Option.pure_def,
      Option.some.injEq, List.map_cons]
    constructor
    · rintro ⟨first, found, later, others, rfl⟩
      simp [found, ih.mp others]
    · intro same
      match parts, same with
      | first :: later, same =>
        simp only [List.map_cons, List.cons.injEq] at same
        exact ⟨first, same.1, later, ih.mpr same.2, rfl⟩

theorem fields_within {names : List String} {tree part : Tree} {parts : List (Option Tree)}
    (read : fields names tree = some parts) (member : some part ∈ parts) :
    part.stringBytes ≤ tree.stringBytes := by
  cases tree with
  | object members =>
    have listed : some (some part) ∈ names.map (field members) :=
      fields_object.mp read ▸ List.mem_map_of_mem member
    obtain ⟨name, -, found⟩ := List.mem_map.mp listed
    exact stringBytes_le_memberBytes (field_mem found)
  | array elements =>
    simp only [fields] at read
    split at read
    · cases read
      have element : part ∈ elements := by simpa using member
      exact stringBytes_le_elementBytes element
    · cases read
  | null | bool _ | number _ | string _ => cases read

structure SerdeJson where
  fromSlice : List UInt8 → Option Tree
  /-- Whether a part of the text can be held as a value: its numbers are in
  range and its nesting is within the recursion limit. -/
  representable : Tree → Bool
  toText : Value → String

namespace SerdeJson

variable (json : SerdeJson)

/-- Every JSON text is read as what it says. -/
def ReadsJson : Prop := ∀ {bytes tree}, read bytes = some tree → json.fromSlice bytes = some tree

/-- No text is shorter than the strings read from it. -/
def DecodesWithinText : Prop :=
  ∀ {bytes tree}, json.fromSlice bytes = some tree → tree.stringBytes ≤ bytes.length

/-- A field of type `Option<Value>`: absent and null are `None`. -/
def optionalValue : Option Tree → Option (Option Value)
  | none | some .null => some none
  | some tree => if json.representable tree then some (some tree.toValue) else none

/-- A field of type `Value`: it has to be there, but it may be null. -/
def requiredValue : Option Tree → Option Value
  | none => none
  | some tree => if json.representable tree then some tree.toValue else none

theorem optionalValue_of_fits {tree : Tree} (present : tree ≠ .null)
    (fits : json.representable tree = true) :
    json.optionalValue (some tree) = some (some tree.toValue) := by
  cases tree with
  | null => exact absurd rfl present
  | bool _ | number _ | string _ | array _ | object _ => simp only [optionalValue, fits, if_true]

theorem optionalValue_eq_some {part : Option Tree} {value : Option Value}
    (decoded : json.optionalValue part = some value) :
    (value = none ∧ (part = none ∨ part = some .null)) ∨
      ∃ tree, part = some tree ∧ tree.toValue ≠ .null ∧ json.representable tree = true ∧
        value = some tree.toValue := by
  cases part with
  | none =>
    cases decoded
    exact .inl ⟨rfl, .inl rfl⟩
  | some tree =>
    cases tree with
    | null =>
      cases decoded
      exact .inl ⟨rfl, .inr rfl⟩
    | bool _ | number _ | string _ | array _ | object _ =>
      simp only [optionalValue] at decoded
      split at decoded
      · next fits =>
        cases decoded
        exact .inr ⟨_, rfl, by simp [Tree.toValue, Value.ofMembers], fits, rfl⟩
      · cases decoded

end SerdeJson

def optionalString : Option Tree → Option (Option String)
  | none | some .null => some none
  | some (.string value) => some (some value)
  | some _ => none

def requiredString : Option Tree → Option String
  | some (.string value) => some value
  | _ => none

theorem requiredString_eq_some {part : Option Tree} {value : String}
    (required : requiredString part = some value) : part = some (.string value) := by
  unfold requiredString at required
  split at required
  · cases required
    rfl
  · cases required

def hexLetter (digit : Nat) : Char :=
  if digit < 10 then Char.ofNat (digit + 48) else Char.ofNat (digit + 87)

def escapeChar (char : Char) : List Char :=
  if char = '"' then ['\\', '"']
  else if char = '\\' then ['\\', '\\']
  else if char = '\x08' then ['\\', 'b']
  else if char = '\x0c' then ['\\', 'f']
  else if char = '\n' then ['\\', 'n']
  else if char = '\r' then ['\\', 'r']
  else if char = '\t' then ['\\', 't']
  else if char.toNat < 0x20 then
    ['\\', 'u', '0', '0', hexLetter (char.toNat / 16), hexLetter (char.toNat % 16)]
  else [char]

def printString (value : String) : List Char := '"' :: value.toList.flatMap escapeChar ++ ['"']

def NumberToken.print (token : NumberToken) : List Char :=
  (if token.negative then ['-'] else []) ++ (Nat.repr token.magnitude).toList ++
    (token.fraction.map ('.' :: ·)).getD [] ++ (token.exponent.map ('e' :: ·)).getD []

def Number.print : Number → List Char
  | .posInt value => (Nat.repr value.toNat).toList
  | .negInt value => (Int.repr value.toInt).toList
  | .float token => token.print

mutual

def Value.print : Value → List Char
  | .null => "null".toList
  | .bool value => (if value then "true" else "false").toList
  | .number number => number.print
  | .string value => printString value
  | .array [] => ['[', ']']
  | .array (element :: rest) => '[' :: element.print ++ printElements rest
  | .object [] => ['\x7b', '\x7d']
  | .object ((name, value) :: rest) =>
    '\x7b' :: printString name ++ ':' :: value.print ++ printMembers rest

def printElements : List Value → List Char
  | [] => [']']
  | element :: rest => ',' :: element.print ++ printElements rest

def printMembers : List (String × Value) → List Char
  | [] => ['\x7d']
  | (name, value) :: rest => ',' :: printString name ++ ':' :: value.print ++ printMembers rest

end

namespace SerdeJson

def reference : SerdeJson where
  fromSlice := read
  representable _ := true
  toText value := .ofList value.print

theorem reference_readsJson : reference.ReadsJson := id

theorem reference_decodesWithinText : reference.DecodesWithinText := read_length

end SerdeJson

end Json

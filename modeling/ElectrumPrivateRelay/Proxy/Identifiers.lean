import ElectrumPrivateRelay.Protocol.Lines
import ElectrumPrivateRelay.Proxy.Connection

/-! The keys of the table identify the identifiers.

A key is the compact text of an identifier, so it is decided by what the
identifier denotes and not by how the wallet spells it.
-/

set_option autoImplicit false

namespace ElectrumPrivateRelay.Proxy
open Json Protocol Semantics

def integerOf (token : NumberToken) : Int :=
  if token.negative then -token.magnitude else token.magnitude

/-- A part of a text that can be correlated. -/
def Usable : Tree → Prop
  | .string value => value.utf8ByteSize ≤ maxRequestIdStringBytes
  | .number token =>
    token.fraction = none ∧ token.exponent = none ∧ ¬ (token.negative = true ∧ token.magnitude = 0) ∧
      Int64.minValue.toInt ≤ integerOf token ∧ integerOf token < UInt64.size
  | .null | .bool _ | .array _ | .object _ => False

/-- Two parts of a text that denote the same string or the same integer. -/
def SameIdentifier : Tree → Tree → Prop
  | .string left, .string right => left = right
  | .number left, .number right => integerOf left = integerOf right
  | _, _ => False

inductive Keeps (integer : Int) : Number → Prop where
  | posInt {value : UInt64} (same : (value.toNat : Int) = integer) : Keeps integer (.posInt value)
  | negInt {value : Int64} (same : value.toInt = integer) (negative : integer < 0) :
      Keeps integer (.negInt value)

theorem Keeps.unique {left right : Int} {leftKept rightKept : Number} (leftKeeps : Keeps left leftKept)
    (rightKeeps : Keeps right rightKept) : leftKept = rightKept ↔ left = right := by
  cases leftKeeps with
  | posInt leftSame =>
    cases rightKeeps with
    | posInt rightSame =>
      rw [Number.posInt.injEq, ← UInt64.toNat_inj]
      omega
    | negInt rightSame negative =>
      constructor
      · intro same
        cases same
      · intro same
        omega
  | negInt leftSame negative =>
    cases rightKeeps with
    | posInt rightSame =>
      constructor
      · intro same
        cases same
      · intro same
        omega
    | negInt rightSame _ =>
      rw [Number.negInt.injEq, ← Int64.toInt_inj, leftSame, rightSame]

theorem Keeps.integer {integer : Int} {number : Number} (kept : Keeps integer number) : number.IsInteger := by
  cases kept <;> trivial

theorem Keeps.valid {integer : Int} {number : Number} (kept : Keeps integer number) :
    isValidRequestId (.number number) = true := by
  cases kept <;> rfl

theorem Keeps.small {integer : Int} {number : Number} (kept : Keeps integer number) :
    number.token.magnitude < UInt64.size := by
  cases kept with
  | posInt _ => exact UInt64.toNat_lt_size _
  | @negInt value _ _ =>
    have low := value.le_toInt
    have high := value.toInt_lt
    simp only [Number.token, UInt64.size]
    omega

theorem toNumber_cases (token : NumberToken) :
    (Usable (.number token) ∧ Keeps (integerOf token) token.toNumber) ∨
      (¬ Usable (.number token) ∧ token.toNumber = .float token) := by
  have least : Int64.minValue.toInt = -9223372036854775808 := rfl
  have most : UInt64.size = 18446744073709551616 := rfl
  by_cases plain : token.fraction = none ∧ token.exponent = none
  · obtain ⟨fraction, exponent⟩ := plain
    cases sign : token.negative with
    | false =>
      have value : integerOf token = token.magnitude := by simp [integerOf, sign]
      by_cases small : token.magnitude < 18446744073709551616
      · have number : token.toNumber = .posInt (.ofNat token.magnitude) := by
          simp [NumberToken.toNumber, fraction, exponent, sign, small]
        have kept : (UInt64.ofNat token.magnitude).toNat = token.magnitude := UInt64.toNat_ofNat_of_lt small
        rw [number, value]
        refine .inl ⟨⟨fraction, exponent, by simp [sign], by omega, by omega⟩, .posInt (by rw [kept])⟩
      · have number : token.toNumber = .float token := by
          simp [NumberToken.toNumber, fraction, exponent, sign, small]
        refine .inr ⟨?_, number⟩
        rintro ⟨-, -, -, -, bound⟩
        omega
    | true =>
      have value : integerOf token = -token.magnitude := by simp [integerOf, sign]
      by_cases range : 0 < token.magnitude ∧ token.magnitude ≤ 9223372036854775808
      · have number : token.toNumber = .negInt (.ofInt (-token.magnitude)) := by
          simp [NumberToken.toNumber, fraction, exponent, sign, range]
        have kept : (Int64.ofInt (-token.magnitude)).toInt = -token.magnitude :=
          Int64.toInt_ofInt_of_le (by omega) (by omega)
        have nonzero : ¬ (token.negative = true ∧ token.magnitude = 0) := by omega
        rw [number, value]
        exact .inl ⟨⟨fraction, exponent, nonzero, by omega, by omega⟩, .negInt kept (by omega)⟩
      · have number : token.toNumber = .float token := by
          simp [NumberToken.toNumber, fraction, exponent, sign, range]
        refine .inr ⟨?_, number⟩
        rintro ⟨-, -, nonzero, bound, -⟩
        have positive : token.magnitude ≠ 0 := fun zero => nonzero ⟨sign, zero⟩
        omega
  · have number : token.toNumber = .float token := by
      have spelled : (token.fraction.isSome || token.exponent.isSome) = true := by
        cases fraction : token.fraction <;> cases exponent : token.exponent <;> simp_all
      simp [NumberToken.toNumber, spelled]
    refine .inr ⟨?_, number⟩
    rintro ⟨fraction, exponent, -⟩
    exact plain ⟨fraction, exponent⟩

theorem isValidRequestId_usable (tree : Tree) : isValidRequestId tree.toValue = true ↔ Usable tree := by
  cases tree with
  | null | bool _ | array _ => simp [Tree.toValue, isValidRequestId, Usable]
  | object _ => simp [Tree.toValue, Value.ofMembers, isValidRequestId, Usable]
  | string value => simp [Tree.toValue, isValidRequestId, Usable]
  | number token =>
    rw [Tree.toValue]
    rcases toNumber_cases token with ⟨usable, kept⟩ | ⟨unusable, float⟩
    · exact ⟨fun _ => usable, fun _ => kept.valid⟩
    · simp [float, isValidRequestId, unusable]

theorem usable_scalar {tree : Tree} (usable : Usable tree) : tree.toValue.IsScalar :=
  validId_scalar ((isValidRequestId_usable tree).mpr usable)

theorem toValue_eq_iff {left right : Tree} (leftUsable : Usable left) (rightUsable : Usable right) :
    left.toValue = right.toValue ↔ SameIdentifier left right := by
  cases left with
  | null | bool _ | array _ | object _ => exact absurd leftUsable id
  | string leftValue =>
    cases right with
    | null | bool _ | array _ | object _ => exact absurd rightUsable id
    | string rightValue => simp [Tree.toValue, SameIdentifier]
    | number token => simp [Tree.toValue, SameIdentifier]
  | number leftToken =>
    cases right with
    | null | bool _ | array _ | object _ => exact absurd rightUsable id
    | string rightValue => simp [Tree.toValue, SameIdentifier]
    | number rightToken =>
      rcases toNumber_cases leftToken with ⟨-, leftKept⟩ | ⟨unusable, -⟩
      · rcases toNumber_cases rightToken with ⟨-, rightKept⟩ | ⟨unusable, -⟩
        · rw [Tree.toValue, Tree.toValue, Value.number.injEq]
          exact leftKept.unique rightKept
        · exact absurd rightUsable unusable
      · exact absurd leftUsable unusable

variable {json : SerdeJson}

theorem requestIdKey_usable {tree : Tree} (usable : Usable tree) :
    requestIdKey json tree.toValue = some (json.toText tree.toValue) := by
  rw [requestIdKey, if_pos ((isValidRequestId_usable tree).mpr usable)]

theorem toText_inj (compact : json.PrintsCompactly) {left right : Value} (leftScalar : left.IsScalar)
    (rightScalar : right.IsScalar) : json.toText left = json.toText right ↔ left = right := by
  constructor
  · intro same
    rw [compact leftScalar.exact, compact rightScalar.exact, String.ofList_inj] at same
    exact print_injective leftScalar rightScalar same
  · exact congrArg json.toText

/-- Six bytes for each byte of a string and two quotes. -/
def maxKeyBytes : Nat := maxRequestIdStringBytes * 6 + 2

theorem toText_length (compact : json.PrintsCompactly) {tree : Tree} (usable : Usable tree) :
    (json.toText tree.toValue).utf8ByteSize ≤ maxKeyBytes := by
  have bytes : (json.toText tree.toValue).utf8ByteSize = (encodeUtf8 tree.toValue.print).length := by
    rw [compact (usable_scalar usable).exact, utf8ByteSize_eq_utf8Len, String.toList_ofList,
      encodeUtf8_length]
  rw [bytes]
  cases tree with
  | null | bool _ | array _ | object _ => exact absurd usable id
  | string value =>
    have short : value.utf8ByteSize ≤ 256 := usable
    have printed := printString_length value
    simp only [Tree.toValue, Value.print, maxKeyBytes, maxRequestIdStringBytes]
    omega
  | number token =>
    rcases toNumber_cases token with ⟨-, kept⟩ | ⟨unusable, -⟩
    · have printed := integerText_length token.toNumber.token.negative kept.small
      simp only [Tree.toValue, Value.print, Number.print_eq kept.integer, maxKeyBytes, maxRequestIdStringBytes]
      omega
    · exact absurd usable unusable

theorem passthrough_key {frame : List UInt8} {id : Value}
    (classified : classify json frame = .ok (.passthrough (some id))) :
    (requestIdKey json id).isSome = true := by
  obtain ⟨-, -, -, -, -, accepted, -⟩ := classify_passthrough.mp classified
  rw [requestIdKey_isSome]
  exact accepted id rfl

theorem takenUpPhase_not_panicked (frame : List UInt8) : takenUpPhase json frame ≠ .ended .panicked := by
  unfold takenUpPhase
  split
  · nofun
  · next id classified =>
    have key := passthrough_key classified
    split
    · nofun
    · next missing =>
      rw [missing] at key
      cases key
  · split <;> nofun
  · nofun

theorem reservedPhase_not_panicked {frame : List UInt8} {id : Value} {key : String} {purpose : Purpose}
    {outcome : Reservation} : reservedPhase json frame id key purpose outcome ≠ .ended .panicked := by
  cases purpose <;> cases outcome <;> nofun

theorem ClientTask.read_not_panicked {limits : ConnectionLimits} (task : ClientTask) :
    (task.read json limits).phase ≠ .ended .panicked := by
  unfold ClientTask.read
  split
  · exact takenUpPhase_not_panicked _
  · nofun
  · nofun
  · nofun

theorem step_not_panicked {limits : ConnectionLimits} {state next : Connection} {action : Action}
    (calm : state.client.phase ≠ .ended .panicked)
    (taken : state.step json limits action = some next) : next.client.phase ≠ .ended .panicked := by
  rcases Connection.step_cases taken with ⟨move, rfl, effect⟩ | ⟨move, rfl, effect⟩ | quiet
  · cases effect with
    | read phase unset => exact state.client.read_not_panicked
    | reserved phase decided => exact reservedPhase_not_panicked
    | @wrote remaining count phase =>
      simp only [writingPhase]
      split <;> nofun
    | observed _ _ | writeFailed _ | called _ | returned _ | returnedUnkeyed _ | released _ | answered _ _
    | noticed _ _ | refused _ _ | cancelled _ _ => nofun
  · rw [effect.client_eq]
    exact calm
  · rw [quiet.client]
    exact calm

/-- What the keys of the table are good for. -/
structure IdentifiesExactly (json : SerdeJson) : Prop where
  usable : ∀ tree : Tree, (requestIdKey json tree.toValue).isSome = true ↔ Usable tree
  same : ∀ left right : Tree, Usable left → Usable right →
    (requestIdKey json left.toValue = requestIdKey json right.toValue ↔ SameIdentifier left right)
  short : ∀ (tree : Tree) (key : String), requestIdKey json tree.toValue = some key →
    key.utf8ByteSize ≤ maxKeyBytes
  /-- The key of a passthrough request is there when it is expected. -/
  expected : ∀ (limits : ConnectionLimits) (clientInput upstreamInput : Input) (actions : List Action)
    (final : Connection),
    (Connection.machine json limits).run (.new clientInput upstreamInput) actions = some final →
    final.client.phase ≠ .ended .panicked

theorem keys_identify (json : SerdeJson) (compact : json.PrintsCompactly) : IdentifiesExactly json := by
  constructor
  · intro tree
    rw [requestIdKey_isSome]
    exact isValidRequestId_usable tree
  · intro left right leftUsable rightUsable
    rw [requestIdKey_usable leftUsable, requestIdKey_usable rightUsable, Option.some.injEq,
      toText_inj compact (usable_scalar leftUsable) (usable_scalar rightUsable)]
    exact toValue_eq_iff leftUsable rightUsable
  · intro tree key found
    have valid : isValidRequestId tree.toValue = true := by
      rw [← requestIdKey_isSome json, found]
      rfl
    have usable := (isValidRequestId_usable tree).mp valid
    rw [requestIdKey_usable usable] at found
    cases found
    exact toText_length compact usable
  · intro limits clientInput upstreamInput actions final execution
    refine (Connection.machine json limits).run_preserves (motive := fun state =>
      state.client.phase ≠ .ended .panicked) ?_ ?_ execution
    · intro state action next calm taken
      exact step_not_panicked calm taken
    · intro panicked
      cases panicked

theorem keys_identify_reference : IdentifiesExactly .reference :=
  keys_identify .reference SerdeJson.reference_printsCompactly

end ElectrumPrivateRelay.Proxy

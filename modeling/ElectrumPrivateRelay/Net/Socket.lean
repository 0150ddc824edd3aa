import ElectrumPrivateRelay.Net.Canonical

/-! Socket address text: an address, a port, and for IPv6 a numeric scope.

The scope is read and checked, but it is no part of the address.
-/

set_option autoImplicit false

namespace Net

def readPort (text : List Char) : Option (UInt16 × List Char) :=
  ((readGiven ':' text).bind (readNumber 10 none true 0xFFFF)).map fun (value, rest) =>
    (UInt16.ofNat value, rest)

def readScopeId (text : List Char) : Option (UInt32 × List Char) :=
  ((readGiven '%' text).bind (readNumber 10 none true 0xFFFFFFFF)).map fun (value, rest) =>
    (UInt32.ofNat value, rest)

def readSocketAddrV4 (text : List Char) : Option (SocketAddr × List Char) := do
  let (address, text) ← readIpv4 text
  let (port, text) ← readPort text
  return (⟨.v4 address, port⟩, text)

/-- What follows an optional scope. -/
def skipScopeId (text : List Char) : List Char :=
  match readScopeId text with
  | some (_, rest) => rest
  | none => text

def readSocketAddrV6 (text : List Char) : Option (SocketAddr × List Char) := do
  let text ← readGiven '[' text
  let (address, text) ← readIpv6 text
  let text ← readGiven ']' (skipScopeId text)
  let (port, text) ← readPort text
  return (⟨.v6 address, port⟩, text)

/-- `str::parse::<SocketAddr>`: the whole text is one socket address. -/
def SocketAddr.parse (text : String) : Option SocketAddr :=
  match (readSocketAddrV4 text.toList).or (readSocketAddrV6 text.toList) with
  | some (socket, []) => some socket
  | _ => none

def isAsciiDigit (char : Char) : Bool := '0' ≤ char && char ≤ '9'

structure Decimal (text : List Char) (value : Nat) : Prop where
  nonempty : text ≠ []
  digits : ∀ char ∈ text, isAsciiDigit char = true
  total : text.foldl (fun value char => value * 10 + (char.toNat - '0'.toNat)) 0 = value

theorem isAsciiDigit_iff {char : Char} : isAsciiDigit char = true ↔ 48 ≤ char.toNat ∧ char.toNat ≤ 57 := by
  simp only [isAsciiDigit, Bool.and_eq_true, decide_eq_true_eq]
  rfl

theorem toDigit_ten (char : Char) :
    toDigit 10 char = if isAsciiDigit char then some (char.toNat - '0'.toNat) else none := by
  have codes := @isAsciiDigit_iff char
  rw [toDigit_eq]
  have zero : '0'.toNat = 48 := rfl
  grind

theorem Decimal.spells {text : List Char} {value : Nat} (decimal : Decimal text value) :
    ∃ digits, Spells 10 text digits ∧ digits ≠ [] ∧ numeral 10 digits = value := by
  refine ⟨text.map fun char => char.toNat - '0'.toNat, ?_, ?_, ?_⟩
  · rw [Spells, List.map_map]
    apply List.map_congr_left
    intro char member
    rw [toDigit_ten, if_pos (decimal.digits char member)]
    rfl
  · simpa using decimal.nonempty
  · rw [numeral, List.foldl_map]
    exact decimal.total

theorem Spells.decimal {text : List Char} {digits : List Nat} (spells : Spells 10 text digits)
    (nonempty : digits ≠ []) : Decimal text (numeral 10 digits) where
  nonempty := by
    rintro rfl
    exact nonempty (List.length_eq_zero_iff.mp spells.length.symm)
  digits := by
    intro char member
    obtain ⟨digit, found⟩ := spells.digit member
    rw [toDigit_ten] at found
    split at found
    · assumption
    · cases found
  total := by
    have values : digits = text.map fun char => char.toNat - '0'.toNat := by
      apply (List.map_inj_right fun _ _ => Option.some.inj).mp
      rw [← spells, List.map_map]
      apply List.map_congr_left
      intro char member
      obtain ⟨digit, found⟩ := spells.digit member
      rw [found]
      rw [toDigit_ten] at found
      split at found
      · exact found.symm
      · cases found
    rw [values, numeral, List.foldl_map]

theorem readNumber_of_decimal {bound value : Nat} {text tail : List Char} (decimal : Decimal text value)
    (within : value ≤ bound) (stops : ∀ char, tail.head? = some char → toDigit 10 char = none) :
    readNumber 10 none true bound (text ++ tail) = some (value, tail) := by
  obtain ⟨digits, spells, nonempty, rfl⟩ := decimal.spells
  exact readNumber_of_spells spells nonempty rfl (.inl rfl) within stops

theorem readNumber_decimal {bound value : Nat} {text rest : List Char}
    (found : readNumber 10 none true bound text = some (value, rest)) :
    ∃ body, text = body ++ rest ∧ Decimal body value ∧ value ≤ bound := by
  obtain ⟨body, digits, split, spells, nonempty, -, -, rfl, within⟩ := readNumber_eq_some found
  exact ⟨body, split, spells.decimal nonempty, within⟩

theorem decimal_toDigits (value : Nat) : Decimal (Nat.toDigits 10 value) value := by
  obtain ⟨digits, spells, same, -⟩ := spells_toDigits (by decide : 1 < 10) (by decide) value
  have nonempty : digits ≠ [] := by
    rintro rfl
    exact Nat.toDigits_ne_nil (List.length_eq_zero_iff.mp spells.length)
  have decimal := spells.decimal nonempty
  rwa [same] at decimal

inductive SocketText : List Char → SocketAddr → Prop where
  | v4 {address : Ipv4Addr} {port : UInt16} {digits : List Char} (decimal : Decimal digits port.toNat) :
      SocketText (address.toText ++ ':' :: digits) ⟨.v4 address, port⟩
  | v6 {host digits : List Char} {address : Ipv6Addr} {port : UInt16}
      (literal : readIpv6 host = some (address, [])) (decimal : Decimal digits port.toNat) :
      SocketText ('[' :: (host ++ ']' :: ':' :: digits)) ⟨.v6 address, port⟩
  | zoned {host scope digits : List Char} {address : Ipv6Addr} {port : UInt16} {value : UInt32}
      (literal : readIpv6 host = some (address, [])) (numeric : Decimal scope value.toNat)
      (decimal : Decimal digits port.toNat) :
      SocketText ('[' :: (host ++ '%' :: (scope ++ ']' :: ':' :: digits))) ⟨.v6 address, port⟩

theorem readPort_of_decimal {digits : List Char} {port : UInt16} (decimal : Decimal digits port.toNat) :
    readPort (':' :: digits) = some (port, []) := by
  have bound := port.toNat_lt
  have read : readNumber 10 none true 0xFFFF (digits ++ []) = some (port.toNat, []) :=
    readNumber_of_decimal decimal (by omega) nofun
  rw [List.append_nil] at read
  simp [readPort, readGiven, read]

theorem readPort_decimal {text : List Char} {port : UInt16} (found : readPort text = some (port, [])) :
    ∃ digits, text = ':' :: digits ∧ Decimal digits port.toNat := by
  obtain ⟨⟨value, _⟩, inner, same⟩ := Option.map_eq_some_iff.mp found
  cases same
  obtain ⟨after, colon, number⟩ := Option.bind_eq_some_iff.mp inner
  obtain ⟨body, split, decimal, bound⟩ := readNumber_decimal number
  have small : (UInt16.ofNat value).toNat = value := by
    rw [UInt16.toNat_ofNat']
    exact Nat.mod_eq_of_lt (by omega)
  refine ⟨body, ?_, ?_⟩
  · rw [readGiven_eq_some colon, split, List.append_nil]
  · rwa [small]

theorem readIpv6_literal {host : List Char} {mark : Char} {address : Ipv6Addr}
    (digit : toDigit 16 mark = none) (dot : mark ≠ '.') (colon : mark ≠ ':') (rest : List Char) :
    readIpv6 (host ++ mark :: rest) = some (address, mark :: rest) ↔ readIpv6 host = some (address, []) := by
  have passed : readIpv6 (host ++ mark :: rest) = (readIpv6 host).map (Prod.map id (· ++ mark :: rest)) :=
    readIpv6_change (append_transparent digit dot colon) host
  rw [passed]
  constructor
  · intro found
    obtain ⟨⟨other, left⟩, read, same⟩ := Option.map_eq_some_iff.mp found
    simp only [Prod.map_apply, id_eq, Prod.mk.injEq, List.append_left_eq_self] at same
    rw [read, same.1, same.2]
  · intro read
    rw [read]
    rfl

theorem skipScopeId_of_decimal {scope rest : List Char} {value : UInt32} (numeric : Decimal scope value.toNat) :
    skipScopeId ('%' :: (scope ++ ']' :: rest)) = ']' :: rest := by
  have bound := value.toNat_lt
  have read : readNumber 10 none true 0xFFFFFFFF (scope ++ ']' :: rest) = some (value.toNat, ']' :: rest) :=
    readNumber_of_decimal numeric (by omega) (by rintro char ⟨⟩; rfl)
  simp [skipScopeId, readScopeId, readGiven, read]

theorem skipScopeId_eq {text rest : List Char} (skipped : skipScopeId text = rest) :
    text = rest ∨ ∃ scope value, text = '%' :: (scope ++ rest) ∧ Decimal scope (UInt32.toNat value) := by
  unfold skipScopeId at skipped
  split at skipped
  · next number after found =>
    subst skipped
    obtain ⟨⟨value, _⟩, inner, same⟩ := Option.map_eq_some_iff.mp found
    cases same
    obtain ⟨next, mark, number⟩ := Option.bind_eq_some_iff.mp inner
    obtain ⟨body, split, decimal, bound⟩ := readNumber_decimal number
    have small : (UInt32.ofNat value).toNat = value := by
      rw [UInt32.toNat_ofNat']
      exact Nat.mod_eq_of_lt (by omega)
    refine .inr ⟨body, UInt32.ofNat value, ?_, by rwa [small]⟩
    rw [readGiven_eq_some mark, split]
  · exact .inl skipped

theorem readSocketAddrV4_bracket (rest : List Char) : readSocketAddrV4 ('[' :: rest) = none := rfl

theorem SocketText.parse {text : String} {socket : SocketAddr} (spelled : SocketText text.toList socket) :
    SocketAddr.parse text = some socket := by
  unfold SocketAddr.parse
  generalize text.toList = letters at spelled
  cases spelled with
  | @v4 address port digits decimal =>
    have quad : readIpv4 (address.toText ++ ':' :: digits) = some (address, ':' :: digits) :=
      readIpv4_toText address (by rintro char ⟨⟩; rfl)
    simp [readSocketAddrV4, quad, readPort_of_decimal decimal]
  | @v6 host digits address port literal decimal =>
    have read := (readIpv6_literal rfl (by decide : ']' ≠ '.') (by decide) (':' :: digits)).mpr literal
    have unscoped : skipScopeId (']' :: ':' :: digits) = ']' :: ':' :: digits := rfl
    simp [readSocketAddrV4_bracket, readSocketAddrV6, readGiven, read, unscoped, readPort_of_decimal decimal]
  | @zoned host scope digits address port value literal numeric decimal =>
    have read := (readIpv6_literal rfl (by decide : '%' ≠ '.') (by decide)
      (scope ++ ']' :: ':' :: digits)).mpr literal
    simp [readSocketAddrV4_bracket, readSocketAddrV6, readGiven, read, skipScopeId_of_decimal numeric,
      readPort_of_decimal decimal]

theorem readSocketAddrV4_text {text : List Char} {socket : SocketAddr}
    (found : readSocketAddrV4 text = some (socket, [])) : SocketText text socket := by
  simp only [readSocketAddrV4, Option.bind_eq_bind, Option.bind_eq_some_iff, Prod.exists] at found
  obtain ⟨address, afterAddress, quad, port, rest, read, same⟩ := found
  cases same
  obtain ⟨digits, rfl, decimal⟩ := readPort_decimal read
  rw [readIpv4_canonical quad]
  exact .v4 decimal

theorem readSocketAddrV6_text {text : List Char} {socket : SocketAddr}
    (found : readSocketAddrV6 text = some (socket, [])) : SocketText text socket := by
  simp only [readSocketAddrV6, Option.bind_eq_bind, Option.bind_eq_some_iff, Prod.exists] at found
  obtain ⟨inner, bracket, address, afterAddress, literal, afterScope, closing, port, rest, read, same⟩ := found
  cases same
  obtain ⟨digits, rfl, decimal⟩ := readPort_decimal read
  obtain ⟨host, rfl, -⟩ := addressed_tracks.ofIpv6 literal
  rw [readGiven_eq_some bracket]
  rcases skipScopeId_eq (readGiven_eq_some closing) with rfl | ⟨scope, value, rfl, numeric⟩
  · exact .v6 ((readIpv6_literal rfl (by decide) (by decide) _).mp literal) decimal
  · exact .zoned ((readIpv6_literal rfl (by decide) (by decide) _).mp literal) numeric decimal

/-- The texts that are read are the texts of socket addresses. -/
theorem SocketAddr.parse_eq_some {text : String} {socket : SocketAddr} :
    SocketAddr.parse text = some socket ↔ SocketText text.toList socket := by
  constructor
  · intro parsed
    unfold SocketAddr.parse at parsed
    split at parsed
    · next found =>
      cases parsed
      rcases Option.or_eq_some_iff.mp found with quad | ⟨-, groups⟩
      · exact readSocketAddrV4_text quad
      · exact readSocketAddrV6_text groups
    · cases parsed
  · exact SocketText.parse

end Net

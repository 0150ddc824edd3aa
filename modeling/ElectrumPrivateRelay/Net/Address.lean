import ElectrumPrivateRelay.Semantics.Usize

/-! Internet addresses and their textual forms.

The readers follow the address grammar of the standard library: strict dotted
quads without leading zeros, and IPv6 text with at most one `::` and at most
one embedded trailing dotted quad. The writers give the canonical text.
-/

set_option autoImplicit false

namespace Net

structure Ipv4Addr where
  a : UInt8
  b : UInt8
  c : UInt8
  d : UInt8
  deriving DecidableEq, Repr

structure Ipv6Addr where
  segments : List UInt16
  complete : segments.length = 8
  deriving DecidableEq, Repr

inductive IpAddr where
  | v4 (address : Ipv4Addr)
  | v6 (address : Ipv6Addr)
  deriving DecidableEq, Repr

/-- A socket address as far as its address and port go. -/
structure SocketAddr where
  ip : IpAddr
  port : UInt16
  deriving DecidableEq, Repr

def Ipv6Addr.ofSegments (segments : List UInt16) : Option Ipv6Addr :=
  if complete : segments.length = 8 then some ⟨segments, complete⟩ else none

def IpAddr.isLoopback : IpAddr → Bool
  | .v4 address => address.a = 127
  | .v6 address => address.segments = [0, 0, 0, 0, 0, 0, 0, 1]

def IpAddr.isUnspecified : IpAddr → Bool
  | .v4 address => address = ⟨0, 0, 0, 0⟩
  | .v6 address => address.segments = [0, 0, 0, 0, 0, 0, 0, 0]

/-- `char::to_digit` for a radix of at most 36. -/
def toDigit (radix : Nat) (char : Char) : Option Nat :=
  let value :=
    if '0' ≤ char ∧ char ≤ '9' then char.toNat - '0'.toNat
    else if 'a' ≤ char ∧ char ≤ 'z' then char.toNat - 'a'.toNat + 10
    else if 'A' ≤ char ∧ char ≤ 'Z' then char.toNat - 'A'.toNat + 10
    else radix
  if value < radix then some value else none

def readDigits (radix : Nat) : List Char → List Nat × List Char
  | [] => ([], [])
  | char :: rest =>
    match toDigit radix char with
    | some digit => (digit :: (readDigits radix rest).1, (readDigits radix rest).2)
    | none => ([], char :: rest)

/-- A number of at most `digits` digits that does not exceed `bound`. -/
def readNumber (radix : Nat) (digits : Option Nat) (allowZeroPrefix : Bool) (bound : Nat)
    (text : List Char) : Option (Nat × List Char) :=
  let (found, rest) := readDigits radix text
  let value := found.foldl (fun value digit => value * radix + digit) 0
  if found = [] then none
  else if digits.any (· < found.length) then none
  else if !allowZeroPrefix && found.head? = some 0 && 1 < found.length then none
  else if value ≤ bound then some (value, rest) else none

def readGiven (expected : Char) : List Char → Option (List Char)
  | char :: rest => if char = expected then some rest else none
  | [] => none

def readSeparator (separator : Char) (index : Nat) (text : List Char) : Option (List Char) :=
  if index = 0 then some text else readGiven separator text

def readOctet (text : List Char) : Option (UInt8 × List Char) :=
  (readNumber 10 (some 3) false 255 text).map fun (value, rest) => (UInt8.ofNat value, rest)

def readIpv4 (text : List Char) : Option (Ipv4Addr × List Char) := do
  let (a, text) ← readOctet text
  let (b, text) ← (readGiven '.' text).bind readOctet
  let (c, text) ← (readGiven '.' text).bind readOctet
  let (d, text) ← (readGiven '.' text).bind readOctet
  return (⟨a, b, c, d⟩, text)

def Ipv4Addr.groups (address : Ipv4Addr) : List UInt16 :=
  [address.a.toUInt16 * 256 + address.b.toUInt16, address.c.toUInt16 * 256 + address.d.toUInt16]

/-- Up to `limit` further groups, and whether an embedded dotted quad ended
them. A quad needs room for two groups. -/
def readGroups (index : Nat) : (limit : Nat) → List Char → List UInt16 × Bool × List Char
  | 0, text => ([], false, text)
  | limit + 1, text =>
    let embedded := if 0 < limit then (readSeparator ':' index text).bind readIpv4 else none
    match embedded with
    | some (address, rest) => (address.groups, true, rest)
    | none =>
      match (readSeparator ':' index text).bind (readNumber 16 (some 4) true 0xFFFF) with
      | some (group, rest) =>
        let (groups, quad, rest) := readGroups (index + 1) limit rest
        (UInt16.ofNat group :: groups, quad, rest)
      | none => ([], false, text)

def readIpv6 (text : List Char) : Option (Ipv6Addr × List Char) :=
  let (head, quad, rest) := readGroups 0 8 text
  if head.length = 8 then (Ipv6Addr.ofSegments head).map fun address => (address, rest)
  else if quad then none
  else do
    let rest ← (readGiven ':' rest).bind (readGiven ':')
    let (tail, _, rest) := readGroups 0 (7 - head.length) rest
    let zeros := List.replicate (8 - head.length - tail.length) 0
    let address ← Ipv6Addr.ofSegments (head ++ zeros ++ tail)
    return (address, rest)

def readIpAddr (text : List Char) : Option (IpAddr × List Char) :=
  match readIpv4 text with
  | some (address, rest) => some (.v4 address, rest)
  | none => (readIpv6 text).map fun (address, rest) => (.v6 address, rest)

/-- `str::parse::<IpAddr>`: the whole text is one address. -/
def IpAddr.parse (text : String) : Option IpAddr :=
  match readIpAddr text.toList with
  | some (address, []) => some address
  | _ => none

theorem toDigit_dot (radix : Nat) : toDigit radix '.' = none := by
  simp [toDigit]

theorem readDigits_front (radix : Nat) (text : List Char) :
    ∃ front, text = front ++ (readDigits radix text).2 ∧
      front.length = (readDigits radix text).1.length ∧ '.' ∉ front := by
  induction text with
  | nil => exact ⟨[], rfl, rfl, List.not_mem_nil⟩
  | cons char rest ih =>
    unfold readDigits
    cases value : toDigit radix char with
    | none => exact ⟨[], rfl, rfl, List.not_mem_nil⟩
    | some digit =>
      obtain ⟨front, split, length, clean⟩ := ih
      refine ⟨char :: front, congrArg (char :: ·) split, congrArg (· + 1) length, ?_⟩
      intro member
      rcases List.mem_cons.mp member with same | later
      · rw [← same, toDigit_dot] at value
        cases value
      · exact clean later

def Undotted (text rest : List Char) : Prop :=
  ∃ front, text = front ++ rest ∧ front.getLast? ≠ some '.'

theorem Undotted.refl (text : List Char) : Undotted text text := ⟨[], rfl, nofun⟩

theorem Undotted.trans {text middle rest : List Char} (first : Undotted text middle)
    (second : Undotted middle rest) : Undotted text rest := by
  obtain ⟨front, rfl, clean⟩ := first
  obtain ⟨back, rfl, last⟩ := second
  refine ⟨front ++ back, (List.append_assoc front back rest).symm, ?_⟩
  rw [List.getLast?_append]
  cases ending : back.getLast? with
  | none => simpa using clean
  | some char => simpa [ending] using last

theorem readNumber_undotted {radix bound value : Nat} {digits : Option Nat} {zeros : Bool}
    {text rest : List Char} (found : readNumber radix digits zeros bound text = some (value, rest))
    (before : List Char) : Undotted (before ++ text) rest := by
  obtain ⟨front, split, length, clean⟩ := readDigits_front radix text
  unfold readNumber at found
  simp only at found
  split at found
  · cases found
  · next some =>
    split at found
    · cases found
    · split at found
      · cases found
      · split at found
        · cases found
          refine ⟨before ++ front, by rw [List.append_assoc, ← split], ?_⟩
          have nonempty : front ≠ [] := by
            intro empty
            rw [empty, List.length_nil, eq_comm, List.length_eq_zero_iff] at length
            exact some length
          rw [List.getLast?_append, List.getLast?_eq_some_getLast nonempty]
          intro last
          exact clean (Option.some.inj last ▸ List.getLast_mem nonempty)
        · cases found

theorem readGiven_eq_some {expected : Char} {text rest : List Char}
    (found : readGiven expected text = some rest) : text = expected :: rest := by
  unfold readGiven at found
  split at found
  · split at found
    · next same =>
      cases found
      rw [same]
    · cases found
  · cases found

theorem readOctet_undotted {text rest : List Char} {octet : UInt8}
    (found : readOctet text = some (octet, rest)) (before : List Char) :
    Undotted (before ++ text) rest := by
  obtain ⟨⟨value, _⟩, inner, same⟩ := Option.map_eq_some_iff.mp found
  cases same
  exact readNumber_undotted inner before

theorem readIpv4_eq_some {text rest : List Char} {address : Ipv4Addr}
    (found : readIpv4 text = some (address, rest)) :
    ∃ a b c d textB textC textD, readOctet text = some (a, '.' :: textB) ∧
      readOctet textB = some (b, '.' :: textC) ∧ readOctet textC = some (c, '.' :: textD) ∧
      readOctet textD = some (d, rest) ∧ address = ⟨a, b, c, d⟩ := by
  simp only [readIpv4, Option.bind_eq_bind, Option.bind_eq_some_iff, Prod.exists] at found
  obtain ⟨a, afterA, first, b, afterB, ⟨textB, dotB, second⟩, c, afterC, ⟨textC, dotC, third⟩,
    d, afterD, ⟨textD, dotD, fourth⟩, same⟩ := found
  cases same
  rw [readGiven_eq_some dotB] at first
  rw [readGiven_eq_some dotC] at second
  rw [readGiven_eq_some dotD] at third
  exact ⟨a, b, c, d, textB, textC, textD, first, second, third, fourth, rfl⟩

theorem readIpv4_undotted {text rest : List Char} {address : Ipv4Addr}
    (found : readIpv4 text = some (address, rest)) (before : List Char) :
    Undotted (before ++ text) rest := by
  obtain ⟨a, b, c, d, textB, textC, textD, first, second, third, fourth, -⟩ := readIpv4_eq_some found
  have one := readOctet_undotted first before
  have two := readOctet_undotted second ['.']
  have three := readOctet_undotted third ['.']
  exact ((one.trans two).trans three).trans (readOctet_undotted fourth ['.'])

theorem readSeparator_eq_some {separator : Char} {index : Nat} {text rest : List Char}
    (found : readSeparator separator index text = some rest) : ∃ before, text = before ++ rest := by
  unfold readSeparator at found
  split at found
  · cases found
    exact ⟨[], rfl⟩
  · exact ⟨[separator], readGiven_eq_some found⟩

/-- An IPv6 text is either eight groups or has a double colon after at most seven. -/
theorem readIpv6_eq_some {text rest : List Char} {address : Ipv6Addr}
    (found : readIpv6 text = some (address, rest)) :
    ((readGroups 0 8 text).1.length = 8 ∧ rest = (readGroups 0 8 text).2.2) ∨
      ∃ after limit, (readGroups 0 8 text).2.2 = ':' :: ':' :: after ∧
        rest = (readGroups 0 limit after).2.2 := by
  simp only [readIpv6] at found
  split at found
  · next eight =>
    obtain ⟨_, _, same⟩ := Option.map_eq_some_iff.mp found
    cases same
    exact .inl ⟨eight, rfl⟩
  · split at found
    · cases found
    · simp only [Option.bind_eq_bind, Option.bind_eq_some_iff] at found
      obtain ⟨tail, ⟨colon, first, second⟩, _, _, same⟩ := found
      cases same
      refine .inr ⟨tail, _, ?_, rfl⟩
      rw [readGiven_eq_some first, readGiven_eq_some second]

structure Tracks (reads : List Char → List Char → Prop) : Prop where
  refl : ∀ text, reads text text
  trans : ∀ {text middle rest}, reads text middle → reads middle rest → reads text rest
  quad : ∀ {index text inner rest address}, readSeparator ':' index text = some inner →
    readIpv4 inner = some (address, rest) → reads text rest
  group : ∀ {index text inner rest value}, readSeparator ':' index text = some inner →
    readNumber 16 (some 4) true 0xFFFF inner = some (value, rest) → reads text rest
  colons : ∀ rest, reads (':' :: ':' :: rest) rest

section
variable {reads : List Char → List Char → Prop}

theorem Tracks.ofGroups (tracks : Tracks reads) (limit index : Nat) (text : List Char) :
    reads text (readGroups index limit text).2.2 := by
  induction limit generalizing index text with
  | zero => exact tracks.refl text
  | succ limit ih =>
    simp only [readGroups]
    split
    · next address rest embedded =>
      split at embedded
      · obtain ⟨inner, separated, quad⟩ := Option.bind_eq_some_iff.mp embedded
        exact tracks.quad separated quad
      · cases embedded
    · split
      · next group rest found =>
        obtain ⟨inner, separated, number⟩ := Option.bind_eq_some_iff.mp found
        exact tracks.trans (tracks.group separated number) (ih (index + 1) rest)
      · exact tracks.refl text

theorem Tracks.ofIpv6 (tracks : Tracks reads) {text rest : List Char} {address : Ipv6Addr}
    (found : readIpv6 text = some (address, rest)) : reads text rest := by
  have front := tracks.ofGroups 8 0 text
  rcases readIpv6_eq_some found with ⟨-, same⟩ | ⟨after, limit, split, same⟩
  · rw [same]
    exact front
  · rw [split] at front
    rw [same]
    exact tracks.trans (tracks.trans front (tracks.colons after)) (tracks.ofGroups limit 0 after)

end

theorem undotted_tracks : Tracks Undotted where
  refl := .refl
  trans := .trans
  quad separated quad := by
    obtain ⟨before, rfl⟩ := readSeparator_eq_some separated
    exact readIpv4_undotted quad before
  group separated number := by
    obtain ⟨before, rfl⟩ := readSeparator_eq_some separated
    exact readNumber_undotted number before
  colons _ := ⟨[':', ':'], rfl, by decide⟩

theorem IpAddr.parse_undotted {text : String} {ip : IpAddr} (parsed : IpAddr.parse text = some ip) :
    text.toList.getLast? ≠ some '.' := by
  have undotted : Undotted text.toList [] := by
    unfold IpAddr.parse at parsed
    split at parsed
    · next address read =>
      unfold readIpAddr at read
      split at read
      · next found =>
        cases read
        exact readIpv4_undotted found []
      · obtain ⟨⟨address, _⟩, found, same⟩ := Option.map_eq_some_iff.mp read
        cases same
        exact undotted_tracks.ofIpv6 found
    · cases parsed
  obtain ⟨front, whole, clean⟩ := undotted
  rwa [whole, List.append_nil]

theorem readIpAddr_first {char : Char} {rest : List Char} (decimal : toDigit 10 char = none)
    (hexadecimal : toDigit 16 char = none) (colon : char ≠ ':') : readIpAddr (char :: rest) = none := by
  have noDecimal : readDigits 10 (char :: rest) = ([], char :: rest) := by simp [readDigits, decimal]
  have noHexadecimal : readDigits 16 (char :: rest) = ([], char :: rest) := by
    simp [readDigits, hexadecimal]
  have noQuad : readIpv4 (char :: rest) = none := by
    simp [readIpv4, readOctet, readNumber, noDecimal]
  have noGroups : readGroups 0 8 (char :: rest) = ([], false, char :: rest) := by
    simp [readGroups, readSeparator, noQuad, readNumber, noHexadecimal]
  simp [readIpAddr, noQuad, readIpv6, noGroups, readGiven, colon]

def Ipv4Addr.toText (address : Ipv4Addr) : List Char :=
  ['.'].intercalate ([address.a, address.b, address.c, address.d].map fun octet => Nat.toDigits 10 octet.toNat)

def groupsText (groups : List UInt16) : List Char :=
  [':'].intercalate (groups.map fun group => Nat.toDigits 16 group.toNat)

/-- Start and length of the first longest run of zero segments. -/
def longestZeros : (position : Nat) → (current best : Nat × Nat) → List UInt16 → Nat × Nat
  | _, _, best, [] => best
  | position, current, best, segment :: rest =>
    if segment = 0 then
      let current := (if current.2 = 0 then position else current.1, current.2 + 1)
      longestZeros (position + 1) current (if best.2 < current.2 then current else best) rest
    else longestZeros (position + 1) (0, 0) best rest

def Ipv6Addr.toText (address : Ipv6Addr) : List Char :=
  match address.segments with
  | [0, 0, 0, 0, 0, 0xFFFF, high, low] =>
    "::ffff:".toList ++ (Ipv4Addr.mk (high / 256).toUInt8 high.toUInt8 (low / 256).toUInt8 low.toUInt8).toText
  | segments =>
    let (start, length) := longestZeros 0 (0, 0) (0, 0) segments
    if 1 < length then
      groupsText (segments.take start) ++ "::".toList ++ groupsText (segments.drop (start + length))
    else groupsText segments

def IpAddr.toText : IpAddr → String
  | .v4 address => String.ofList address.toText
  | .v6 address => String.ofList address.toText

end Net

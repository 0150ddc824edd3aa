import ElectrumPrivateRelay.Configuration.Names
import ElectrumPrivateRelay.Configuration.Targets
import ElectrumPrivateRelay.Net.Socket

/-! The text of an endpoint: reading, printing, and the documented grammar.

Two readers are tried in turn, one for socket addresses and one for a host and
a port around the last colon. Each takes texts that the documentation does not
have: a port with a sign, and an IPv6 address with a scope that is then lost.
-/

set_option autoImplicit false

namespace ElectrumPrivateRelay.Configuration
open Net

/-- `str::trim`. -/
def trim (text : List Char) : List Char :=
  ((text.dropWhile isWhitespace).reverse.dropWhile isWhitespace).reverse

/-- `str::rsplit_once`: what stands around the last separator. -/
def rsplitOnce (separator : Char) : List Char → Option (List Char × List Char)
  | [] => none
  | char :: rest =>
    match rsplitOnce separator rest with
    | some (front, back) => some (char :: front, back)
    | none => if char = separator then some ([], rest) else none

/-- `str::parse::<u16>`: digits after an optional plus sign. -/
def parseU16 (text : List Char) : Option UInt16 :=
  let digits := match text with
    | '+' :: rest => rest
    | _ => text
  match readNumber 10 none true 0xFFFF digits with
  | some (value, []) => some (UInt16.ofNat value)
  | _ => none

def Endpoint.fromStr (value : String) : Except EndpointParseError Endpoint :=
  let text := value.toList
  if trim text ≠ text || text.isEmpty then .error ⟨"endpoint must not be empty or padded"⟩
  else if hasForbiddenEndpointSyntax text then
    .error ⟨"endpoint must use host:port without scheme, credentials, or path"⟩
  else if 1 < text.count ':' && text.head? ≠ some '[' then
    .error ⟨"IPv6 endpoints must use bracketed host:port syntax"⟩
  else match SocketAddr.parse value with
    | some socket => do
      let endpoint : Endpoint := ⟨socket.ip.toText, socket.port⟩
      endpoint.validate
      return endpoint
    | none =>
      match rsplitOnce ':' text with
      | none => .error ⟨"endpoint must use host:port syntax"⟩
      | some (host, port) =>
        match parseU16 port with
        | none => .error ⟨"endpoint port is invalid"⟩
        | some port => do
          let endpoint : Endpoint := ⟨String.ofList host, port⟩
          endpoint.validate
          return endpoint

/-- `to_string`: an IPv6 host is put in brackets. -/
def Endpoint.toText (endpoint : Endpoint) : String :=
  let port := Nat.toDigits 10 endpoint.port.toNat
  if endpoint.host.toList.contains ':' then
    String.ofList ('[' :: (endpoint.host.toList ++ ']' :: ':' :: port))
  else String.ofList (endpoint.host.toList ++ ':' :: port)

/-! ## The documented grammar -/

/-- A dotted quad, a bracketed IPv6 address or a DNS name, and the host it stands for. -/
inductive HostText : List Char → String → Prop where
  | quad {host : List Char} {address : Ipv4Addr}
      (literal : IpAddr.parse (String.ofList host) = some (.v4 address)) :
      HostText host (IpAddr.v4 address).toText
  | bracketed {host : List Char} {address : Ipv6Addr}
      (literal : IpAddr.parse (String.ofList host) = some (.v6 address)) :
      HostText ('[' :: (host ++ [']'])) (IpAddr.v6 address).toText
  | name {host : List Char} (valid : DnsName host) : HostText host (String.ofList host)

structure PortText (text : List Char) (port : UInt16) : Prop where
  decimal : Decimal text port.toNat
  nonzero : port ≠ 0

/-- A text of the grammar and the endpoint it denotes. -/
def Denotes (text : List Char) (endpoint : Endpoint) : Prop :=
  ∃ host port, text = host ++ ':' :: port ∧ HostText host endpoint.host ∧ PortText port endpoint.port

def Unbracketed (host : List Char) : Prop :=
  (∃ address, IpAddr.parse (String.ofList host) = some (.v4 address)) ∨ DnsName host

/-- An unbracketed host, and a port with a plus sign. -/
def SignedPort (text : List Char) : Prop :=
  ∃ host digits port, text = host ++ ':' :: '+' :: digits ∧ Unbracketed host ∧ PortText digits port

/-- A bracketed IPv6 address with a decimal scope, and a port. -/
def ScopedAddress (text : List Char) : Prop :=
  ∃ host scope digits address value port,
    text = '[' :: (host ++ '%' :: (scope ++ ']' :: ':' :: digits)) ∧
      IpAddr.parse (String.ofList host) = some (.v6 address) ∧ Decimal scope (UInt32.toNat value) ∧
      PortText digits port

theorem rsplitOnce_none {separator : Char} {text : List Char} :
    rsplitOnce separator text = none ↔ separator ∉ text := by
  induction text with
  | nil => simp [rsplitOnce]
  | cons char rest ih =>
    unfold rsplitOnce
    split
    · next front back found =>
      rw [found] at ih
      simp only [reduceCtorEq, false_iff, not_not] at ih
      simp [ih]
    · next none =>
      have clear := ih.mp none
      by_cases same : char = separator
      · simp [same]
      · simp [same, Ne.symm same, clear]

theorem rsplitOnce_append {separator : Char} (front : List Char) {back : List Char} (clear : separator ∉ back) :
    rsplitOnce separator (front ++ separator :: back) = some (front, back) := by
  induction front with
  | nil => simp [rsplitOnce, rsplitOnce_none.mpr clear]
  | cons char front ih => simp [rsplitOnce, ih]

theorem rsplitOnce_eq_some {separator : Char} {text front back : List Char}
    (found : rsplitOnce separator text = some (front, back)) :
    text = front ++ separator :: back ∧ separator ∉ back := by
  induction text generalizing front with
  | nil => cases found
  | cons char rest ih =>
    unfold rsplitOnce at found
    split at found
    · next inner after split =>
      cases found
      obtain ⟨same, clear⟩ := ih split
      exact ⟨congrArg (char :: ·) same, clear⟩
    · next none =>
      split at found
      · next same =>
        cases found
        exact ⟨congrArg (· :: back) same, rsplitOnce_none.mp none⟩
      · cases found

theorem append_colon_inj {host other port rest : List Char} (same : host ++ ':' :: port = other ++ ':' :: rest)
    (clear : ':' ∉ port) (otherClear : ':' ∉ rest) : host = other ∧ port = rest := by
  have first := rsplitOnce_append host clear
  rw [same, rsplitOnce_append other otherClear] at first
  cases first
  exact ⟨rfl, rfl⟩

theorem decimal_without_colon {text : List Char} {value : Nat} (decimal : Decimal text value) : ':' ∉ text := by
  intro member
  have digit := decimal.digits ':' member
  cases digit

theorem decimal_plain {text : List Char} {value : Nat} (decimal : Decimal text value) :
    ∀ char ∈ text, isPlain char = true := by
  intro char member
  have digit := decimal.digits char member
  simp only [isAsciiDigit] at digit
  simp [isPlain, isAsciiAlphanumeric, digit]

theorem parseU16_eq_some {text : List Char} {port : UInt16} :
    parseU16 text = some port ↔
      Decimal text port.toNat ∨ ∃ digits, text = '+' :: digits ∧ Decimal digits port.toNat := by
  have number (digits : List Char) :
      (match readNumber 10 none true 0xFFFF digits with
        | some (value, []) => some (UInt16.ofNat value)
        | _ => none) = some port ↔ Decimal digits port.toNat := by
    constructor
    · intro found
      split at found
      · next value read =>
        cases found
        obtain ⟨body, split, decimal, bound⟩ := readNumber_decimal read
        have small : (UInt16.ofNat value).toNat = value := by
          rw [UInt16.toNat_ofNat']
          exact Nat.mod_eq_of_lt (by omega)
        rwa [small, split, List.append_nil]
      · cases found
    · intro decimal
      have bound := port.toNat_lt
      have read : readNumber 10 none true 0xFFFF (digits ++ []) = some (port.toNat, []) :=
        readNumber_of_decimal decimal (by omega) nofun
      rw [List.append_nil] at read
      simp [read]
  unfold parseU16
  simp only [number]
  split
  · next digits =>
    constructor
    · intro decimal
      exact .inr ⟨digits, rfl, decimal⟩
    · rintro (decimal | ⟨digits, same, decimal⟩)
      · have sign := decimal.digits '+' List.mem_cons_self
        cases sign
      · cases same
        exact decimal
  · next unsigned =>
    constructor
    · exact .inl
    · rintro (decimal | ⟨digits, same, -⟩)
      · exact decimal
      · exact absurd same (unsigned digits)

theorem validate_eq_ok {endpoint : Endpoint} :
    endpoint.validate = .ok () ↔
      endpoint.port ≠ 0 ∧ ((∃ ip, IpAddr.parse endpoint.host = some ip) ∨ DnsName endpoint.host.toList) := by
  unfold Endpoint.validate
  split
  · next zero => simp [zero]
  · next nonzero => simp [nonzero, validateHost_eq_ok]

inductive Endpoint.Parsed (value : String) : Endpoint → Prop where
  | socket {socket : SocketAddr} (read : SocketAddr.parse value = some socket) :
      Parsed value ⟨socket.ip.toText, socket.port⟩
  | split {host port : List Char} {number : UInt16} (unread : SocketAddr.parse value = none)
      (around : value.toList = host ++ ':' :: port) (clear : ':' ∉ port)
      (read : parseU16 port = some number) : Parsed value ⟨String.ofList host, number⟩

structure Endpoint.Accepted (value : String) (endpoint : Endpoint) : Prop where
  unpadded : trim value.toList = value.toList
  nonempty : value.toList ≠ []
  allowed : hasForbiddenEndpointSyntax value.toList = false
  colons : value.toList.count ':' ≤ 1 ∨ value.toList.head? = some '['
  parsed : Parsed value endpoint
  valid : endpoint.validate = .ok ()

theorem validated_eq_ok {endpoint found : Endpoint} :
    (do endpoint.validate; return endpoint : Except EndpointParseError Endpoint) = .ok found ↔
      found = endpoint ∧ endpoint.validate = .ok () := by
  cases valid : endpoint.validate with
  | error message => simp [bind, Except.bind]
  | ok _ =>
    constructor
    · intro same
      cases same
      exact ⟨rfl, rfl⟩
    · rintro ⟨rfl, -⟩
      rfl

theorem fromStr_eq_ok {value : String} {endpoint : Endpoint} :
    Endpoint.fromStr value = .ok endpoint ↔ endpoint.Accepted value := by
  unfold Endpoint.fromStr
  simp only
  constructor
  · intro accepted
    split at accepted
    · cases accepted
    · next padding =>
      split at accepted
      · cases accepted
      · next forbidden =>
        split at accepted
        · cases accepted
        · next bracketing =>
          simp only [ne_eq, decide_not, Bool.or_eq_true, Bool.not_eq_true', decide_eq_false_iff_not,
            List.isEmpty_iff, not_or, not_not] at padding
          have colons : value.toList.count ':' ≤ 1 ∨ value.toList.head? = some '[' := by
            simp only [ne_eq, decide_not, Bool.and_eq_true, decide_eq_true_eq, Bool.not_eq_true',
              decide_eq_false_iff_not, not_and_or, Nat.not_lt, not_not] at bracketing
            exact bracketing
          split at accepted
          · next socket read =>
            obtain ⟨rfl, valid⟩ := validated_eq_ok.mp accepted
            exact ⟨padding.1, padding.2, Bool.eq_false_iff.mpr forbidden, colons, .socket read, valid⟩
          · next unread =>
            split at accepted
            · cases accepted
            · next host port around =>
              split at accepted
              · cases accepted
              · next number read =>
                obtain ⟨rfl, valid⟩ := validated_eq_ok.mp accepted
                obtain ⟨same, clear⟩ := rsplitOnce_eq_some around
                exact ⟨padding.1, padding.2, Bool.eq_false_iff.mpr forbidden, colons,
                  .split unread same clear read, valid⟩
  · rintro ⟨unpadded, nonempty, allowed, colons, parsed, valid⟩
    have padding : (decide (trim value.toList ≠ value.toList) || value.toList.isEmpty) = false := by
      simp [unpadded, nonempty]
    have bracketing : (decide (1 < value.toList.count ':') && decide (value.toList.head? ≠ some '[')) = false := by
      rcases colons with few | bracket
      · simp [Nat.not_lt.mpr few]
      · simp [bracket]
    simp only [padding, allowed, bracketing, Bool.false_eq_true, if_false]
    cases parsed with
    | socket read =>
      rw [read]
      exact validated_eq_ok.mpr ⟨rfl, valid⟩
    | split unread around clear read =>
      simp only [unread, around, rsplitOnce_append _ clear, read]
      exact validated_eq_ok.mpr ⟨rfl, valid⟩

theorem dropWhile_of_plain {text : List Char} (plain : ∀ char ∈ text, isPlain char = true) :
    text.dropWhile isWhitespace = text := by
  cases text with
  | nil => rfl
  | cons char rest =>
    have dark := isWhitespace_of_plain (plain char List.mem_cons_self)
    exact List.dropWhile_cons_of_neg (by simp [dark])

theorem trim_of_plain {text : List Char} (plain : ∀ char ∈ text, isPlain char = true) : trim text = text := by
  rw [trim, dropWhile_of_plain plain, dropWhile_of_plain, List.reverse_reverse]
  intro char member
  exact plain char (List.mem_reverse.mp member)

theorem fromStr_of_plain {value : String} {endpoint : Endpoint}
    (plain : ∀ char ∈ value.toList, isPlain char = true) (nonempty : value.toList ≠ [])
    (colons : value.toList.count ':' ≤ 1 ∨ value.toList.head? = some '[')
    (parsed : endpoint.Parsed value) (valid : endpoint.validate = .ok ()) :
    Endpoint.fromStr value = .ok endpoint :=
  fromStr_eq_ok.mpr
    ⟨trim_of_plain plain, nonempty, hasForbiddenEndpointSyntax_of_plain plain, colons, parsed, valid⟩

theorem validate_toText (ip : IpAddr) {port : UInt16} (nonzero : port ≠ 0) :
    Endpoint.validate ⟨ip.toText, port⟩ = .ok () :=
  validate_eq_ok.mpr ⟨nonzero, .inl ⟨ip, IpAddr.parse_toText ip⟩⟩

theorem parse_ofList_v6_iff {host : List Char} {address : Ipv6Addr} :
    IpAddr.parse (String.ofList host) = some (.v6 address) ↔ readIpv6 host = some (address, []) := by
  rw [IpAddr.parse_v6_iff, String.toList_ofList]

theorem socketText_plain {text : List Char} {socket : SocketAddr} (spelled : SocketText text socket) :
    ∀ char ∈ text, isPlain char = true := by
  have literalPlain {host : List Char} {address : Ipv6Addr} (literal : readIpv6 host = some (address, [])) :
      ∀ char ∈ host, isPlain char = true := by
    simpa using parse_plain (parse_ofList_v6_iff.mpr literal)
  intro char member
  cases spelled with
  | @v4 address port digits decimal =>
    simp only [List.mem_append, List.mem_cons] at member
    rcases member with inside | rfl | digit
    · exact parse_plain (IpAddr.parse_toText (.v4 address)) char (by simpa [IpAddr.toText] using inside)
    · rfl
    · exact decimal_plain decimal char digit
  | v6 literal decimal =>
    simp only [List.mem_append, List.mem_cons] at member
    rcases member with rfl | inside | rfl | rfl | digit
    · rfl
    · exact literalPlain literal char inside
    · rfl
    · rfl
    · exact decimal_plain decimal char digit
  | zoned literal numeric decimal =>
    simp only [List.mem_append, List.mem_cons] at member
    rcases member with rfl | inside | rfl | scope | rfl | rfl | digit
    · rfl
    · exact literalPlain literal char inside
    · rfl
    · exact decimal_plain numeric char scope
    · rfl
    · rfl
    · exact decimal_plain decimal char digit

theorem count_colon_split {host port : List Char} (hostClear : ':' ∉ host) (clear : ':' ∉ port) :
    (host ++ ':' :: port).count ':' = 1 := by
  simp [List.count_eq_zero_of_not_mem hostClear, List.count_eq_zero_of_not_mem clear]

theorem toText_without_colon (address : Ipv4Addr) : ':' ∉ address.toText := by
  have clear (octet : UInt8) : ':' ∉ Nat.toDigits 10 octet.toNat :=
    decimal_without_colon (decimal_toDigits octet.toNat)
  simp [Ipv4Addr.toText_eq, clear]

theorem fromStr_of_socketText {value : String} {socket : SocketAddr}
    (spelled : SocketText value.toList socket) (nonzero : socket.port ≠ 0) :
    Endpoint.fromStr value = .ok ⟨socket.ip.toText, socket.port⟩ := by
  apply fromStr_of_plain (socketText_plain spelled)
  · generalize value.toList = text at spelled
    cases spelled with
    | v4 decimal => simp
    | v6 literal decimal => simp
    | zoned literal numeric decimal => simp
  · generalize value.toList = text at spelled
    cases spelled with
    | @v4 address port digits decimal =>
      exact .inl (Nat.le_of_eq (count_colon_split (toText_without_colon address) (decimal_without_colon decimal)))
    | v6 literal decimal => exact .inr rfl
    | zoned literal numeric decimal => exact .inr rfl
  · exact .socket (SocketAddr.parse_eq_some.mpr spelled)
  · exact validate_toText socket.ip nonzero

theorem Unbracketed.plain {host : List Char} (unbracketed : Unbracketed host) :
    ∀ char ∈ host, isPlain char = true := by
  rcases unbracketed with ⟨address, literal⟩ | name
  · have plain := parse_plain literal
    rwa [String.toList_ofList] at plain
  · exact name.plain

theorem Unbracketed.without_colon {host : List Char} (unbracketed : Unbracketed host) : ':' ∉ host := by
  rcases unbracketed with ⟨address, literal⟩ | name
  · have canonical := readIpv4_canonical (IpAddr.parse_v4_iff.mp literal)
    rw [String.toList_ofList, List.append_nil] at canonical
    rw [canonical]
    exact toText_without_colon address
  · exact name.without_mark rfl (by decide) (by decide)

theorem Unbracketed.without_bracket {host : List Char} (unbracketed : Unbracketed host) : '[' ∉ host := by
  rcases unbracketed with ⟨address, literal⟩ | name
  · intro member
    have letter := IpAddr.parse_addressed literal '[' (by rwa [String.toList_ofList])
    cases letter
  · exact name.without_mark rfl (by decide) (by decide)

theorem Unbracketed.socket {host port : List Char} {socket : SocketAddr} (unbracketed : Unbracketed host)
    (clear : ':' ∉ port) (spelled : SocketText (host ++ ':' :: port) socket) :
    socket.ip.toText = String.ofList host ∧ Decimal port socket.port.toNat := by
  have opened {rest : List Char} (same : host ++ ':' :: port = '[' :: rest) : False := by
    cases host with
    | nil => cases same
    | cons char host =>
      cases same
      exact unbracketed.without_bracket List.mem_cons_self
  generalize same : host ++ ':' :: port = text at spelled
  cases spelled with
  | v4 decimal =>
    obtain ⟨rfl, rfl⟩ := append_colon_inj same clear (decimal_without_colon decimal)
    exact ⟨rfl, decimal⟩
  | v6 literal decimal => exact (opened same).elim
  | zoned literal numeric decimal => exact (opened same).elim

theorem port_without_colon {port : List Char} {number : UInt16} (read : parseU16 port = some number) :
    ':' ∉ port := by
  rcases parseU16_eq_some.mp read with decimal | ⟨digits, rfl, decimal⟩
  · exact decimal_without_colon decimal
  · simpa using decimal_without_colon decimal

theorem port_plain {port : List Char} {number : UInt16} (read : parseU16 port = some number) :
    ∀ char ∈ port, isPlain char = true := by
  rcases parseU16_eq_some.mp read with decimal | ⟨digits, rfl, decimal⟩
  · exact decimal_plain decimal
  · intro char member
    rcases List.mem_cons.mp member with rfl | digit
    · rfl
    · exact decimal_plain decimal char digit

theorem fromStr_of_unbracketed {value : String} {host port : List Char} {number : UInt16}
    (around : value.toList = host ++ ':' :: port) (unbracketed : Unbracketed host)
    (read : parseU16 port = some number) (nonzero : number ≠ 0) :
    Endpoint.fromStr value = .ok ⟨String.ofList host, number⟩ := by
  have clear := port_without_colon read
  apply fromStr_of_plain
  · intro char member
    rw [around, List.mem_append, List.mem_cons] at member
    rcases member with inside | rfl | digit
    · exact unbracketed.plain char inside
    · rfl
    · exact port_plain read char digit
  · simp [around]
  · rw [around]
    exact .inl (Nat.le_of_eq (count_colon_split unbracketed.without_colon clear))
  · cases parsed : SocketAddr.parse value with
    | none => exact .split parsed around clear read
    | some socket =>
      have spelled := SocketAddr.parse_eq_some.mp parsed
      rw [around] at spelled
      obtain ⟨same, decimal⟩ := unbracketed.socket clear spelled
      rw [parseU16_eq_some.mpr (.inl decimal)] at read
      cases read
      rw [← same]
      exact .socket parsed
  · apply validate_eq_ok.mpr
    refine ⟨nonzero, ?_⟩
    rcases unbracketed with ⟨address, literal⟩ | name
    · exact .inl ⟨_, literal⟩
    · exact .inr (by rwa [String.toList_ofList])

theorem Denotes.fromStr {value : String} {endpoint : Endpoint} (denotes : Denotes value.toList endpoint) :
    Endpoint.fromStr value = .ok endpoint := by
  obtain ⟨host, port⟩ := endpoint
  obtain ⟨text, digits, around, spelled, decimal, nonzero⟩ := denotes
  have read := parseU16_eq_some.mpr (.inl decimal)
  simp only at around spelled decimal nonzero
  cases spelled with
  | quad literal =>
    rw [IpAddr.toText_of_parse_v4 literal]
    exact fromStr_of_unbracketed around (.inl ⟨_, literal⟩) read nonzero
  | @bracketed inner address literal =>
    have split : value.toList = '[' :: (inner ++ ']' :: ':' :: digits) := by
      rw [around]
      simp
    have spelled := SocketText.v6 (parse_ofList_v6_iff.mp literal) decimal
    rw [← split] at spelled
    exact fromStr_of_socketText spelled nonzero
  | name valid => exact fromStr_of_unbracketed around (.inr valid) read nonzero

theorem SignedPort.fromStr {value : String} (signed : SignedPort value.toList) :
    ∃ endpoint, Endpoint.fromStr value = .ok endpoint := by
  obtain ⟨host, digits, port, around, unbracketed, decimal, nonzero⟩ := signed
  have read : parseU16 ('+' :: digits) = some port := parseU16_eq_some.mpr (.inr ⟨digits, rfl, decimal⟩)
  exact ⟨_, fromStr_of_unbracketed around unbracketed read nonzero⟩

theorem ScopedAddress.fromStr {value : String} (zoned : ScopedAddress value.toList) :
    ∃ endpoint, Endpoint.fromStr value = .ok endpoint := by
  obtain ⟨host, scope, digits, address, number, port, split, literal, numeric, decimal, nonzero⟩ := zoned
  have spelled := SocketText.zoned (parse_ofList_v6_iff.mp literal) numeric decimal
  rw [← split] at spelled
  exact ⟨_, fromStr_of_socketText spelled nonzero⟩

theorem unbracketed_of_split {value : String} {host port : List Char} {number : UInt16}
    (accepted : Endpoint.Accepted value ⟨String.ofList host, number⟩)
    (around : value.toList = host ++ ':' :: port) : Unbracketed host := by
  obtain ⟨-, named⟩ := validate_eq_ok.mp accepted.valid
  rcases named with ⟨ip, parsed⟩ | name
  · cases ip with
    | v4 address => exact .inl ⟨address, parsed⟩
    | v6 address =>
      -- a second colon needs a bracket, and a bracket is no part of an address
      have inside := colon_mem_of_readIpv6 (parse_ofList_v6_iff.mp parsed)
      have bracket : value.toList.head? = some '[' := by
        rcases accepted.colons with few | bracket
        · have count := List.one_le_count_iff.mpr inside
          rw [around, List.count_append, List.count_cons_self] at few
          omega
        · exact bracket
      cases host with
      | nil => cases inside
      | cons char host =>
        rw [around] at bracket
        cases bracket
        have letter := IpAddr.parse_addressed parsed '[' (by simp)
        cases letter
  · rw [String.toList_ofList] at name
    exact .inr name

theorem Endpoint.Accepted.denotes {value : String} {endpoint : Endpoint} (accepted : endpoint.Accepted value) :
    Denotes value.toList endpoint ∨ SignedPort value.toList ∨ ScopedAddress value.toList := by
  have nonzero := (validate_eq_ok.mp accepted.valid).1
  cases accepted.parsed with
  | @socket socket read =>
    have spelled := SocketAddr.parse_eq_some.mp read
    generalize value.toList = text at spelled
    cases spelled with
    | @v4 address port digits decimal =>
      exact .inl ⟨address.toText, digits, rfl, .quad (IpAddr.parse_toText (.v4 address)), decimal, nonzero⟩
    | @v6 host digits address port literal decimal =>
      have parsed := parse_ofList_v6_iff.mpr literal
      exact .inl ⟨'[' :: (host ++ [']']), digits, by simp, .bracketed parsed, decimal, nonzero⟩
    | @zoned host scope digits address port number literal numeric decimal =>
      have parsed := parse_ofList_v6_iff.mpr literal
      exact .inr (.inr ⟨host, scope, digits, address, number, port, rfl, parsed, numeric, decimal, nonzero⟩)
  | @split host port number unread around clear read =>
    have unbracketed := unbracketed_of_split accepted around
    rcases parseU16_eq_some.mp read with decimal | ⟨digits, rfl, decimal⟩
    · refine .inl ⟨host, port, around, ?_, decimal, nonzero⟩
      rcases unbracketed with ⟨address, literal⟩ | name
      · have quad := HostText.quad literal
        rwa [IpAddr.toText_of_parse_v4 literal] at quad
      · exact .name name
    · exact .inr (.inl ⟨host, digits, number, around, unbracketed, decimal, nonzero⟩)

theorem Denotes.unsigned {text : List Char} {endpoint : Endpoint} (denotes : Denotes text endpoint) :
    ¬ SignedPort text := by
  rintro ⟨host, digits, port, rfl, -, decimal, -⟩
  obtain ⟨other, rest, around, -, plain, -⟩ := denotes
  have clear : ':' ∉ '+' :: digits := by simpa using decimal_without_colon decimal
  obtain ⟨-, rfl⟩ := append_colon_inj around clear (decimal_without_colon plain)
  have sign := plain.digits '+' List.mem_cons_self
  cases sign

theorem HostText.without_percent {text : List Char} {host : String} (spelled : HostText text host) : '%' ∉ text := by
  have absent {inner : String} {ip : IpAddr} (literal : IpAddr.parse inner = some ip) : '%' ∉ inner.toList := by
    intro member
    have letter := IpAddr.parse_addressed literal '%' member
    cases letter
  cases spelled with
  | quad literal => simpa using absent literal
  | bracketed literal =>
    have inside := absent literal
    simpa using inside
  | name valid => exact valid.without_mark rfl (by decide) (by decide)

theorem Denotes.unscoped {text : List Char} {endpoint : Endpoint} (denotes : Denotes text endpoint) :
    ¬ ScopedAddress text := by
  rintro ⟨host, scope, digits, address, value, port, rfl, -, -, decimal, -⟩
  obtain ⟨other, rest, around, spelled, plain, -⟩ := denotes
  have split : ('[' :: (host ++ '%' :: (scope ++ [']']))) ++ ':' :: digits = other ++ ':' :: rest := by
    rw [← around]
    simp
  obtain ⟨rfl, -⟩ := append_colon_inj split (decimal_without_colon decimal) (decimal_without_colon plain)
  exact spelled.without_percent (by simp)

/-- The reader accepts what the documentation says, with the host and the port
that the text denotes, unless the port has a sign or the address a scope. -/
theorem fromStr_grammar_iff (value : String) :
    (∀ endpoint, Endpoint.fromStr value = .ok endpoint ↔ Denotes value.toList endpoint) ↔
      ¬ SignedPort value.toList ∧ ¬ ScopedAddress value.toList := by
  constructor
  · intro exact
    constructor
    · intro signed
      obtain ⟨endpoint, accepted⟩ := signed.fromStr
      exact ((exact endpoint).mp accepted).unsigned signed
    · intro zoned
      obtain ⟨endpoint, accepted⟩ := zoned.fromStr
      exact ((exact endpoint).mp accepted).unscoped zoned
  · rintro ⟨unsigned, unscoped⟩ endpoint
    constructor
    · intro accepted
      rcases (fromStr_eq_ok.mp accepted).denotes with denotes | signed | zoned
      · exact denotes
      · exact absurd signed unsigned
      · exact absurd zoned unscoped
    · exact Denotes.fromStr

/-- A scope is accepted and lost, and a sign is accepted. -/
theorem fromStr_accepts_scope_and_sign :
    (Endpoint.fromStr "[fe80::1%3]:50001" = .ok ⟨"fe80::1", 50001⟩ ∧
      ∀ endpoint, ¬ Denotes "[fe80::1%3]:50001".toList endpoint) ∧
    Endpoint.fromStr "relay.example:+50001" = .ok ⟨"relay.example", 50001⟩ ∧
      ∀ endpoint, ¬ Denotes "relay.example:+50001".toList endpoint := by
  have port : PortText "50001".toList 50001 := ⟨⟨by decide, List.all_eq_true.mp rfl, rfl⟩, by decide⟩
  have zoned : ScopedAddress "[fe80::1%3]:50001".toList :=
    ⟨"fe80::1".toList, "3".toList, "50001".toList, ⟨[0xfe80, 0, 0, 0, 0, 0, 0, 1], rfl⟩, 3, 50001, rfl, rfl,
      ⟨by decide, List.all_eq_true.mp rfl, rfl⟩, port⟩
  have signed : SignedPort "relay.example:+50001".toList :=
    ⟨"relay.example".toList, "50001".toList, 50001, rfl, .inr (dnsName_iff.mpr (by decide)), port⟩
  refine ⟨⟨rfl, ?_⟩, rfl, ?_⟩
  · intro endpoint denotes
    exact denotes.unscoped zoned
  · intro endpoint denotes
    exact denotes.unsigned signed

/-! ## Printing and reading back -/

theorem toText_unbracketed {endpoint : Endpoint} (clear : ':' ∉ endpoint.host.toList) :
    endpoint.toText.toList = endpoint.host.toList ++ ':' :: Nat.toDigits 10 endpoint.port.toNat := by
  have plain : endpoint.host.toList.contains ':' = false :=
    Bool.eq_false_iff.mpr fun member => clear (List.contains_iff_mem.mp member)
  simp only [Endpoint.toText, plain, Bool.false_eq_true, if_false, String.toList_ofList]

theorem toText_bracketed {endpoint : Endpoint} (colon : ':' ∈ endpoint.host.toList) :
    endpoint.toText.toList =
      '[' :: (endpoint.host.toList ++ ']' :: ':' :: Nat.toDigits 10 endpoint.port.toNat) := by
  have grouped : endpoint.host.toList.contains ':' = true := List.contains_iff_mem.mpr colon
  simp only [Endpoint.toText, grouped, if_true, String.toList_ofList]

theorem target_of_parse {endpoint : Endpoint} {ip : IpAddr} (parsed : IpAddr.parse endpoint.host = some ip) :
    endpoint.target = .address ip := by
  have whole := normalizedHost_undotted (IpAddr.parse_undotted parsed) (.inl rfl : endpoint.host = _ ∨ _)
  unfold Endpoint.target
  rw [whole]
  split
  · next named =>
    rw [parse_localhost named] at parsed
    cases parsed
  · rw [parsed]

theorem fromStr_toText_unbracketed {endpoint : Endpoint} (unbracketed : Unbracketed endpoint.host.toList)
    (nonzero : endpoint.port ≠ 0) : Endpoint.fromStr endpoint.toText = .ok endpoint := by
  have text := toText_unbracketed unbracketed.without_colon
  have read := parseU16_eq_some.mpr (.inl (decimal_toDigits endpoint.port.toNat))
  have accepted := fromStr_of_unbracketed text unbracketed read nonzero
  rwa [String.ofList_toList] at accepted

theorem fromStr_toText_bracketed {endpoint : Endpoint} {address : Ipv6Addr}
    (literal : IpAddr.parse endpoint.host = some (.v6 address)) (nonzero : endpoint.port ≠ 0) :
    Endpoint.fromStr endpoint.toText = .ok ⟨(IpAddr.v6 address).toText, endpoint.port⟩ := by
  have read := IpAddr.parse_v6_iff.mp literal
  have spelled := SocketText.v6 read (decimal_toDigits endpoint.port.toNat)
  rw [← toText_bracketed (colon_mem_of_readIpv6 read)] at spelled
  exact fromStr_of_socketText spelled nonzero

theorem Endpoint.Accepted.canonical {value : String} {endpoint : Endpoint} {address : Ipv6Addr}
    (accepted : endpoint.Accepted value) (literal : IpAddr.parse endpoint.host = some (.v6 address)) :
    endpoint.host = (IpAddr.v6 address).toText := by
  cases accepted.parsed with
  | socket read =>
    simp only [IpAddr.parse_toText, Option.some.injEq] at literal
    rw [literal]
  | @split host port number unread around clear read =>
    have unbracketed := unbracketed_of_split accepted around
    exact absurd (colon_mem_of_readIpv6 (parse_ofList_v6_iff.mp literal)) unbracketed.without_colon

/-- A valid endpoint is read back from its text with the same target, and if it
was read from some text it is read back unchanged. -/
theorem fromStr_toText (endpoint : Endpoint) (valid : endpoint.validate = .ok ()) :
    ∃ other, Endpoint.fromStr endpoint.toText = .ok other ∧ other.port = endpoint.port ∧
      other.validate = .ok () ∧ other.sameTarget endpoint = true ∧
      ((∃ value, Endpoint.fromStr value = .ok endpoint) → other = endpoint) := by
  obtain ⟨nonzero, named⟩ := validate_eq_ok.mp valid
  have unchanged (unbracketed : Unbracketed endpoint.host.toList) :
      ∃ other, Endpoint.fromStr endpoint.toText = .ok other ∧ other.port = endpoint.port ∧
        other.validate = .ok () ∧ other.sameTarget endpoint = true ∧
        ((∃ value, Endpoint.fromStr value = .ok endpoint) → other = endpoint) :=
    ⟨endpoint, fromStr_toText_unbracketed unbracketed nonzero, rfl, valid, sameTarget_equivalence.refl endpoint,
      fun _ => rfl⟩
  rcases named with ⟨ip, literal⟩ | name
  · cases ip with
    | v4 address => exact unchanged (.inl ⟨address, by rwa [String.ofList_toList]⟩)
    | v6 address =>
      refine ⟨_, fromStr_toText_bracketed literal nonzero, rfl, validate_toText _ nonzero, ?_, ?_⟩
      · have canonical : Endpoint.target ⟨(IpAddr.v6 address).toText, endpoint.port⟩ = .address (.v6 address) :=
          target_of_parse (IpAddr.parse_toText (.v6 address))
        exact sameTarget_of_address rfl canonical (target_of_parse literal)
      · rintro ⟨value, read⟩
        rw [← (fromStr_eq_ok.mp read).canonical literal]
  · exact unchanged (.inr name)

theorem fromStr_toText_uncompressed :
    Endpoint.validate ⟨"0:0:0:0:0:0:0:1", 50001⟩ = .ok () ∧
      ∃ other, Endpoint.fromStr (Endpoint.toText ⟨"0:0:0:0:0:0:0:1", 50001⟩) = .ok other ∧ other.port = 50001 ∧
        other.sameTarget ⟨"0:0:0:0:0:0:0:1", 50001⟩ = true := by
  refine ⟨rfl, ?_⟩
  obtain ⟨other, read, port, -, same, -⟩ := fromStr_toText ⟨"0:0:0:0:0:0:0:1", 50001⟩ rfl
  exact ⟨other, read, port, same⟩

end ElectrumPrivateRelay.Configuration

import ElectrumPrivateRelay.Net.Address

/-! Electrum endpoints: validation and the textual alias checks.

No check resolves a name. Hosts are compared as literal addresses, as the
`localhost` alias, or as DNS names up to ASCII case and a root dot.
-/

set_option autoImplicit false

namespace ElectrumPrivateRelay.Configuration
open Net

structure Endpoint where
  host : String
  port : UInt16
  deriving DecidableEq, Repr

structure EndpointParseError where
  message : String
  deriving DecidableEq, Repr

/-- `char::is_whitespace`: the Unicode `White_Space` property. -/
def isWhitespace (char : Char) : Bool :=
  let code := char.toNat
  (0x9 ≤ code && code ≤ 0xD) || code = 0x20 || code = 0x85 || code = 0xA0 || code = 0x1680 ||
    (0x2000 ≤ code && code ≤ 0x200A) || code = 0x2028 || code = 0x2029 || code = 0x202F ||
    code = 0x205F || code = 0x3000

def isAscii (char : Char) : Bool := char.toNat < 128

def isAsciiAlphanumeric (char : Char) : Bool :=
  ('0' ≤ char && char ≤ '9') || ('a' ≤ char && char ≤ 'z') || ('A' ≤ char && char ≤ 'Z')

/-- Everything between the separators, as `str::split` returns it. -/
def splitOn (separator : Char) : List Char → List (List Char)
  | [] => [[]]
  | char :: rest =>
    if char = separator then [] :: splitOn separator rest
    else match splitOn separator rest with
      | [] => [[char]]
      | label :: labels => (char :: label) :: labels

def containsText (pattern : List Char) : List Char → Bool
  | [] => pattern.isEmpty
  | char :: rest => pattern.isPrefixOf (char :: rest) || containsText pattern rest

def hasForbiddenEndpointSyntax (value : List Char) : Bool :=
  containsText "://".toList value || value.contains '@' || value.contains '/' || value.contains '?' ||
    value.contains '#'

def invalidLabel (label : List Char) : Bool :=
  label.isEmpty || 63 < label.length || label.head? = some '-' || label.getLast? = some '-' ||
    !label.all fun char => isAsciiAlphanumeric char || char = '-'

/-- `host.strip_suffix('.').unwrap_or(host)`. -/
def stripRootDot (host : List Char) : List Char :=
  if host.getLast? = some '.' then host.dropLast else host

def validateHost (host : String) : Except EndpointParseError Unit :=
  let text := host.toList
  if text.isEmpty || text.any isWhitespace then .error ⟨"endpoint host is invalid"⟩
  else if hasForbiddenEndpointSyntax text then
    .error ⟨"endpoint must use host:port without scheme, credentials, or path"⟩
  else if (IpAddr.parse host).isSome then .ok ()
  else if !text.all isAscii then .error ⟨"endpoint DNS host must use ASCII or punycode"⟩
  else if text.contains ':' then .error ⟨"IPv6 endpoints must use bracketed host:port syntax"⟩
  else
    -- The text is ASCII here, so its characters and its bytes are the same in number.
    let dnsName := stripRootDot text
    if dnsName.isEmpty || 253 < dnsName.length then .error ⟨"endpoint DNS host is invalid"⟩
    else if (splitOn '.' dnsName).any invalidLabel then .error ⟨"endpoint DNS host is invalid"⟩
    else .ok ()

def Endpoint.validate (endpoint : Endpoint) : Except EndpointParseError Unit :=
  if endpoint.port = 0 then .error ⟨"endpoint port must be non-zero"⟩
  else validateHost endpoint.host

/-- `trim_end_matches('.')`. -/
def Endpoint.normalizedHost (endpoint : Endpoint) : String :=
  String.ofList (endpoint.host.toList.reverse.dropWhile (· = '.')).reverse

def eqIgnoreAsciiCase (left right : String) : Bool :=
  left.toList.map Char.toLower = right.toList.map Char.toLower

def Endpoint.sameTarget (endpoint other : Endpoint) : Bool :=
  if endpoint.port ≠ other.port then false
  else
    let left := endpoint.normalizedHost
    let right := other.normalizedHost
    match IpAddr.parse left, IpAddr.parse right with
    | some leftIp, some rightIp => leftIp = rightIp || (leftIp.isLoopback && rightIp.isLoopback)
    | some ip, none => eqIgnoreAsciiCase right "localhost" && ip.isLoopback
    | none, some ip => eqIgnoreAsciiCase left "localhost" && ip.isLoopback
    | none, none => eqIgnoreAsciiCase left right

def Endpoint.couldTargetListener (endpoint : Endpoint) (listener : SocketAddr) : Bool :=
  if endpoint.port ≠ listener.port then false
  else
    let host := endpoint.normalizedHost
    if eqIgnoreAsciiCase host "localhost" then listener.ip.isLoopback || listener.ip.isUnspecified
    else match IpAddr.parse host with
      | none => false
      | some ip =>
        ip = listener.ip || (ip.isLoopback && listener.ip.isLoopback) ||
          (listener.ip.isUnspecified && (ip.isLoopback || ip.isUnspecified)) ||
          (ip.isUnspecified && listener.ip.isLoopback)

end ElectrumPrivateRelay.Configuration

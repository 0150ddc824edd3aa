import ElectrumPrivateRelay.Json.Syntax

/-! A reader of JSON texts.

UTF-8 is decoded first, then the grammar is read. A reader of nested values
carries a fuel that bounds the nesting; the fuel of a text never runs out. Half
of a surrogate pair denotes no character, so a text that escapes one is not read.
-/

set_option autoImplicit false

namespace Json

def isContinuation (byte : UInt8) : Bool := 0x80 ≤ byte && byte ≤ 0xBF

def tailBits (byte : UInt8) : Nat := byte.toNat - 0x80

def threeByteCode (first second third : UInt8) : Nat :=
  (first.toNat - 0xE0) * 4096 + tailBits second * 64 + tailBits third

def fourByteCode (first second third fourth : UInt8) : Nat :=
  (first.toNat - 0xF0) * 262144 + tailBits second * 4096 + tailBits third * 64 + tailBits fourth

def isSurrogate (code : Nat) : Bool := 0xD800 ≤ code && code ≤ 0xDFFF

/-- The text of a byte sequence, if it is well-formed UTF-8: no overlong form,
no surrogate and nothing above U+10FFFF. -/
def decodeUtf8 : List UInt8 → Option (List Char)
  | [] => some []
  | first :: rest =>
    -- Each longer form is tried only when the shorter ones do not apply.
    if first < 0x80 then (decodeUtf8 rest).map (Char.ofNat first.toNat :: ·)
    else match rest with
      | [] => none
      | second :: rest =>
        if 0xC2 ≤ first && first ≤ 0xDF && isContinuation second then
          (decodeUtf8 rest).map (Char.ofNat ((first.toNat - 0xC0) * 64 + tailBits second) :: ·)
        else match rest with
          | [] => none
          | third :: rest =>
            if 0xE0 ≤ first && first ≤ 0xEF && isContinuation second && isContinuation third &&
                0x800 ≤ threeByteCode first second third &&
                !isSurrogate (threeByteCode first second third) then
              (decodeUtf8 rest).map (Char.ofNat (threeByteCode first second third) :: ·)
            else match rest with
              | [] => none
              | fourth :: rest =>
                if 0xF0 ≤ first && first ≤ 0xF4 && isContinuation second && isContinuation third &&
                    isContinuation fourth && 0x10000 ≤ fourByteCode first second third fourth &&
                    fourByteCode first second third fourth ≤ 0x10FFFF then
                  (decodeUtf8 rest).map (Char.ofNat (fourByteCode first second third fourth) :: ·)
                else none

def isSpace (char : Char) : Bool := char = ' ' || char = '\t' || char = '\n' || char = '\r'

def skipSpace (text : List Char) : List Char := text.dropWhile isSpace

def isDigit (char : Char) : Bool := '0' ≤ char && char ≤ '9'

def simpleEscape (char : Char) : Option Char :=
  if char = '"' || char = '\\' || char = '/' then some char
  else if char = 'b' then some '\x08'
  else if char = 'f' then some '\x0c'
  else if char = 'n' then some '\n'
  else if char = 'r' then some '\r'
  else if char = 't' then some '\t'
  else none

def hexDigit (char : Char) : Option Nat :=
  if isDigit char then some (char.toNat - '0'.toNat)
  else if 'a' ≤ char && char ≤ 'f' then some (char.toNat - 'a'.toNat + 10)
  else if 'A' ≤ char && char ≤ 'F' then some (char.toNat - 'A'.toNat + 10)
  else none

def hexUnit (a b c d : Char) : Option Nat := do
  let a ← hexDigit a
  let b ← hexDigit b
  let c ← hexDigit c
  let d ← hexDigit d
  return a * 4096 + b * 256 + c * 16 + d

/-- The character of a `\u` escape: a code unit outside the surrogates. -/
def scalarUnit (a b c d : Char) : Option Char :=
  match hexUnit a b c d with
  | some unit => if isSurrogate unit then none else some (Char.ofNat unit)
  | none => none

/-- The character of two `\u` escapes that form a surrogate pair. -/
def surrogatePair (a b c d e f g h : Char) : Option Char :=
  match hexUnit a b c d, hexUnit e f g h with
  | some high, some low =>
    if 0xD800 ≤ high && high ≤ 0xDBFF && 0xDC00 ≤ low && low ≤ 0xDFFF then
      some (Char.ofNat (0x10000 + (high - 0xD800) * 1024 + (low - 0xDC00)))
    else none
  | _, _ => none

def readString : List Char → Option (List Char × List Char)
  | [] => none
  | char :: rest =>
    if char = '"' then some ([], rest)
    else if char = '\\' then
      match rest with
      | [] => none
      | escape :: rest =>
        match simpleEscape escape with
        | some decoded => (readString rest).map fun (value, rest) => (decoded :: value, rest)
        | none =>
          if escape = 'u' then
            match rest with
            | a :: b :: c :: d :: rest =>
              match scalarUnit a b c d with
              | some decoded => (readString rest).map fun (value, rest) => (decoded :: value, rest)
              | none =>
                match rest with
                | slash :: letter :: e :: f :: g :: h :: rest =>
                  match surrogatePair a b c d e f g h with
                  | some decoded =>
                    if slash = '\\' && letter = 'u' then
                      (readString rest).map fun (value, rest) => (decoded :: value, rest)
                    else none
                  | none => none
                | _ => none
            | _ => none
          else none
    -- Control characters have to be escaped.
    else if char.toNat < 0x20 then none
    else (readString rest).map fun (value, rest) => (char :: value, rest)

def readDigits (text : List Char) : Option (List Char × List Char) :=
  match text.takeWhile isDigit with
  | [] => none
  | digits => some (digits, text.dropWhile isDigit)

def readPart (introducers : List Char) (body : List Char → Option (List Char × List Char)) :
    List Char → Option (Option (List Char) × List Char)
  | [] => some (none, [])
  | char :: rest =>
    if introducers.contains char then (body rest).map fun (part, rest) => (some part, rest)
    else some (none, char :: rest)

def readExponent : List Char → Option (List Char × List Char)
  | [] => none
  | char :: rest =>
    if char = '+' || char = '-' then (readDigits rest).map fun (digits, rest) => (char :: digits, rest)
    else readDigits (char :: rest)

def decimalValue (digits : List Char) : Nat :=
  digits.foldl (fun value digit => value * 10 + (digit.toNat - '0'.toNat)) 0

def readNumber (text : List Char) : Option (NumberToken × List Char) := do
  let negative := text.head? = some '-'
  let (digits, rest) ← readDigits (if negative then text.tail else text)
  -- No leading zeros.
  if digits.head? = some '0' && 1 < digits.length then none
  else
    let (fraction, rest) ← readPart ['.'] readDigits rest
    let (exponent, rest) ← readPart ['e', 'E'] readExponent rest
    return (⟨negative, decimalValue digits, fraction, exponent⟩, rest)

def readLiteral (literal : List Char) (tree : Tree) (text : List Char) : Option (Tree × List Char) :=
  if literal.isPrefixOf text then some (tree, text.drop literal.length) else none

mutual

def readValue : Nat → List Char → Option (Tree × List Char)
  | 0, _ => none
  | fuel + 1, text =>
    match skipSpace text with
    | [] => none
    | char :: rest =>
      if char = '"' then (readString rest).map fun (value, rest) => (.string (.ofList value), rest)
      else if char = '[' then
        match skipSpace rest with
        | ']' :: rest => some (.array [], rest)
        | _ => (readElements fuel rest).map fun (elements, rest) => (.array elements, rest)
      else if char = '{' then
        match skipSpace rest with
        | '}' :: rest => some (.object [], rest)
        | _ => (readMembers fuel rest).map fun (members, rest) => (.object members, rest)
      else if char = 't' then readLiteral "true".toList (.bool true) (char :: rest)
      else if char = 'f' then readLiteral "false".toList (.bool false) (char :: rest)
      else if char = 'n' then readLiteral "null".toList .null (char :: rest)
      else (readNumber (char :: rest)).map fun (token, rest) => (.number token, rest)

def readElements : Nat → List Char → Option (List Tree × List Char)
  | 0, _ => none
  | fuel + 1, text =>
    match readValue fuel text with
    | none => none
    | some (element, rest) =>
      match skipSpace rest with
      | ']' :: rest => some ([element], rest)
      | ',' :: rest => (readElements fuel rest).map fun (elements, rest) => (element :: elements, rest)
      | _ => none

def readMembers : Nat → List Char → Option (List (String × Tree) × List Char)
  | 0, _ => none
  | fuel + 1, text =>
    match skipSpace text with
    | '"' :: rest =>
      match readString rest with
      | none => none
      | some (name, rest) =>
        match skipSpace rest with
        | ':' :: rest =>
          match readValue fuel rest with
          | none => none
          | some (value, rest) =>
            match skipSpace rest with
            | '}' :: rest => some ([(.ofList name, value)], rest)
            | ',' :: rest =>
              (readMembers fuel rest).map fun (members, rest) => ((.ofList name, value) :: members, rest)
            | _ => none
        | _ => none
    | _ => none

end

/-- One value with nothing but white space around it. Each character pays for
at most two nested calls. -/
def readText (text : List Char) : Option Tree :=
  match readValue (2 * text.length + 2) text with
  | some (tree, rest) => if (skipSpace rest).isEmpty then some tree else none
  | none => none

def read (bytes : List UInt8) : Option Tree := (decodeUtf8 bytes).bind readText

theorem skipSpace_suffix (text : List Char) : skipSpace text <:+ text :=
  List.dropWhile_suffix isSpace

theorem readString_suffix {text value rest : List Char}
    (found : readString text = some (value, rest)) : rest <:+ text := by
  fun_induction readString text generalizing value with
  | case2 tail =>
    cases found
    exact List.suffix_cons _ _
  | case4 escape tail decoded _ _ ih =>
    obtain ⟨⟨body, _⟩, inner, same⟩ := Option.map_eq_some_iff.mp found
    cases same
    exact (ih inner).trans (List.suffix_append ['\\', escape] tail)
  | case5 a b c d tail decoded _ _ _ ih =>
    obtain ⟨⟨body, _⟩, inner, same⟩ := Option.map_eq_some_iff.mp found
    cases same
    exact (ih inner).trans (List.suffix_append ['\\', 'u', a, b, c, d] tail)
  | case6 a b c d _ slash letter e f g h tail decoded _ _ _ _ ih =>
    obtain ⟨⟨body, _⟩, inner, same⟩ := Option.map_eq_some_iff.mp found
    cases same
    exact (ih inner).trans
      (List.suffix_append ['\\', 'u', a, b, c, d, slash, letter, e, f, g, h] tail)
  | case13 char tail _ _ _ ih =>
    obtain ⟨⟨body, _⟩, inner, same⟩ := Option.map_eq_some_iff.mp found
    cases same
    exact (ih inner).trans (List.suffix_cons char tail)
  | case1 | case3 | case7 | case8 | case9 | case10 | case11 | case12 => cases found

theorem skipSpace_cons_suffix {text rest : List Char} {char : Char}
    (spaced : skipSpace text = char :: rest) : rest <:+ text :=
  (List.suffix_cons char rest).trans (spaced ▸ skipSpace_suffix text)

theorem readDigits_suffix {text digits rest : List Char}
    (found : readDigits text = some (digits, rest)) : rest <:+ text := by
  unfold readDigits at found
  split at found
  · cases found
  · cases found
    exact List.dropWhile_suffix isDigit

theorem readExponent_suffix {text digits rest : List Char}
    (found : readExponent text = some (digits, rest)) : rest <:+ text := by
  cases text with
  | nil => cases found
  | cons char tail =>
    simp only [readExponent] at found
    split at found
    · obtain ⟨⟨body, _⟩, inner, same⟩ := Option.map_eq_some_iff.mp found
      cases same
      exact (readDigits_suffix inner).trans (List.suffix_cons char tail)
    · exact readDigits_suffix found

theorem readPart_suffix {introducers : List Char}
    {body : List Char → Option (List Char × List Char)} {text rest : List Char}
    {part : Option (List Char)}
    (inside : ∀ {inner digits left}, body inner = some (digits, left) → left <:+ inner)
    (found : readPart introducers body text = some (part, rest)) : rest <:+ text := by
  cases text with
  | nil =>
    cases found
    exact List.suffix_refl []
  | cons char tail =>
    simp only [readPart] at found
    split at found
    · obtain ⟨⟨digits, _⟩, inner, same⟩ := Option.map_eq_some_iff.mp found
      cases same
      exact (inside inner).trans (List.suffix_cons char tail)
    · cases found
      exact List.suffix_refl _

theorem readNumber_suffix {text rest : List Char} {token : NumberToken}
    (found : readNumber text = some (token, rest)) : rest <:+ text := by
  simp only [readNumber, Option.bind_eq_bind, Option.bind_eq_some_iff, Prod.exists] at found
  obtain ⟨digits, afterDigits, whole, found⟩ := found
  split at found
  · cases found
  · simp only [Option.bind_eq_some_iff, Prod.exists] at found
    obtain ⟨fraction, afterFraction, fractional, exponent, afterExponent, exponential, same⟩ := found
    cases same
    have tail : (if text.head? = some '-' then text.tail else text) <:+ text := by
      split
      · exact List.tail_suffix text
      · exact List.suffix_refl text
    refine ((readPart_suffix readExponent_suffix exponential).trans
      (readPart_suffix readDigits_suffix fractional)).trans ((readDigits_suffix whole).trans ?_)
    simpa using tail

theorem readLiteral_suffix {literal text rest : List Char} {constant tree : Tree}
    (found : readLiteral literal constant text = some (tree, rest)) : rest <:+ text := by
  unfold readLiteral at found
  split at found
  · cases found
    exact List.drop_suffix _ _
  · cases found

structure ReadsFront (fuel : Nat) : Prop where
  value : ∀ {text rest tree}, readValue fuel text = some (tree, rest) → rest <:+ text
  elements : ∀ {text rest trees}, readElements fuel text = some (trees, rest) → rest <:+ text
  members : ∀ {text rest trees}, readMembers fuel text = some (trees, rest) → rest <:+ text

theorem readValue_suffix {fuel : Nat} (front : ReadsFront fuel) {text rest : List Char} {tree : Tree}
    (found : readValue (fuel + 1) text = some (tree, rest)) : rest <:+ text := by
  simp only [readValue] at found
  split at found
  · cases found
  · next char tail spaced =>
    have tailIn := skipSpace_cons_suffix spaced
    have textIn : char :: tail <:+ text := spaced ▸ skipSpace_suffix text
    repeat' (split at found)
    · obtain ⟨⟨value, _⟩, inner, same⟩ := Option.map_eq_some_iff.mp found
      cases same
      exact (readString_suffix inner).trans tailIn
    · next closed =>
      cases found
      exact (skipSpace_cons_suffix closed).trans tailIn
    · obtain ⟨⟨elements, _⟩, inner, same⟩ := Option.map_eq_some_iff.mp found
      cases same
      exact (front.elements inner).trans tailIn
    · next closed =>
      cases found
      exact (skipSpace_cons_suffix closed).trans tailIn
    · obtain ⟨⟨members, _⟩, inner, same⟩ := Option.map_eq_some_iff.mp found
      cases same
      exact (front.members inner).trans tailIn
    · exact (readLiteral_suffix found).trans textIn
    · exact (readLiteral_suffix found).trans textIn
    · exact (readLiteral_suffix found).trans textIn
    · obtain ⟨⟨token, _⟩, inner, same⟩ := Option.map_eq_some_iff.mp found
      cases same
      exact (readNumber_suffix inner).trans textIn

theorem readElements_suffix {fuel : Nat} (front : ReadsFront fuel) {text rest : List Char}
    {trees : List Tree} (found : readElements (fuel + 1) text = some (trees, rest)) : rest <:+ text := by
  simp only [readElements] at found
  split at found
  · cases found
  · next element afterElement first =>
    have elementIn := front.value first
    split at found
    · next closed =>
      cases found
      exact (skipSpace_cons_suffix closed).trans elementIn
    · next separated =>
      obtain ⟨⟨elements, _⟩, inner, same⟩ := Option.map_eq_some_iff.mp found
      cases same
      exact ((front.elements inner).trans (skipSpace_cons_suffix separated)).trans elementIn
    · cases found

theorem readMembers_suffix {fuel : Nat} (front : ReadsFront fuel) {text rest : List Char}
    {trees : List (String × Tree)} (found : readMembers (fuel + 1) text = some (trees, rest)) :
    rest <:+ text := by
  simp only [readMembers] at found
  split at found
  case h_2 => cases found
  next afterQuote quoted =>
  split at found
  case h_1 => cases found
  next name afterName named =>
  split at found
  case h_2 => cases found
  next afterColon colon =>
  split at found
  case h_1 => cases found
  next value afterValue valued =>
  have nameIn := (readString_suffix named).trans (skipSpace_cons_suffix quoted)
  have valueIn := ((front.value valued).trans (skipSpace_cons_suffix colon)).trans nameIn
  split at found
  · next closed =>
    cases found
    exact (skipSpace_cons_suffix closed).trans valueIn
  · next separated =>
    obtain ⟨⟨members, _⟩, inner, same⟩ := Option.map_eq_some_iff.mp found
    cases same
    exact ((front.members inner).trans (skipSpace_cons_suffix separated)).trans valueIn
  · cases found

theorem readsFront (fuel : Nat) : ReadsFront fuel := by
  induction fuel with
  | zero => exact ⟨nofun, nofun, nofun⟩
  | succ fuel ih => exact ⟨readValue_suffix ih, readElements_suffix ih, readMembers_suffix ih⟩

structure ReadsAlike (fuel : Nat) : Prop where
  value : ∀ {text tree rest enough}, readValue fuel text = some (tree, rest) →
    2 * text.length + 1 ≤ enough → readValue enough text = some (tree, rest)
  elements : ∀ {text trees rest enough}, readElements fuel text = some (trees, rest) →
    2 * text.length + 2 ≤ enough → readElements enough text = some (trees, rest)
  members : ∀ {text trees rest enough}, readMembers fuel text = some (trees, rest) →
    2 * text.length + 2 ≤ enough → readMembers enough text = some (trees, rest)

theorem skipSpace_cons_shorter {text rest : List Char} {char : Char}
    (spaced : skipSpace text = char :: rest) : rest.length < text.length := by
  have whole := (skipSpace_suffix text).length_le
  rw [spaced, List.length_cons] at whole
  exact whole

theorem readValue_enough {fuel enough : Nat} (alike : ReadsAlike fuel) {text rest : List Char}
    {tree : Tree} (found : readValue (fuel + 1) text = some (tree, rest))
    (bound : 2 * text.length + 1 ≤ enough) : readValue enough text = some (tree, rest) := by
  obtain ⟨less, rfl⟩ : ∃ less, enough = less + 1 := ⟨enough - 1, by omega⟩
  simp only [readValue] at found ⊢
  cases spaced : skipSpace text with
  | nil => simp [spaced] at found
  | cons char tail =>
    have shorter := skipSpace_cons_shorter spaced
    simp only [spaced] at found ⊢
    -- Only the two kinds of brackets spend fuel.
    split at found
    · next quote => simpa only [if_pos quote] using found
    · next noQuote =>
      rw [if_neg noQuote]
      split at found
      · next bracket =>
        rw [if_pos bracket]
        split at found
        · exact found
        · obtain ⟨⟨elements, _⟩, inner, same⟩ := Option.map_eq_some_iff.mp found
          cases same
          rw [alike.elements inner (by omega)]
          rfl
      · next noBracket =>
        rw [if_neg noBracket]
        split at found
        · next brace =>
          rw [if_pos brace]
          split at found
          · exact found
          · obtain ⟨⟨members, _⟩, inner, same⟩ := Option.map_eq_some_iff.mp found
            cases same
            rw [alike.members inner (by omega)]
            rfl
        · next noBrace =>
          rw [if_neg noBrace]
          exact found

theorem readElements_enough {fuel enough : Nat} (alike : ReadsAlike fuel) {text rest : List Char}
    {trees : List Tree} (found : readElements (fuel + 1) text = some (trees, rest))
    (bound : 2 * text.length + 2 ≤ enough) : readElements enough text = some (trees, rest) := by
  obtain ⟨less, rfl⟩ : ∃ less, enough = less + 1 := ⟨enough - 1, by omega⟩
  simp only [readElements] at found ⊢
  split at found
  · cases found
  · next element afterElement first =>
    have elementLe := ((readsFront fuel).value first).length_le
    rw [alike.value first (by omega)]
    simp only
    split at found
    · exact found
    · next separated =>
      obtain ⟨⟨elements, _⟩, inner, same⟩ := Option.map_eq_some_iff.mp found
      cases same
      have shorter := skipSpace_cons_shorter separated
      rw [alike.elements inner (by omega)]
      rfl
    · cases found

theorem readMembers_enough {fuel enough : Nat} (alike : ReadsAlike fuel) {text rest : List Char}
    {trees : List (String × Tree)} (found : readMembers (fuel + 1) text = some (trees, rest))
    (bound : 2 * text.length + 2 ≤ enough) : readMembers enough text = some (trees, rest) := by
  obtain ⟨less, rfl⟩ : ∃ less, enough = less + 1 := ⟨enough - 1, by omega⟩
  simp only [readMembers] at found ⊢
  split at found
  case h_2 => cases found
  next afterQuote quoted =>
  split at found
  case h_1 => cases found
  next name afterName named =>
  split at found
  case h_2 => cases found
  next afterColon colon =>
  split at found
  case h_1 => cases found
  next value afterValue valued =>
  have opened := skipSpace_cons_shorter quoted
  have nameLe := (readString_suffix named).length_le
  have colonLe := skipSpace_cons_shorter colon
  have valueLe := ((readsFront fuel).value valued).length_le
  rw [alike.value valued (by omega)]
  simp only
  split at found
  · exact found
  · next separated =>
    obtain ⟨⟨members, _⟩, inner, same⟩ := Option.map_eq_some_iff.mp found
    cases same
    have shorter := skipSpace_cons_shorter separated
    rw [alike.members inner (by omega)]
    rfl
  · cases found

theorem readsAlike (fuel : Nat) : ReadsAlike fuel := by
  induction fuel with
  | zero => exact ⟨nofun, nofun, nofun⟩
  | succ fuel ih => exact ⟨readValue_enough ih, readElements_enough ih, readMembers_enough ih⟩

/-- The fuel of a text never runs out: what any fuel reads, the text is read as. -/
theorem readText_complete {fuel : Nat} {text rest : List Char} {tree : Tree}
    (found : readValue fuel text = some (tree, rest)) (blank : (skipSpace rest).isEmpty = true) :
    readText text = some tree := by
  have enough : readValue (2 * text.length + 2) text = some (tree, rest) :=
    (readsAlike fuel).value found (by omega)
  simp only [readText, enough, blank, if_true]

end Json

import ElectrumPrivateRelay.Net.Address

/-! What the address readers do not notice.

A change of the text that the reader of digits and the readers of the marks
pass on is passed on by every reader made of them. Lower-casing is such a
change, and so is text that begins with a mark of no address.
-/

set_option autoImplicit false

namespace Net

variable {change : List Char → List Char}

/-- A change of the text that a dotted quad is read through. -/
structure QuadTransparent (change : List Char → List Char) : Prop where
  decimal : ∀ text, readDigits 10 (change text) = Prod.map id change (readDigits 10 text)
  dot : ∀ text, readGiven '.' (change text) = (readGiven '.' text).map change

structure Transparent (change : List Char → List Char) : Prop extends QuadTransparent change where
  hexadecimal : ∀ text, readDigits 16 (change text) = Prod.map id change (readDigits 16 text)
  colon : ∀ text, readGiven ':' (change text) = (readGiven ':' text).map change

theorem readNumber_change {radix : Nat}
    (digits : ∀ text, readDigits radix (change text) = Prod.map id change (readDigits radix text))
    (limit : Option Nat) (zeros : Bool) (bound : Nat) (text : List Char) :
    readNumber radix limit zeros bound (change text) =
      (readNumber radix limit zeros bound text).map (Prod.map id change) := by
  simp only [readNumber, digits, Prod.map_fst, Prod.map_snd, id_eq]
  split
  · rfl
  · split
    · rfl
    · split
      · rfl
      · split
        · rfl
        · rfl

theorem readOctet_change (transparent : QuadTransparent change) (text : List Char) :
    readOctet (change text) = (readOctet text).map (Prod.map id change) := by
  rw [readOctet, readOctet, readNumber_change transparent.decimal, Option.map_map, Option.map_map]
  rfl

theorem readDotted_change (transparent : QuadTransparent change) (text : List Char) :
    (readGiven '.' (change text)).bind readOctet =
      ((readGiven '.' text).bind readOctet).map (Prod.map id change) := by
  rw [transparent.dot]
  cases readGiven '.' text with
  | none => rfl
  | some rest => exact readOctet_change transparent rest

theorem readIpv4_change (transparent : QuadTransparent change) (text : List Char) :
    readIpv4 (change text) = (readIpv4 text).map (Prod.map id change) := by
  unfold readIpv4
  rw [readOctet_change transparent]
  cases readOctet text with
  | none => rfl
  | some first =>
    simp only [Option.map_some, Option.bind_eq_bind, Option.bind_some, Prod.map_fst, Prod.map_snd,
      readDotted_change transparent]
    cases (readGiven '.' first.2).bind readOctet with
    | none => rfl
    | some second =>
      simp only [Option.map_some, Option.bind_some, Prod.map_fst, Prod.map_snd,
        readDotted_change transparent]
      cases (readGiven '.' second.2).bind readOctet with
      | none => rfl
      | some third =>
        simp only [Option.map_some, Option.bind_some, Prod.map_fst, Prod.map_snd,
          readDotted_change transparent]
        cases (readGiven '.' third.2).bind readOctet with
        | none => rfl
        | some fourth => rfl

theorem readSeparator_change (transparent : Transparent change) (index : Nat) (text : List Char) :
    readSeparator ':' index (change text) = (readSeparator ':' index text).map change := by
  unfold readSeparator
  split
  · rfl
  · exact transparent.colon text

theorem readSeparated_change {α : Type} {reader : List Char → Option (α × List Char)}
    (transparent : Transparent change)
    (reads : ∀ text, reader (change text) = (reader text).map (Prod.map id change))
    (index : Nat) (text : List Char) :
    (readSeparator ':' index (change text)).bind reader =
      ((readSeparator ':' index text).bind reader).map (Prod.map id change) := by
  rw [readSeparator_change transparent]
  cases readSeparator ':' index text with
  | none => rfl
  | some rest => exact reads rest

theorem readGroups_change (transparent : Transparent change) (limit index : Nat) (text : List Char) :
    readGroups index limit (change text) = Prod.map id (Prod.map id change) (readGroups index limit text) := by
  induction limit generalizing index text with
  | zero => rfl
  | succ limit ih =>
    have embedded : (if 0 < limit then (readSeparator ':' index (change text)).bind readIpv4 else none) =
        (if 0 < limit then (readSeparator ':' index text).bind readIpv4 else none).map
          (Prod.map id change) := by
      split
      · exact readSeparated_change transparent (readIpv4_change transparent.toQuadTransparent) index text
      · rfl
    have single := readSeparated_change transparent
      (readNumber_change transparent.hexadecimal (some 4) true 0xFFFF) index text
    simp only [readGroups, embedded, single]
    cases (if 0 < limit then (readSeparator ':' index text).bind readIpv4 else none) with
    | some quad => rfl
    | none =>
      cases (readSeparator ':' index text).bind (readNumber 16 (some 4) true 0xFFFF) with
      | none => rfl
      | some group =>
        simp only [Option.map_none, Option.map_some, Prod.map_fst, Prod.map_snd, ih]
        rfl

theorem readIpv6_change (transparent : Transparent change) (text : List Char) :
    readIpv6 (change text) = (readIpv6 text).map (Prod.map id change) := by
  simp only [readIpv6, readGroups_change transparent, Prod.map_fst, Prod.map_snd, id_eq]
  split
  · rw [Option.map_map]
    rfl
  · split
    · rfl
    · rw [transparent.colon]
      cases readGiven ':' (readGroups 0 8 text).2.2 with
      | none => rfl
      | some rest =>
        simp only [Option.map_some, Option.bind_some, transparent.colon]
        cases readGiven ':' rest with
        | none => rfl
        | some rest =>
          simp only [Option.map_some, Option.bind_eq_bind, Option.bind_some,
            readGroups_change transparent, Prod.map_fst, id_eq]
          cases Ipv6Addr.ofSegments _ with
          | none => rfl
          | some address => rfl

theorem readIpAddr_change (transparent : Transparent change) (text : List Char) :
    readIpAddr (change text) = (readIpAddr text).map (Prod.map id change) := by
  unfold readIpAddr
  rw [readIpv4_change transparent.toQuadTransparent]
  cases readIpv4 text with
  | some found => rfl
  | none =>
    simp only [Option.map_none, readIpv6_change transparent, Option.map_map]
    rfl

theorem toNat_toLower (char : Char) :
    char.toLower.toNat = if 65 ≤ char.toNat ∧ char.toNat ≤ 90 then char.toNat + 32 else char.toNat := by
  unfold Char.toLower
  split
  · next upper =>
    have lowest : 65 ≤ char.toNat := UInt32.le_iff_toNat_le.mp upper.1
    have highest : char.toNat ≤ 90 := UInt32.le_iff_toNat_le.mp upper.2
    rw [if_pos ⟨lowest, highest⟩]
    change (char.val + ('a'.val - 'A'.val)).toNat = char.val.toNat + 32
    rw [UInt32.toNat_add]
    have offset : ('a'.val - 'A'.val).toNat = 32 := rfl
    have small : char.val.toNat ≤ 90 := highest
    omega
  · next other =>
    rw [if_neg]
    rintro ⟨lowest, highest⟩
    exact other ⟨UInt32.le_iff_toNat_le.mpr lowest, UInt32.le_iff_toNat_le.mpr highest⟩

theorem toDigit_eq (radix : Nat) (char : Char) :
    toDigit radix char =
      let code := char.toNat
      let value :=
        if 48 ≤ code ∧ code ≤ 57 then code - 48
        else if 97 ≤ code ∧ code ≤ 122 then code - 97 + 10
        else if 65 ≤ code ∧ code ≤ 90 then code - 65 + 10
        else radix
      if value < radix then some value else none := rfl

theorem toDigit_toLower (radix : Nat) (char : Char) : toDigit radix char.toLower = toDigit radix char := by
  rw [toDigit_eq, toDigit_eq, toNat_toLower]
  grind

theorem toLower_eq_mark {char mark : Char} (low : mark.toNat < 65) : char.toLower = mark ↔ char = mark := by
  rw [← Char.toNat_inj, toNat_toLower, ← Char.toNat_inj]
  split
  · omega
  · rfl

theorem readDigits_toLower (radix : Nat) (text : List Char) :
    readDigits radix (text.map Char.toLower) = Prod.map id (List.map Char.toLower) (readDigits radix text) := by
  induction text with
  | nil => rfl
  | cons char rest ih =>
    simp only [List.map_cons, readDigits, toDigit_toLower]
    cases toDigit radix char with
    | none => rfl
    | some digit =>
      rw [ih]
      rfl

theorem readGiven_toLower {mark : Char} (low : mark.toNat < 65) (text : List Char) :
    readGiven mark (text.map Char.toLower) = (readGiven mark text).map (List.map Char.toLower) := by
  cases text with
  | nil => rfl
  | cons char rest =>
    simp only [List.map_cons, readGiven, toLower_eq_mark low]
    split
    · rfl
    · rfl

theorem toLower_transparent : Transparent (List.map Char.toLower) where
  decimal := readDigits_toLower 10
  dot := readGiven_toLower (by decide)
  hexadecimal := readDigits_toLower 16
  colon := readGiven_toLower (by decide)

/-- Two spellings of a text up to case are the same address or no address. -/
theorem IpAddr.parse_toLower {left right : String}
    (same : left.toList.map Char.toLower = right.toList.map Char.toLower) :
    IpAddr.parse left = IpAddr.parse right := by
  have lowered (text : String) : IpAddr.parse (String.ofList (text.toList.map Char.toLower)) = IpAddr.parse text := by
    unfold IpAddr.parse
    rw [String.toList_ofList, readIpAddr_change toLower_transparent]
    cases readIpAddr text.toList with
    | none => rfl
    | some found =>
      obtain ⟨address, rest⟩ := found
      cases rest with
      | nil => rfl
      | cons char rest => rfl
  rw [← lowered left, same, lowered right]

theorem readDigits_append {radix : Nat} {tail : List Char}
    (stops : ∀ char, tail.head? = some char → toDigit radix char = none) (text : List Char) :
    readDigits radix (text ++ tail) = Prod.map id (· ++ tail) (readDigits radix text) := by
  induction text with
  | nil =>
    cases tail with
    | nil => rfl
    | cons char rest => simp [readDigits, stops char rfl]
  | cons char rest ih =>
    simp only [List.cons_append, readDigits]
    cases toDigit radix char with
    | none => rfl
    | some digit =>
      rw [ih]
      rfl

theorem readGiven_append {mark : Char} {tail : List Char} (stops : tail.head? ≠ some mark) (text : List Char) :
    readGiven mark (text ++ tail) = (readGiven mark text).map (· ++ tail) := by
  cases text with
  | nil =>
    cases tail with
    | nil => rfl
    | cons char rest =>
      have other : char ≠ mark := by
        rintro rfl
        exact stops rfl
      simp [readGiven, other]
  | cons char rest =>
    simp only [List.cons_append, readGiven]
    split
    · rfl
    · rfl

theorem append_quadTransparent {tail : List Char}
    (stops : ∀ char, tail.head? = some char → toDigit 10 char = none ∧ char ≠ '.') :
    QuadTransparent (· ++ tail) where
  decimal := readDigits_append fun char first => (stops char first).1
  dot := readGiven_append fun first => (stops '.' first).2 rfl

theorem toDigit_ten_of_sixteen {char : Char} (none : toDigit 16 char = none) : toDigit 10 char = .none := by
  rw [toDigit_eq] at none ⊢
  grind

theorem append_transparent {mark : Char} {rest : List Char} (digit : toDigit 16 mark = none)
    (dot : mark ≠ '.') (colon : mark ≠ ':') : Transparent (· ++ mark :: rest) where
  toQuadTransparent := append_quadTransparent (by simpa using ⟨toDigit_ten_of_sixteen digit, dot⟩)
  hexadecimal := readDigits_append (by simpa using digit)
  colon := readGiven_append (by simpa using colon)

end Net

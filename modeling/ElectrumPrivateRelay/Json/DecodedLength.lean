import ElectrumPrivateRelay.Json.Reading
import Mathlib.Data.String.Basic

/-! Decoding never lengthens.

Every decoded character costs at least as many bytes of text as it has bytes
itself: an escape is longer than what it stands for, and a UTF-8 sequence is
exactly as long. No decoded string is therefore longer than its text.
-/

set_option autoImplicit false

namespace Json

open String (utf8Len)

theorem toNat_ofNat_le (code : Nat) : (Char.ofNat code).toNat ≤ code := by
  by_cases valid : code.isValidChar
  · have same : Char.ofNat code = Char.ofNatAux code valid := dif_pos valid
    exact same ▸ Nat.le_refl code
  · have same : Char.ofNat code = ⟨0, .inl (by decide)⟩ := dif_neg valid
    exact same ▸ Nat.zero_le code

theorem utf8Size_le_one {char : Char} (bound : char.toNat < 0x80) : char.utf8Size ≤ 1 := by
  have small : char.val ≤ 0x7F := UInt32.le_iff_toNat_le.mpr (Nat.le_of_lt_succ bound)
  simp only [Char.utf8Size]
  split
  · decide
  · next large => exact absurd small large

theorem utf8Size_le_two {char : Char} (bound : char.toNat < 0x800) : char.utf8Size ≤ 2 := by
  have small : char.val ≤ 0x7FF := UInt32.le_iff_toNat_le.mpr (Nat.le_of_lt_succ bound)
  simp only [Char.utf8Size]
  split
  · decide
  · split
    · decide
    · next large => exact absurd small large

theorem utf8Size_le_three {char : Char} (bound : char.toNat < 0x10000) : char.utf8Size ≤ 3 := by
  have small : char.val ≤ 0xFFFF := UInt32.le_iff_toNat_le.mpr (Nat.le_of_lt_succ bound)
  simp only [Char.utf8Size]
  split
  · decide
  · split
    · decide
    · split
      · decide
      · next large => exact absurd small large

theorem tailBits_lt {byte : UInt8} (continuation : isContinuation byte = true) : tailBits byte < 64 := by
  have range : 0x80 ≤ byte ∧ byte ≤ 0xBF := by simpa [isContinuation] using continuation
  have upper : byte.toNat ≤ 191 := UInt8.le_iff_toNat_le.mp range.2
  unfold tailBits
  omega

/-- Every decoded character is paid for by the bytes it was read from. -/
theorem decodeUtf8_length {bytes : List UInt8} {text : List Char}
    (decoded : decodeUtf8 bytes = some text) : utf8Len text ≤ bytes.length := by
  fun_induction decodeUtf8 bytes generalizing text with
  | case1 =>
    cases decoded
    exact Nat.le_refl _
  | case2 first rest ascii ih =>
    obtain ⟨tail, found, rfl⟩ := Option.map_eq_some_iff.mp decoded
    have code : first.toNat < 128 := UInt8.lt_iff_toNat_lt.mp ascii
    have size := utf8Size_le_one (Nat.lt_of_le_of_lt (toNat_ofNat_le first.toNat) code)
    have bound := ih found
    simp only [String.utf8Len_cons, List.length_cons]
    omega
  | case4 first _ second rest two ih =>
    obtain ⟨tail, found, rfl⟩ := Option.map_eq_some_iff.mp decoded
    simp only [Bool.and_eq_true, decide_eq_true_eq] at two
    have upper : first.toNat ≤ 223 := UInt8.le_iff_toNat_le.mp two.1.2
    have bits := tailBits_lt two.2
    have size := utf8Size_le_two (Nat.lt_of_le_of_lt
      (toNat_ofNat_le ((first.toNat - 0xC0) * 64 + tailBits second)) (by omega))
    have bound := ih found
    simp only [String.utf8Len_cons, List.length_cons]
    omega
  | case6 first _ second _ third rest three ih =>
    obtain ⟨tail, found, rfl⟩ := Option.map_eq_some_iff.mp decoded
    simp only [Bool.and_eq_true, decide_eq_true_eq] at three
    have upper : first.toNat ≤ 239 := UInt8.le_iff_toNat_le.mp three.1.1.1.1.2
    have secondBits := tailBits_lt three.1.1.1.2
    have thirdBits := tailBits_lt three.1.1.2
    have code : threeByteCode first second third < 0x10000 := by
      unfold threeByteCode
      omega
    have size := utf8Size_le_three (Nat.lt_of_le_of_lt (toNat_ofNat_le _) code)
    have bound := ih found
    simp only [String.utf8Len_cons, List.length_cons]
    omega
  | case8 first _ second _ third _ fourth rest four ih =>
    obtain ⟨tail, found, rfl⟩ := Option.map_eq_some_iff.mp decoded
    have size := Char.utf8Size_le_four (Char.ofNat (fourByteCode first second third fourth))
    have bound := ih found
    simp only [String.utf8Len_cons, List.length_cons]
    omega
  | case3 | case5 | case7 | case9 => cases decoded

theorem simpleEscape_size {escape decoded : Char} (found : simpleEscape escape = some decoded) :
    decoded.utf8Size ≤ 1 := by
  unfold simpleEscape at found
  split at found
  · next same =>
    cases found
    simp only [Bool.or_eq_true, decide_eq_true_eq] at same
    rcases same with (rfl | rfl) | rfl <;> decide
  · repeat' (split at found)
    all_goals cases found
    all_goals decide

theorem readString_length {text value rest : List Char} (found : readString text = some (value, rest)) :
    utf8Len value + utf8Len rest ≤ utf8Len text := by
  -- Every character of an escape costs at least one byte, and six of them are
  -- more than any character is long.
  have positive := Char.utf8Size_pos
  fun_induction readString text generalizing value with
  | case2 tail =>
    cases found
    simp
  | case4 escape tail decoded simple _ ih =>
    obtain ⟨⟨body, _⟩, inner, same⟩ := Option.map_eq_some_iff.mp found
    cases same
    have size := simpleEscape_size simple
    have bound := ih inner
    have slash := positive '\\'
    have letter := positive escape
    simp only [String.utf8Len_cons]
    omega
  | case5 a b c d tail decoded unit _ _ ih =>
    obtain ⟨⟨body, _⟩, inner, same⟩ := Option.map_eq_some_iff.mp found
    cases same
    have size := Char.utf8Size_le_four decoded
    have bound := ih inner
    simp only [String.utf8Len_cons]
    have := positive a; have := positive b; have := positive c; have := positive d
    have := positive '\\'; have := positive 'u'
    omega
  | case6 a b c d _ slash letter e f g h tail decoded pair _ _ _ ih =>
    obtain ⟨⟨body, _⟩, inner, same⟩ := Option.map_eq_some_iff.mp found
    cases same
    have size := Char.utf8Size_le_four decoded
    have bound := ih inner
    simp only [String.utf8Len_cons]
    have := positive a; have := positive b; have := positive c; have := positive d
    omega
  | case13 char tail _ _ _ ih =>
    obtain ⟨⟨body, _⟩, inner, same⟩ := Option.map_eq_some_iff.mp found
    cases same
    have bound := ih inner
    simp only [String.utf8Len_cons]
    omega
  | case1 | case3 | case7 | case8 | case9 | case10 | case11 | case12 => cases found

theorem skipSpace_length (text : List Char) : utf8Len (skipSpace text) ≤ utf8Len text :=
  String.utf8Len_le_of_suffix (skipSpace_suffix text)

theorem readLiteral_length {literal text rest : List Char} {constant tree : Tree}
    (bare : constant.stringBytes = 0)
    (found : readLiteral literal constant text = some (tree, rest)) :
    tree.stringBytes + utf8Len rest ≤ utf8Len text := by
  have bound := String.utf8Len_le_of_suffix (readLiteral_suffix found)
  unfold readLiteral at found
  split at found
  · cases found
    omega
  · cases found

theorem skipSpace_cons_length {text rest : List Char} {char : Char}
    (spaced : skipSpace text = char :: rest) : utf8Len rest ≤ utf8Len text := by
  have skipped := skipSpace_length text
  rw [spaced, String.utf8Len_cons] at skipped
  omega

structure ReadsWithin (fuel : Nat) : Prop where
  value : ∀ {text rest tree}, readValue fuel text = some (tree, rest) →
    tree.stringBytes + utf8Len rest ≤ utf8Len text
  elements : ∀ {text rest trees}, readElements fuel text = some (trees, rest) →
    elementBytes trees + utf8Len rest ≤ utf8Len text
  members : ∀ {text rest trees}, readMembers fuel text = some (trees, rest) →
    memberBytes trees + utf8Len rest ≤ utf8Len text

theorem readValue_length {fuel : Nat} (within : ReadsWithin fuel) {text rest : List Char} {tree : Tree}
    (found : readValue (fuel + 1) text = some (tree, rest)) :
    tree.stringBytes + utf8Len rest ≤ utf8Len text := by
  simp only [readValue] at found
  split at found
  · cases found
  · next char tail spaced =>
    have tailLe := skipSpace_cons_length spaced
    have textLe : utf8Len (char :: tail) ≤ utf8Len text := spaced ▸ skipSpace_length text
    -- One goal for each first character of a value, in the order of the reader.
    repeat' (split at found)
    · obtain ⟨⟨value, _⟩, inner, same⟩ := Option.map_eq_some_iff.mp found
      cases same
      have bound := readString_length inner
      simp only [Tree.stringBytes, String.utf8ByteSize_ofList]
      omega
    · next closed =>
      cases found
      have bound := skipSpace_cons_length closed
      simp only [Tree.stringBytes, elementBytes]
      omega
    · obtain ⟨⟨elements, _⟩, inner, same⟩ := Option.map_eq_some_iff.mp found
      cases same
      have bound := within.elements inner
      simp only [Tree.stringBytes]
      omega
    · next closed =>
      cases found
      have bound := skipSpace_cons_length closed
      simp only [Tree.stringBytes, memberBytes]
      omega
    · obtain ⟨⟨members, _⟩, inner, same⟩ := Option.map_eq_some_iff.mp found
      cases same
      have bound := within.members inner
      simp only [Tree.stringBytes]
      omega
    · exact Nat.le_trans (readLiteral_length rfl found) textLe
    · exact Nat.le_trans (readLiteral_length rfl found) textLe
    · exact Nat.le_trans (readLiteral_length rfl found) textLe
    · obtain ⟨⟨token, _⟩, inner, same⟩ := Option.map_eq_some_iff.mp found
      cases same
      have bound := String.utf8Len_le_of_suffix (readNumber_suffix inner)
      simp only [Tree.stringBytes]
      omega

theorem readElements_length {fuel : Nat} (within : ReadsWithin fuel) {text rest : List Char}
    {trees : List Tree} (found : readElements (fuel + 1) text = some (trees, rest)) :
    elementBytes trees + utf8Len rest ≤ utf8Len text := by
  simp only [readElements] at found
  split at found
  · cases found
  · next element afterElement first =>
    have elementLe := within.value first
    split at found
    · next closed =>
      cases found
      have bound := skipSpace_cons_length closed
      simp only [elementBytes]
      omega
    · next separated =>
      obtain ⟨⟨elements, _⟩, inner, same⟩ := Option.map_eq_some_iff.mp found
      cases same
      have bound := skipSpace_cons_length separated
      have later := within.elements inner
      simp only [elementBytes]
      omega
    · cases found

theorem readMembers_length {fuel : Nat} (within : ReadsWithin fuel) {text rest : List Char}
    {trees : List (String × Tree)} (found : readMembers (fuel + 1) text = some (trees, rest)) :
    memberBytes trees + utf8Len rest ≤ utf8Len text := by
  simp only [readMembers] at found
  split at found
  case h_2 => cases found
  next afterQuote quoted =>
  split at found
  case h_1 => cases found
  next name afterName named =>
  split at found
  case h_2 => cases found
  next afterColon colon =>
  split at found
  case h_1 => cases found
  next value afterValue valued =>
  have opened := skipSpace_cons_length quoted
  have nameLe := readString_length named
  have colonLe := skipSpace_cons_length colon
  have valueLe := within.value valued
  split at found
  · next closed =>
    cases found
    have closedLe := skipSpace_cons_length closed
    simp only [memberBytes, String.utf8ByteSize_ofList]
    omega
  · next separated =>
    obtain ⟨⟨members, _⟩, inner, same⟩ := Option.map_eq_some_iff.mp found
    cases same
    have separatedLe := skipSpace_cons_length separated
    have later := within.members inner
    simp only [memberBytes, String.utf8ByteSize_ofList]
    omega
  · cases found

theorem readsWithin (fuel : Nat) : ReadsWithin fuel := by
  induction fuel with
  | zero => exact ⟨nofun, nofun, nofun⟩
  | succ fuel ih => exact ⟨readValue_length ih, readElements_length ih, readMembers_length ih⟩

/-- The strings of a text are no longer than the text. -/
theorem read_length {bytes : List UInt8} {tree : Tree} (found : read bytes = some tree) :
    tree.stringBytes ≤ bytes.length := by
  obtain ⟨text, decoded, parsed⟩ := Option.bind_eq_some_iff.mp found
  simp only [readText] at parsed
  split at parsed
  · next value rest inner =>
    split at parsed
    · cases parsed
      have bound := (readsWithin _).value inner
      have textLe := decodeUtf8_length decoded
      omega
    · cases parsed
  · cases parsed

end Json

import ElectrumPrivateRelay.Json.Encoding
import ElectrumPrivateRelay.Json.Serde

/-! What is printed is read back.

Numbers that are floats are left out: how they are spelled is the printer's own
affair. Every other value has one compact text, on one line, and reading it
gives the value again.
-/

set_option autoImplicit false

namespace Json

theorem hexDigit_hexLetter : ∀ digit < 16, hexDigit (hexLetter digit) = some digit := by decide

theorem hexUnit_hexLetter {code : Nat} (low : code < 0x20) :
    hexUnit '0' '0' (hexLetter (code / 16)) (hexLetter (code % 16)) = some code := by
  have zero : hexDigit '0' = some 0 := rfl
  have upper := hexDigit_hexLetter (code / 16) (by omega)
  have lower := hexDigit_hexLetter (code % 16) (by omega)
  have join : 0 * 4096 + 0 * 256 + code / 16 * 16 + code % 16 = code := by omega
  simp only [hexUnit, zero, upper, lower, Option.bind_eq_bind, Option.bind_some, Option.pure_def, join]

theorem scalarUnit_hexLetter {char : Char} (low : char.toNat < 0x20) :
    scalarUnit '0' '0' (hexLetter (char.toNat / 16)) (hexLetter (char.toNat % 16)) = some char := by
  have scalar : isSurrogate char.toNat = false := by
    simp only [isSurrogate, Bool.and_eq_false_iff, decide_eq_false_iff_not]
    omega
  simp only [scalarUnit, hexUnit_hexLetter low, scalar, Bool.false_eq_true, if_false, Char.ofNat_toNat]

theorem readString_simpleEscape {escape decoded : Char} {rest : List Char}
    (simple : simpleEscape escape = some decoded) :
    readString ('\\' :: escape :: rest) =
      (readString rest).map fun (value, rest) => (decoded :: value, rest) := by
  rw [readString.eq_def]
  simp only [Char.reduceEq, if_false, if_true, simple]

/-- The three forms a character is printed in. -/
inductive Escaped (char : Char) : List Char → Prop where
  | short {letter : Char} (decoded : simpleEscape letter = some char) (visible : letter ≠ '\n')
      (single : letter.utf8Size = 1) : Escaped char ['\\', letter]
  | control (low : char.toNat < 0x20) :
      Escaped char ['\\', 'u', '0', '0', hexLetter (char.toNat / 16), hexLetter (char.toNat % 16)]
  | plain (quote : char ≠ '"') (slash : char ≠ '\\') (printable : ¬ char.toNat < 0x20) : Escaped char [char]

theorem escapeChar_escaped (char : Char) : Escaped char (escapeChar char) := by
  unfold escapeChar
  split
  · next same => exact .short (by rw [same]; rfl) (by decide) rfl
  split
  · next same => exact .short (by rw [same]; rfl) (by decide) rfl
  split
  · next same => exact .short (by rw [same]; rfl) (by decide) rfl
  split
  · next same => exact .short (by rw [same]; rfl) (by decide) rfl
  split
  · next same => exact .short (by rw [same]; rfl) (by decide) rfl
  split
  · next same => exact .short (by rw [same]; rfl) (by decide) rfl
  split
  · next same => exact .short (by rw [same]; rfl) (by decide) rfl
  split
  · next low => exact .control low
  · next quote slash _ _ _ _ _ printable => exact .plain quote slash printable

theorem readString_escapeChar (char : Char) (rest : List Char) :
    readString (escapeChar char ++ rest) =
      (readString rest).map fun (value, rest) => (char :: value, rest) := by
  have form := escapeChar_escaped char
  generalize escapeChar char = text at form ⊢
  cases form with
  | short decoded _ _ => exact readString_simpleEscape decoded
  | control low =>
    have notSimple : simpleEscape 'u' = none := rfl
    simp only [List.cons_append, List.nil_append]
    rw [readString.eq_def]
    simp only [Char.reduceEq, if_false, if_true, notSimple, scalarUnit_hexLetter low]
  | plain quote slash printable =>
    rw [List.singleton_append, readString.eq_def]
    simp only [quote, slash, printable, if_false]

theorem readString_escaped (value rest : List Char) :
    readString (value.flatMap escapeChar ++ '"' :: rest) = some (value, rest) := by
  induction value with
  | nil =>
    rw [List.flatMap_nil, List.nil_append, readString.eq_def]
    simp only [if_true]
  | cons char value ih =>
    rw [List.flatMap_cons, List.append_assoc, readString_escapeChar, ih, Option.map_some]

/-- A text that ends a number that stands before it. -/
def EndsNumber (rest : List Char) : Prop :=
  ∀ char ∈ rest.head?, isDigit char = false ∧ char ≠ '.' ∧ char ≠ 'e' ∧ char ≠ 'E'

theorem isDigit_toDigits {value : Nat} : ∀ char ∈ Nat.toDigits 10 value, isDigit char = true := by
  intro char member
  have digit := Nat.isDigit_of_mem_toDigits (by decide) (by decide) member
  simpa only [Char.isDigit, isDigit, Bool.and_eq_true, decide_eq_true_eq, ge_iff_le, Char.le_def] using digit

theorem decimalValue_toDigits (value : Nat) : decimalValue (Nat.toDigits 10 value) = value := by
  have whole : Nat.ofDigitChars 10 (Nat.toDigits 10 value) 0 = value := Nat.ofDigitChars_ten_toDigits
  simpa only [Nat.ofDigitChars_eq_foldl, decimalValue, Nat.mul_comm 10] using whole

theorem head_toDigits {value : Nat} (positive : 0 < value) : (Nat.toDigits 10 value).head? ≠ some '0' := by
  induction value using Nat.strongRecOn with
  | ind value ih =>
    rw [Nat.toDigits_eq_if (by decide)]
    split
    · next small =>
      intro zero
      have digit : value.digitChar = '0' := by simpa using zero
      have code := Nat.toNat_digitChar_of_lt_ten small
      rw [digit] at code
      simp at code
      omega
    · next large =>
      have earlier := ih (value / 10) (by omega) (by omega)
      rw [List.head?_append_of_ne_nil _ Nat.toDigits_ne_nil]
      exact earlier

theorem readDigits_append {digits rest : List Char} (some : digits ≠ [])
    (all : ∀ char ∈ digits, isDigit char = true) (stop : ∀ char ∈ rest.head?, isDigit char = false) :
    readDigits (digits ++ rest) = .some (digits, rest) := by
  have none : rest.takeWhile isDigit = [] ∧ rest.dropWhile isDigit = rest := by
    cases rest with
    | nil => exact ⟨rfl, rfl⟩
    | cons char tail =>
      have stops := stop char rfl
      simp [stops]
  have taken : (digits ++ rest).takeWhile isDigit = digits := by
    rw [List.takeWhile_append_of_pos all, none.1, List.append_nil]
  have dropped : (digits ++ rest).dropWhile isDigit = rest := by
    rw [List.dropWhile_append_of_pos all, none.2]
  unfold readDigits
  rw [taken, dropped]
  cases digits with
  | nil => exact absurd rfl some
  | cons first others => rfl

theorem readPart_none {introducers rest : List Char} {body : List Char → Option (List Char × List Char)}
    (absent : ∀ char ∈ rest.head?, introducers.contains char = false) :
    readPart introducers body rest = some (none, rest) := by
  cases rest with
  | nil => rfl
  | cons char tail =>
    have other := absent char rfl
    simp only [readPart, other, Bool.false_eq_true, if_false]

def integerText (negative : Bool) (magnitude : Nat) : List Char :=
  (if negative then ['-'] else []) ++ Nat.toDigits 10 magnitude

theorem readNumber_integerText (negative : Bool) (magnitude : Nat) {rest : List Char}
    (ends : EndsNumber rest) :
    readNumber (integerText negative magnitude ++ rest) =
      some (⟨negative, magnitude, none, none⟩, rest) := by
  have digits : readDigits (Nat.toDigits 10 magnitude ++ rest) =
      some (Nat.toDigits 10 magnitude, rest) :=
    readDigits_append Nat.toDigits_ne_nil isDigit_toDigits fun char first => (ends char first).1
  have noZero : (decide ((Nat.toDigits 10 magnitude).head? = some '0') &&
      decide (1 < (Nat.toDigits 10 magnitude).length)) = false := by
    rcases Nat.eq_zero_or_pos magnitude with rfl | positive
    · rfl
    · simp [head_toDigits positive]
  have noFraction : readPart ['.'] readDigits rest = some (none, rest) :=
    readPart_none fun char first => by simpa using (ends char first).2.1
  have noExponent : readPart ['e', 'E'] readExponent rest = some (none, rest) :=
    readPart_none fun char first => by simpa using (ends char first).2.2
  have sign : (integerText negative magnitude ++ rest).head? = some '-' ↔ negative = true := by
    cases negative with
    | true => exact ⟨fun _ => rfl, fun _ => rfl⟩
    | false =>
      have first : (Nat.toDigits 10 magnitude).head? ≠ some '-' := by
        intro minus
        have digit := isDigit_toDigits '-' (List.mem_of_mem_head? minus)
        exact absurd digit (by decide)
      simp [integerText, List.head?_append_of_ne_nil _ Nat.toDigits_ne_nil, first]
  have flag : decide ((integerText negative magnitude ++ rest).head? = some '-') = negative := by
    simp only [sign, Bool.decide_eq_true]
  have unsigned : (if (integerText negative magnitude ++ rest).head? = some '-' then
      (integerText negative magnitude ++ rest).tail else integerText negative magnitude ++ rest) =
        Nat.toDigits 10 magnitude ++ rest := by
    simp only [sign]
    cases negative <;> rfl
  unfold readNumber
  simp only [flag, unsigned, digits, noZero, noFraction, noExponent, Option.bind_eq_bind, Option.bind_some,
    Bool.false_eq_true, if_false, decimalValue_toDigits, Option.pure_def]

def Number.token : Number → NumberToken
  | .posInt value => ⟨false, value.toNat, none, none⟩
  | .negInt value => ⟨value.toInt < 0, value.toInt.natAbs, none, none⟩
  | .float token => token

def Number.IsInteger : Number → Prop
  | .posInt _ | .negInt _ => True
  | .float _ => False

theorem toList_intRepr (integer : Int) :
    (Int.repr integer).toList = integerText (decide (integer < 0)) integer.natAbs := by
  cases integer with
  | ofNat magnitude => simp [Int.repr, integerText]
  | negSucc magnitude => simp [Int.repr, integerText, Int.negSucc_lt_zero]

theorem Number.print_eq {number : Number} (integer : number.IsInteger) :
    number.print = integerText number.token.negative number.token.magnitude := by
  cases number with
  | posInt value => simp [print, token, integerText]
  | negInt value =>
    simp only [print, token]
    exact toList_intRepr value.toInt
  | float token => exact absurd integer id

theorem Number.token_eq {number : Number} (integer : number.IsInteger) :
    number.token = ⟨number.token.negative, number.token.magnitude, none, none⟩ := by
  cases number with
  | posInt value => rfl
  | negInt value => rfl
  | float token => exact absurd integer id

/-! ## Values -/

mutual

/-- No part of the value is a float. -/
def Value.IsExact : Value → Prop
  | .null | .bool _ | .string _ => True
  | .number number => number.IsInteger
  | .array elements => exactElements elements
  | .object members => exactMembers members

def exactElements : List Value → Prop
  | [] => True
  | element :: rest => element.IsExact ∧ exactElements rest

def exactMembers : List (String × Value) → Prop
  | [] => True
  | (_, value) :: rest => value.IsExact ∧ exactMembers rest

end

mutual

/-- The tree of the text a value is printed as. -/
def Value.toTree : Value → Tree
  | .null => .null
  | .bool value => .bool value
  | .number number => .number number.token
  | .string value => .string value
  | .array elements => .array (elementTrees elements)
  | .object members => .object (memberTrees members)

def elementTrees : List Value → List Tree
  | [] => []
  | element :: rest => element.toTree :: elementTrees rest

def memberTrees : List (String × Value) → List (String × Tree)
  | [] => []
  | (name, value) :: rest => (name, value.toTree) :: memberTrees rest

end

theorem skipSpace_cons (char : Char) (visible : isSpace char = false) {rest : List Char} :
    skipSpace (char :: rest) = char :: rest := by
  simp [skipSpace, visible]

theorem integerText_first (negative : Bool) (magnitude : Nat) :
    ∃ char rest, integerText negative magnitude = char :: rest ∧ (isDigit char = true ∨ char = '-') := by
  cases negative with
  | true => exact ⟨'-', _, rfl, .inr rfl⟩
  | false =>
    obtain ⟨char, rest, same⟩ := List.exists_cons_of_ne_nil (Nat.toDigits_ne_nil (n := magnitude) (b := 10))
    exact ⟨char, rest, same, .inl (isDigit_toDigits char (same ▸ List.mem_cons_self))⟩

theorem digit_ne {char : Char} (start : isDigit char = true ∨ char = '-') (other : Char)
    (apart : isDigit other = false ∧ other ≠ '-') : char ≠ other := by
  rintro rfl
  rcases start with digit | minus
  · rw [apart.1] at digit
    cases digit
  · exact apart.2 minus

theorem digit_visible {char : Char} (start : isDigit char = true ∨ char = '-') : isSpace char = false := by
  have space := digit_ne start ' ' (by decide)
  have tab := digit_ne start '\t' (by decide)
  have newline := digit_ne start '\n' (by decide)
  have carriage := digit_ne start '\r' (by decide)
  simp [isSpace, space, tab, newline, carriage]

/-- No text of a value starts like white space or like the end of an array. -/
theorem print_first {value : Value} (exact : value.IsExact) :
    ∃ char rest, value.print = char :: rest ∧ isSpace char = false ∧ char ≠ ']' := by
  cases value with
  | null => exact ⟨'n', _, rfl, rfl, by decide⟩
  | bool value =>
    cases value with
    | true => exact ⟨'t', _, rfl, rfl, by decide⟩
    | false => exact ⟨'f', _, rfl, rfl, by decide⟩
  | number number =>
    obtain ⟨char, rest, same, start⟩ := integerText_first number.token.negative number.token.magnitude
    exact ⟨char, rest, (Number.print_eq exact).trans same, digit_visible start,
      digit_ne start ']' (by decide)⟩
  | string value => exact ⟨'"', _, rfl, rfl, by decide⟩
  | array elements => cases elements <;> exact ⟨'[', _, rfl, rfl, by decide⟩
  | object members =>
    cases members <;> exact ⟨'\x7b', _, rfl, rfl, by decide⟩

theorem readValue_integer {fuel : Nat} (negative : Bool) (magnitude : Nat) {rest : List Char}
    (ends : EndsNumber rest) :
    readValue (fuel + 1) (integerText negative magnitude ++ rest) =
      some (.number ⟨negative, magnitude, none, none⟩, rest) := by
  have number := readNumber_integerText negative magnitude ends
  obtain ⟨char, tail, same, start⟩ := integerText_first negative magnitude
  rw [same, List.cons_append] at number ⊢
  have quote := digit_ne start '"' (by decide)
  have bracket := digit_ne start '[' (by decide)
  have brace := digit_ne start '\x7b' (by decide)
  have yes := digit_ne start 't' (by decide)
  have no := digit_ne start 'f' (by decide)
  have nothing := digit_ne start 'n' (by decide)
  simp only [readValue, skipSpace_cons char (digit_visible start), quote, bracket, brace, yes, no, nothing,
    if_false, number, Option.map_some]

theorem readValue_string {fuel : Nat} (value : String) (rest : List Char) :
    readValue (fuel + 1) (printString value ++ rest) = some (.string value, rest) := by
  have text : printString value ++ rest = '"' :: (value.toList.flatMap escapeChar ++ '"' :: rest) := by
    simp [printString]
  rw [text]
  simp only [readValue, skipSpace_cons '"' rfl, if_true, readString_escaped, Option.map_some,
    String.ofList_toList]

theorem readValue_array {fuel : Nat} {char : Char} {text : List Char} (visible : isSpace char = false)
    (filled : char ≠ ']') :
    readValue (fuel + 1) ('[' :: char :: text) =
      (readElements fuel (char :: text)).map fun (elements, rest) => (.array elements, rest) := by
  simp only [readValue, skipSpace_cons '[' rfl, skipSpace_cons char visible, Char.reduceEq, if_false, if_true]
  split
  · next closed => exact absurd (List.cons.inj closed).1 filled
  · rfl

theorem readValue_object {fuel : Nat} {text : List Char} :
    readValue (fuel + 1) ('\x7b' :: '"' :: text) =
      (readMembers fuel ('"' :: text)).map fun (members, rest) => (.object members, rest) := by
  simp only [readValue, skipSpace_cons '\x7b' rfl, skipSpace_cons '"' rfl, Char.reduceEq, if_false, if_true]
  rfl

structure ReadsPrinted (fuel : Nat) : Prop where
  value : ∀ {value} rest, Value.IsExact value → EndsNumber rest →
    2 * (value.print ++ rest).length + 1 ≤ fuel →
    readValue fuel (value.print ++ rest) = some (value.toTree, rest)
  elements : ∀ {element others} rest, Value.IsExact element → exactElements others →
    2 * (element.print ++ printElements others ++ rest).length + 2 ≤ fuel →
    readElements fuel (element.print ++ printElements others ++ rest) =
      some (element.toTree :: elementTrees others, rest)
  members : ∀ {value others} name rest, Value.IsExact value → exactMembers others →
    2 * (printString name ++ ':' :: value.print ++ printMembers others ++ rest).length + 2 ≤ fuel →
    readMembers fuel (printString name ++ ':' :: value.print ++ printMembers others ++ rest) =
      some ((name, value.toTree) :: memberTrees others, rest)

theorem readValue_print {fuel : Nat} (printed : ReadsPrinted fuel) {value : Value} (rest : List Char)
    (exact : value.IsExact) (ends : EndsNumber rest)
    (enough : 2 * (value.print ++ rest).length + 1 ≤ fuel + 1) :
    readValue (fuel + 1) (value.print ++ rest) = some (value.toTree, rest) := by
  cases value with
  | null => rfl
  | bool value => cases value <;> rfl
  | number number =>
    rw [Value.print, Number.print_eq exact, readValue_integer _ _ ends, Value.toTree,
      Number.token_eq exact]
  | string value => exact readValue_string value rest
  | array elements =>
    cases elements with
    | nil => rfl
    | cons element others =>
      obtain ⟨inner, later⟩ := exact
      have text : (Value.array (element :: others)).print ++ rest =
          '[' :: (element.print ++ printElements others ++ rest) := by
        simp [Value.print]
      rw [text, List.length_cons] at enough
      have found := printed.elements rest inner later (by omega)
      obtain ⟨char, tail, same, visible, filled⟩ := print_first inner
      rw [text]
      rw [same, List.cons_append, List.cons_append] at found ⊢
      rw [readValue_array visible filled, found]
      rfl
  | object members =>
    cases members with
    | nil => rfl
    | cons first others =>
      obtain ⟨name, value⟩ := first
      obtain ⟨inner, later⟩ := exact
      have text : (Value.object ((name, value) :: others)).print ++ rest =
          '\x7b' :: (printString name ++ ':' :: value.print ++ printMembers others ++ rest) := by
        simp [Value.print]
      rw [text, List.length_cons] at enough
      have found := printed.members name rest inner later (by omega)
      rw [text]
      rw [printString, List.cons_append, List.cons_append, List.cons_append, List.cons_append] at found ⊢
      rw [readValue_object, found]
      rfl

theorem endsNumber_elements (elements : List Value) (rest : List Char) :
    EndsNumber (printElements elements ++ rest) := by
  cases elements with
  | nil =>
    intro char first
    cases first
    decide
  | cons element others =>
    intro char first
    cases first
    decide

theorem endsNumber_members (members : List (String × Value)) (rest : List Char) :
    EndsNumber (printMembers members ++ rest) := by
  cases members with
  | nil =>
    intro char first
    cases first
    decide
  | cons member others =>
    intro char first
    cases first
    decide

theorem readElements_print {fuel : Nat} (printed : ReadsPrinted fuel) {element : Value}
    {others : List Value} (rest : List Char) (exact : element.IsExact) (later : exactElements others)
    (enough : 2 * (element.print ++ printElements others ++ rest).length + 2 ≤ fuel + 1) :
    readElements (fuel + 1) (element.print ++ printElements others ++ rest) =
      some (element.toTree :: elementTrees others, rest) := by
  rw [List.append_assoc] at enough ⊢
  have first := printed.value (printElements others ++ rest) exact (endsNumber_elements others rest) (by omega)
  simp only [readElements, first]
  cases others with
  | nil => rfl
  | cons next others =>
    obtain ⟨nextExact, othersExact⟩ := later
    have text : printElements (next :: others) ++ rest =
        ',' :: (next.print ++ printElements others ++ rest) := by
      simp [printElements]
    rw [text] at enough ⊢
    simp only [List.length_append, List.length_cons] at enough
    have found := printed.elements rest nextExact othersExact (by
      simp only [List.length_append]
      omega)
    simp only [skipSpace_cons ',' rfl, found, Option.map_some, elementTrees]

theorem readMembers_print {fuel : Nat} (printed : ReadsPrinted fuel) {value : Value}
    {others : List (String × Value)} (name : String) (rest : List Char) (exact : value.IsExact)
    (later : exactMembers others)
    (enough : 2 * (printString name ++ ':' :: value.print ++ printMembers others ++ rest).length + 2 ≤
      fuel + 1) :
    readMembers (fuel + 1) (printString name ++ ':' :: value.print ++ printMembers others ++ rest) =
      some ((name, value.toTree) :: memberTrees others, rest) := by
  have text : printString name ++ ':' :: value.print ++ printMembers others ++ rest =
      '"' :: (name.toList.flatMap escapeChar ++ '"' :: ':' :: (value.print ++ (printMembers others ++ rest))) := by
    simp [printString]
  rw [text] at enough ⊢
  simp only [List.length_append, List.length_cons] at enough
  have first := printed.value (printMembers others ++ rest) exact (endsNumber_members others rest) (by
    simp only [List.length_append]
    omega)
  simp only [readMembers, skipSpace_cons '"' rfl, readString_escaped, skipSpace_cons ':' rfl, first,
    String.ofList_toList]
  cases others with
  | nil => rfl
  | cons next others =>
    obtain ⟨nextName, nextValue⟩ := next
    obtain ⟨nextExact, othersExact⟩ := later
    have separated : printMembers ((nextName, nextValue) :: others) ++ rest =
        ',' :: (printString nextName ++ ':' :: nextValue.print ++ printMembers others ++ rest) := by
      simp [printMembers]
    have length := congrArg List.length separated
    rw [List.length_append, List.length_cons] at length
    have found := printed.members nextName rest nextExact othersExact (by omega)
    rw [separated]
    simp only [skipSpace_cons ',' rfl, found, Option.map_some, memberTrees]

theorem readsPrinted (fuel : Nat) : ReadsPrinted fuel := by
  induction fuel with
  | zero =>
    constructor
    · intro value rest _ _ enough
      omega
    · intro element others rest _ _ enough
      omega
    · intro value others name rest _ _ enough
      omega
  | succ fuel ih => exact ⟨readValue_print ih, readElements_print ih, readMembers_print ih⟩

def Value.line (value : Value) : List UInt8 := encodeUtf8 value.print ++ [0x0A]

theorem read_line {value : Value} (exact : value.IsExact) : read value.line = some value.toTree := by
  have bytes : value.line = encodeUtf8 (value.print ++ ['\n']) := by
    rw [Value.line, encodeUtf8_append]
    rfl
  have ends : EndsNumber ['\n'] := by
    intro char first
    cases first
    decide
  rw [read, bytes, decodeUtf8_encodeUtf8, Option.bind_some]
  exact readText_complete ((readsPrinted _).value ['\n'] exact ends (Nat.le_refl _)) rfl

theorem escapeChar_clear (char : Char) : '\n' ∉ escapeChar char := by
  have digits : ∀ digit < 16, hexLetter digit ≠ '\n' := by decide
  have form := escapeChar_escaped char
  generalize escapeChar char = text at form ⊢
  cases form with
  | short _ visible _ => simp [visible.symm]
  | control low =>
    have upper := digits (char.toNat / 16) (by omega)
    have lower := digits (char.toNat % 16) (by omega)
    simp [upper.symm, lower.symm]
  | plain _ _ printable =>
    rw [List.mem_singleton]
    rintro rfl
    exact printable (by decide)

theorem printString_clear (value : String) : '\n' ∉ printString value := by
  simp [printString, escapeChar_clear]

theorem integerText_clear (negative : Bool) (magnitude : Nat) : '\n' ∉ integerText negative magnitude := by
  have digits : '\n' ∉ Nat.toDigits 10 magnitude := by
    intro member
    exact absurd (isDigit_toDigits _ member) (by decide)
  cases negative <;> simp [integerText, digits]

mutual

theorem print_clear : ∀ value : Value, value.IsExact → '\n' ∉ value.print
  | .null, _ => by decide
  | .bool true, _ => by decide
  | .bool false, _ => by decide
  | .number number, exact => by
    rw [Value.print, Number.print_eq exact]
    exact integerText_clear _ _
  | .string value, _ => printString_clear value
  | .array [], _ => by decide
  | .array (element :: rest), exact => by
    have first := print_clear element exact.1
    have later := printElements_clear rest exact.2
    simp [Value.print, first, later]
  | .object [], _ => by decide
  | .object ((name, value) :: rest), exact => by
    have first := print_clear value exact.1
    have later := printMembers_clear rest exact.2
    simp [Value.print, printString_clear, first, later]

theorem printElements_clear : ∀ elements : List Value, exactElements elements → '\n' ∉ printElements elements
  | [], _ => by decide
  | element :: rest, exact => by
    have first := print_clear element exact.1
    have later := printElements_clear rest exact.2
    simp [printElements, first, later]

theorem printMembers_clear : ∀ members : List (String × Value), exactMembers members →
    '\n' ∉ printMembers members
  | [], _ => by decide
  | (name, value) :: rest, exact => by
    have first := print_clear value exact.1
    have later := printMembers_clear rest exact.2
    simp [printMembers, printString_clear, first, later]

end

theorem hexLetter_size : ∀ digit < 16, (hexLetter digit).utf8Size = 1 := by decide

theorem escapeChar_length (char : Char) : String.utf8Len (escapeChar char) ≤ 6 * char.utf8Size := by
  have positive := char.utf8Size_pos
  have form := escapeChar_escaped char
  generalize escapeChar char = text at form ⊢
  cases form with
  | short _ _ single =>
    have slash : '\\'.utf8Size = 1 := rfl
    simp only [String.utf8Len_cons, String.utf8Len_nil, single, slash]
    omega
  | control low =>
    have upper := hexLetter_size (char.toNat / 16) (by omega)
    have lower := hexLetter_size (char.toNat % 16) (by omega)
    have start : String.utf8Len ['\\', 'u', '0', '0'] = 4 := rfl
    simp only [String.utf8Len_cons, String.utf8Len_nil, upper, lower] at start ⊢
    omega
  | plain _ _ _ =>
    simp only [String.utf8Len_cons, String.utf8Len_nil]
    omega

theorem escaped_length (value : List Char) :
    String.utf8Len (value.flatMap escapeChar) ≤ 6 * String.utf8Len value := by
  induction value with
  | nil => exact Nat.le_refl 0
  | cons char rest ih =>
    have first := escapeChar_length char
    rw [List.flatMap_cons, String.utf8Len_append, String.utf8Len_cons]
    omega

theorem utf8ByteSize_eq_utf8Len (value : String) : value.utf8ByteSize = String.utf8Len value.toList := by
  rw [← encodeUtf8_length, ← toUTF8_eq_encodeUtf8]
  rfl

theorem printString_length (value : String) :
    (encodeUtf8 (printString value)).length ≤ 6 * value.utf8ByteSize + 2 := by
  have body := escaped_length value.toList
  have quote : String.utf8Len ['"'] = 1 := rfl
  rw [encodeUtf8_length, utf8ByteSize_eq_utf8Len, printString, ← List.singleton_append]
  simp only [String.utf8Len_append, quote]
  omega

theorem utf8Len_le_length {text : List Char} (ascii : ∀ char ∈ text, char.utf8Size ≤ 1) :
    String.utf8Len text ≤ text.length := by
  induction text with
  | nil => exact Nat.le_refl 0
  | cons char rest ih =>
    have first := ascii char List.mem_cons_self
    have later := ih fun other member => ascii other (List.mem_cons_of_mem char member)
    rw [String.utf8Len_cons, List.length_cons]
    omega

theorem isDigit_size {char : Char} (digit : isDigit char = true) : char.utf8Size ≤ 1 := by
  apply utf8Size_le_one
  simp only [isDigit, Bool.and_eq_true, decide_eq_true_eq, Char.le_def, UInt32.le_iff_toNat_le] at digit
  exact Nat.lt_of_le_of_lt digit.2 (by decide)

theorem integerText_length (negative : Bool) {magnitude : Nat} (small : magnitude < UInt64.size) :
    (encodeUtf8 (integerText negative magnitude)).length ≤ 21 := by
  have digits : (Nat.toDigits 10 magnitude).length ≤ 20 := by
    rw [Nat.length_toDigits_le_iff (by decide) (by decide)]
    exact Nat.lt_trans small (by decide)
  have bytes : String.utf8Len (Nat.toDigits 10 magnitude) ≤ (Nat.toDigits 10 magnitude).length :=
    utf8Len_le_length fun char member => isDigit_size (isDigit_toDigits char member)
  have minus : String.utf8Len ['-'] = 1 := rfl
  rw [encodeUtf8_length, integerText, String.utf8Len_append]
  cases negative with
  | true =>
    rw [if_pos rfl, minus]
    omega
  | false =>
    rw [if_neg Bool.false_ne_true, String.utf8Len_nil]
    omega

/-- The machine types overlap; a number is kept in the unsigned one when it fits. -/
def Number.IsCanonical : Number → Prop
  | .negInt value => value.toInt < 0
  | .posInt _ | .float _ => True

theorem NumberToken.toNumber_canonical (token : NumberToken) : token.toNumber.IsCanonical := by
  unfold NumberToken.toNumber
  split
  · trivial
  split
  · split <;> trivial
  split
  · next range =>
    have value : (Int64.ofInt (-token.magnitude)).toInt = -token.magnitude :=
      Int64.toInt_ofInt_of_le (by omega) (by omega)
    simp only [Number.IsCanonical, value]
    omega
  · trivial

theorem Number.toNumber_token {number : Number} (integer : number.IsInteger) (canonical : number.IsCanonical) :
    number.token.toNumber = number := by
  cases number with
  | posInt value =>
    have small : value.toNat < 18446744073709551616 := value.toNat_lt
    simp [token, NumberToken.toNumber, small]
  | negInt value =>
    have negative : value.toInt < 0 := canonical
    have low := value.le_toInt
    have range : 0 < value.toInt.natAbs ∧ value.toInt.natAbs ≤ 9223372036854775808 := by omega
    have same : -(value.toInt.natAbs : Int) = value.toInt := by omega
    simp only [token, NumberToken.toNumber, negative, decide_true, Bool.not_true, Option.isSome_none,
      Bool.or_self, Bool.false_eq_true, if_false]
    split
    · rw [same, Int64.ofInt_toInt]
    · next outside => exact absurd range outside
  | float token => exact absurd integer id

/-- A value without parts that is no float. -/
def Value.IsScalar : Value → Prop
  | .null | .bool _ | .string _ => True
  | .number kept => kept.IsInteger ∧ kept.IsCanonical
  | .array _ | .object _ => False

theorem Value.IsScalar.exact {value : Value} (scalar : value.IsScalar) : value.IsExact := by
  cases value with
  | null | bool _ | string _ => trivial
  | number number => exact scalar.1
  | array _ | object _ => exact absurd scalar id

theorem Value.IsScalar.toValue_toTree {value : Value} (scalar : value.IsScalar) :
    value.toTree.toValue = value := by
  cases value with
  | null | bool _ | string _ => rfl
  | number number => rw [Value.toTree, Tree.toValue, Number.toNumber_token scalar.1 scalar.2]
  | array _ | object _ => exact absurd scalar id

/-- A line is read in one way, so two values that are printed alike are the same. -/
theorem print_injective {left right : Value} (leftScalar : left.IsScalar) (rightScalar : right.IsScalar)
    (same : left.print = right.print) : left = right := by
  have read : some left.toTree = some right.toTree := by
    rw [← read_line leftScalar.exact, ← read_line rightScalar.exact, Value.line, Value.line, same]
  rw [← leftScalar.toValue_toTree, ← rightScalar.toValue_toTree, Option.some.inj read]

/-! ## The crate -/

namespace SerdeJson

variable (json : SerdeJson)

/-- Values without floats are printed in their compact text. -/
def PrintsCompactly : Prop := ∀ {value : Value}, value.IsExact → json.toText value = .ofList value.print

/-- Strings, and arrays of them, are held whatever their length. -/
def HoldsStrings : Prop :=
  (∀ value, json.representable (.string value) = true) ∧
    ∀ values : List String, json.representable (.array (values.map .string)) = true

theorem reference_printsCompactly : reference.PrintsCompactly := fun _ => rfl

theorem reference_holdsStrings : reference.HoldsStrings := ⟨fun _ => rfl, fun _ => rfl⟩

variable {json}

theorem PrintsCompactly.bytes (compact : json.PrintsCompactly) {value : Value} (exact : value.IsExact) :
    (json.toText value).toUTF8.data.toList = encodeUtf8 value.print := by
  rw [compact exact, toUTF8_eq_encodeUtf8, String.toList_ofList]

end SerdeJson

end Json

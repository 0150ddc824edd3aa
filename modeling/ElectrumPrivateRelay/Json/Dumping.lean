import ElectrumPrivateRelay.Json.Printing

/-! The text that Python's `json.dumps` makes of a value with an indent of two
and every character outside printable ASCII escaped, and that reading the text
gives the value back.
-/

set_option autoImplicit false

namespace Json

/-- A value of Python's standard types; an integer has no bound there. -/
inductive Datum where
  | none
  | bool (value : Bool)
  | int (value : Int)
  | str (value : String)
  | list (elements : List Datum)
  | dict (members : List (String × Datum))

def hexQuad (unit : Nat) : List Char :=
  [hexLetter (unit / 4096), hexLetter (unit / 256 % 16), hexLetter (unit / 16 % 16), hexLetter (unit % 16)]

/-- `ensure_ascii`: a character outside the basic plane is written as two units. -/
def asciiEscape (char : Char) : List Char :=
  if char = '"' then ['\\', '"']
  else if char = '\\' then ['\\', '\\']
  else if char = '\n' then ['\\', 'n']
  else if char = '\r' then ['\\', 'r']
  else if char = '\t' then ['\\', 't']
  else if char = '\x0c' then ['\\', 'f']
  else if char = '\x08' then ['\\', 'b']
  else if 0x20 ≤ char.toNat && char.toNat ≤ 0x7E then [char]
  else if char.toNat < 0x10000 then '\\' :: 'u' :: hexQuad char.toNat
  else '\\' :: 'u' :: hexQuad (0xD800 + (char.toNat - 0x10000) / 1024) ++
    '\\' :: 'u' :: hexQuad (0xDC00 + (char.toNat - 0x10000) % 1024)

def dumpString (value : String) : List Char := '"' :: value.toList.flatMap asciiEscape ++ ['"']

def lineBreak (level : Nat) : List Char := '\n' :: List.replicate (2 * level) ' '

mutual

def Datum.dump (level : Nat) : Datum → List Char
  | .none => "null".toList
  | .bool value => (if value then "true" else "false").toList
  | .int value => integerText (value < 0) value.natAbs
  | .str value => dumpString value
  | .list [] => ['[', ']']
  | .list (element :: rest) =>
    '[' :: lineBreak (level + 1) ++ element.dump (level + 1) ++ dumpElements level rest
  | .dict [] => ['\x7b', '\x7d']
  | .dict ((name, value) :: rest) =>
    '\x7b' :: lineBreak (level + 1) ++ dumpString name ++ ':' :: ' ' :: value.dump (level + 1) ++
      dumpMembers level rest

def dumpElements (level : Nat) : List Datum → List Char
  | [] => lineBreak level ++ [']']
  | element :: rest =>
    ',' :: lineBreak (level + 1) ++ element.dump (level + 1) ++ dumpElements level rest

def dumpMembers (level : Nat) : List (String × Datum) → List Char
  | [] => lineBreak level ++ ['\x7d']
  | (name, value) :: rest =>
    ',' :: lineBreak (level + 1) ++ dumpString name ++ ':' :: ' ' :: value.dump (level + 1) ++
      dumpMembers level rest

end

mutual

/-- The tree of the text a value is dumped as. -/
def Datum.toTree : Datum → Tree
  | .none => .null
  | .bool value => .bool value
  | .int value => .number ⟨value < 0, value.natAbs, Option.none, Option.none⟩
  | .str value => .string value
  | .list elements => .array (datumTrees elements)
  | .dict members => .object (memberDatumTrees members)

def datumTrees : List Datum → List Tree
  | [] => []
  | element :: rest => element.toTree :: datumTrees rest

def memberDatumTrees : List (String × Datum) → List (String × Tree)
  | [] => []
  | (name, value) :: rest => (name, value.toTree) :: memberDatumTrees rest

end

theorem hexUnit_hexQuad {unit : Nat} (small : unit < 0x10000) :
    ∃ a b c d, hexQuad unit = [a, b, c, d] ∧ hexUnit a b c d = some unit := by
  refine ⟨_, _, _, _, rfl, ?_⟩
  have first := hexDigit_hexLetter (unit / 4096) (by omega)
  have second := hexDigit_hexLetter (unit / 256 % 16) (by omega)
  have third := hexDigit_hexLetter (unit / 16 % 16) (by omega)
  have fourth := hexDigit_hexLetter (unit % 16) (by omega)
  have join : unit / 4096 * 4096 + unit / 256 % 16 * 256 + unit / 16 % 16 * 16 + unit % 16 = unit := by omega
  simp only [hexUnit, first, second, third, fourth, Option.bind_eq_bind, Option.bind_some, Option.pure_def, join]

theorem char_not_surrogate (char : Char) : isSurrogate char.toNat = false := by
  have valid := char.valid
  simp only [isSurrogate, Bool.and_eq_false_iff, decide_eq_false_iff_not]
  have code : char.val.toNat = char.toNat := rfl
  simp only [UInt32.isValidChar, Nat.isValidChar, code] at valid
  omega

theorem char_small (char : Char) : char.toNat < 0x110000 := by
  have valid := char.valid
  have code : char.val.toNat = char.toNat := rfl
  simp only [UInt32.isValidChar, Nat.isValidChar, code] at valid
  omega

inductive AsciiForm (char : Char) : List Char → Prop where
  | short {letter : Char} (decoded : simpleEscape letter = some char) (low : letter.toNat < 0x80) :
      AsciiForm char ['\\', letter]
  | plain (quote : char ≠ '"') (slash : char ≠ '\\') (printable : 0x20 ≤ char.toNat) (low : char.toNat < 0x80) :
      AsciiForm char [char]
  | unit (small : char.toNat < 0x10000) : AsciiForm char ('\\' :: 'u' :: hexQuad char.toNat)
  | pair (large : 0x10000 ≤ char.toNat) :
      AsciiForm char ('\\' :: 'u' :: hexQuad (0xD800 + (char.toNat - 0x10000) / 1024) ++
        '\\' :: 'u' :: hexQuad (0xDC00 + (char.toNat - 0x10000) % 1024))

theorem asciiEscape_form (char : Char) : AsciiForm char (asciiEscape char) := by
  unfold asciiEscape
  split
  · next same => exact .short (by rw [same]; rfl) (by decide)
  split
  · next same => exact .short (by rw [same]; rfl) (by decide)
  split
  · next same => exact .short (by rw [same]; rfl) (by decide)
  split
  · next same => exact .short (by rw [same]; rfl) (by decide)
  split
  · next same => exact .short (by rw [same]; rfl) (by decide)
  split
  · next same => exact .short (by rw [same]; rfl) (by decide)
  split
  · next same => exact .short (by rw [same]; rfl) (by decide)
  split
  · next quote slash _ _ _ _ _ range =>
    simp only [Bool.and_eq_true, decide_eq_true_eq] at range
    exact .plain quote slash range.1 (by omega)
  split
  · next small => exact .unit small
  · next large => exact .pair (by omega)

theorem readString_unit {unit : Nat} {char : Char} {rest : List Char} (small : unit < 0x10000)
    (scalar : isSurrogate unit = false) (same : Char.ofNat unit = char) :
    readString ('\\' :: 'u' :: hexQuad unit ++ rest) =
      (readString rest).map fun (value, rest) => (char :: value, rest) := by
  obtain ⟨a, b, c, d, quad, digits⟩ := hexUnit_hexQuad small
  have notSimple : simpleEscape 'u' = none := rfl
  rw [quad]
  simp only [List.cons_append, List.nil_append]
  rw [readString.eq_def]
  simp only [Char.reduceEq, if_false, if_true, notSimple, scalarUnit, digits, scalar, Bool.false_eq_true, same]

theorem readString_pair {char : Char} {rest : List Char} (large : 0x10000 ≤ char.toNat) :
    readString ('\\' :: 'u' :: hexQuad (0xD800 + (char.toNat - 0x10000) / 1024) ++
        '\\' :: 'u' :: hexQuad (0xDC00 + (char.toNat - 0x10000) % 1024) ++ rest) =
      (readString rest).map fun (value, rest) => (char :: value, rest) := by
  have bound := char_small char
  obtain ⟨a, b, c, d, high, highDigits⟩ :=
    @hexUnit_hexQuad (0xD800 + (char.toNat - 0x10000) / 1024) (by omega)
  obtain ⟨e, f, g, h, low, lowDigits⟩ :=
    @hexUnit_hexQuad (0xDC00 + (char.toNat - 0x10000) % 1024) (by omega)
  have notSimple : simpleEscape 'u' = none := rfl
  have half : isSurrogate (0xD800 + (char.toNat - 0x10000) / 1024) = true := by
    simp only [isSurrogate, Bool.and_eq_true, decide_eq_true_eq]
    omega
  have code : 0x10000 + (0xD800 + (char.toNat - 0x10000) / 1024 - 0xD800) * 1024 +
      (0xDC00 + (char.toNat - 0x10000) % 1024 - 0xDC00) = char.toNat := by omega
  have joined : surrogatePair a b c d e f g h = some char := by
    simp only [surrogatePair, highDigits, lowDigits, code, Char.ofNat_toNat]
    rw [if_pos]
    simp only [Bool.and_eq_true, decide_eq_true_eq]
    omega
  rw [high, low]
  simp only [List.cons_append, List.nil_append]
  rw [readString.eq_def]
  simp only [Char.reduceEq, if_false, if_true, notSimple, scalarUnit, highDigits, half, joined, decide_true,
    Bool.and_self]

theorem readString_asciiEscape (char : Char) (rest : List Char) :
    readString (asciiEscape char ++ rest) =
      (readString rest).map fun (value, rest) => (char :: value, rest) := by
  have form := asciiEscape_form char
  generalize asciiEscape char = text at form ⊢
  cases form with
  | short decoded _ => exact readString_simpleEscape decoded
  | plain quote slash printable _ =>
    have visible : ¬ char.toNat < 0x20 := by omega
    rw [List.singleton_append, readString.eq_def]
    simp only [quote, slash, visible, if_false]
  | unit small => exact readString_unit small (char_not_surrogate char) (Char.ofNat_toNat char)
  | pair large => exact readString_pair large

theorem readString_dumped (value rest : List Char) :
    readString (value.flatMap asciiEscape ++ '"' :: rest) = some (value, rest) := by
  induction value with
  | nil =>
    rw [List.flatMap_nil, List.nil_append, readString.eq_def]
    simp only [if_true]
  | cons char value ih =>
    rw [List.flatMap_cons, List.append_assoc, readString_asciiEscape, ih, Option.map_some]

theorem skipSpace_lineBreak (level : Nat) (text : List Char) : skipSpace (lineBreak level ++ text) = skipSpace text := by
  have spaces : ∀ char ∈ lineBreak level, isSpace char = true := by
    intro char member
    rcases List.mem_cons.mp member with rfl | blank
    · rfl
    · rw [List.eq_of_mem_replicate blank]
      rfl
  exact List.dropWhile_append_of_pos spaces

theorem readValue_lineBreak (fuel level : Nat) (text : List Char) :
    readValue fuel (lineBreak level ++ text) = readValue fuel text := by
  cases fuel with
  | zero => rfl
  | succ fuel => simp only [readValue, skipSpace_lineBreak]

theorem readElements_lineBreak (fuel level : Nat) (text : List Char) :
    readElements fuel (lineBreak level ++ text) = readElements fuel text := by
  cases fuel with
  | zero => rfl
  | succ fuel => simp only [readElements, readValue_lineBreak]

theorem readMembers_lineBreak (fuel level : Nat) (text : List Char) :
    readMembers fuel (lineBreak level ++ text) = readMembers fuel text := by
  cases fuel with
  | zero => rfl
  | succ fuel => simp only [readMembers, skipSpace_lineBreak]

theorem readValue_blank (fuel : Nat) (text : List Char) : readValue fuel (' ' :: text) = readValue fuel text := by
  cases fuel with
  | zero => rfl
  | succ fuel =>
    have skipped : skipSpace (' ' :: text) = skipSpace text := rfl
    simp only [readValue, skipped]

theorem dump_first (value : Datum) (level : Nat) :
    ∃ char rest, value.dump level = char :: rest ∧ isSpace char = false ∧ char ≠ ']' := by
  cases value with
  | none => exact ⟨'n', _, rfl, rfl, by decide⟩
  | bool value =>
    cases value with
    | true => exact ⟨'t', _, rfl, rfl, by decide⟩
    | false => exact ⟨'f', _, rfl, rfl, by decide⟩
  | int value =>
    obtain ⟨char, rest, same, start⟩ := integerText_first (value < 0) value.natAbs
    exact ⟨char, rest, same, digit_visible start, digit_ne start ']' (by decide)⟩
  | str value => exact ⟨'"', _, rfl, rfl, by decide⟩
  | list elements => cases elements <;> exact ⟨'[', _, rfl, rfl, by decide⟩
  | dict members => cases members <;> exact ⟨'\x7b', _, rfl, rfl, by decide⟩

theorem endsNumber_dumpElements (level : Nat) (elements : List Datum) (rest : List Char) :
    EndsNumber (dumpElements level elements ++ rest) := by
  cases elements with
  | nil =>
    intro char first
    cases first
    decide
  | cons element others =>
    intro char first
    cases first
    decide

theorem endsNumber_dumpMembers (level : Nat) (members : List (String × Datum)) (rest : List Char) :
    EndsNumber (dumpMembers level members ++ rest) := by
  cases members with
  | nil =>
    intro char first
    cases first
    decide
  | cons member others =>
    intro char first
    cases first
    decide

theorem readValue_dumpString {fuel : Nat} (value : String) (rest : List Char) :
    readValue (fuel + 1) (dumpString value ++ rest) = some (.string value, rest) := by
  have text : dumpString value ++ rest = '"' :: (value.toList.flatMap asciiEscape ++ '"' :: rest) := by
    simp [dumpString]
  rw [text]
  simp only [readValue, skipSpace_cons '"' rfl, if_true, readString_dumped, Option.map_some, String.ofList_toList]

theorem readValue_filledArray {fuel : Nat} {char : Char} {text tail : List Char}
    (first : skipSpace text = char :: tail) (filled : char ≠ ']') :
    readValue (fuel + 1) ('[' :: text) =
      (readElements fuel text).map fun (elements, rest) => (.array elements, rest) := by
  simp only [readValue, skipSpace_cons '[' rfl, first, Char.reduceEq, if_false, if_true]
  split
  · next closed => exact absurd (List.cons.inj closed).1 filled
  · rfl

theorem readValue_filledObject {fuel : Nat} {text tail : List Char} (first : skipSpace text = '"' :: tail) :
    readValue (fuel + 1) ('\x7b' :: text) =
      (readMembers fuel text).map fun (members, rest) => (.object members, rest) := by
  simp only [readValue, skipSpace_cons '\x7b' rfl, first, Char.reduceEq, if_false, if_true]
  rfl

structure ReadsDumped (fuel : Nat) : Prop where
  value : ∀ (value : Datum) (level : Nat) rest, EndsNumber rest →
    2 * (value.dump level ++ rest).length + 1 ≤ fuel →
    readValue fuel (value.dump level ++ rest) = some (value.toTree, rest)
  elements : ∀ (element : Datum) (others : List Datum) (level : Nat) rest,
    2 * (element.dump (level + 1) ++ dumpElements level others ++ rest).length + 2 ≤ fuel →
    readElements fuel (element.dump (level + 1) ++ dumpElements level others ++ rest) =
      some (element.toTree :: datumTrees others, rest)
  members : ∀ (name : String) (value : Datum) (others : List (String × Datum)) (level : Nat) rest,
    2 * (dumpString name ++ ':' :: ' ' :: value.dump (level + 1) ++ dumpMembers level others ++ rest).length + 2 ≤
      fuel →
    readMembers fuel (dumpString name ++ ':' :: ' ' :: value.dump (level + 1) ++ dumpMembers level others ++ rest) =
      some ((name, value.toTree) :: memberDatumTrees others, rest)

theorem readValue_dump {fuel : Nat} (dumped : ReadsDumped fuel) (value : Datum) (level : Nat) (rest : List Char)
    (ends : EndsNumber rest) (enough : 2 * (value.dump level ++ rest).length + 1 ≤ fuel + 1) :
    readValue (fuel + 1) (value.dump level ++ rest) = some (value.toTree, rest) := by
  cases value with
  | none => rfl
  | bool value => cases value <;> rfl
  | int value =>
    rw [Datum.dump, readValue_integer _ _ ends]
    rfl
  | str value => exact readValue_dumpString value rest
  | list elements =>
    cases elements with
    | nil => rfl
    | cons element others =>
      have text : (Datum.list (element :: others)).dump level ++ rest =
          '[' :: (lineBreak (level + 1) ++ (element.dump (level + 1) ++ dumpElements level others ++ rest)) := by
        simp [Datum.dump]
      rw [text, List.length_cons, List.length_append] at enough
      have found := dumped.elements element others level rest (by omega)
      obtain ⟨char, tail, same, visible, filled⟩ := dump_first element (level + 1)
      have first : skipSpace (lineBreak (level + 1) ++ (element.dump (level + 1) ++ dumpElements level others ++ rest)) =
          char :: (tail ++ dumpElements level others ++ rest) := by
        rw [skipSpace_lineBreak, same]
        exact skipSpace_cons char visible
      rw [text, readValue_filledArray first filled, readElements_lineBreak, found]
      rfl
  | dict members =>
    cases members with
    | nil => rfl
    | cons entry others =>
      obtain ⟨name, value⟩ := entry
      have text : (Datum.dict ((name, value) :: others)).dump level ++ rest =
          '\x7b' :: (lineBreak (level + 1) ++
            (dumpString name ++ ':' :: ' ' :: value.dump (level + 1) ++ dumpMembers level others ++ rest)) := by
        simp [Datum.dump]
      rw [text, List.length_cons, List.length_append] at enough
      have found := dumped.members name value others level rest (by omega)
      have first : ∃ tail, skipSpace (lineBreak (level + 1) ++
          (dumpString name ++ ':' :: ' ' :: value.dump (level + 1) ++ dumpMembers level others ++ rest)) =
            '"' :: tail := by
        rw [skipSpace_lineBreak]
        exact ⟨_, skipSpace_cons '"' rfl⟩
      obtain ⟨tail, first⟩ := first
      rw [text, readValue_filledObject first, readMembers_lineBreak, found]
      rfl

theorem readElements_dump {fuel : Nat} (dumped : ReadsDumped fuel) (element : Datum) (others : List Datum)
    (level : Nat) (rest : List Char)
    (enough : 2 * (element.dump (level + 1) ++ dumpElements level others ++ rest).length + 2 ≤ fuel + 1) :
    readElements (fuel + 1) (element.dump (level + 1) ++ dumpElements level others ++ rest) =
      some (element.toTree :: datumTrees others, rest) := by
  rw [List.append_assoc] at enough ⊢
  have first := dumped.value element (level + 1) (dumpElements level others ++ rest)
    (endsNumber_dumpElements level others rest) (by omega)
  simp only [readElements, first]
  cases others with
  | nil =>
    have closed : skipSpace (dumpElements level [] ++ rest) = ']' :: rest := by
      rw [dumpElements, List.append_assoc, skipSpace_lineBreak]
      exact skipSpace_cons ']' rfl
    simp only [closed, datumTrees]
  | cons next others =>
    have text : dumpElements level (next :: others) ++ rest =
        ',' :: (lineBreak (level + 1) ++ (next.dump (level + 1) ++ dumpElements level others ++ rest)) := by
      simp [dumpElements]
    rw [text] at enough ⊢
    simp only [List.length_append, List.length_cons] at enough
    have found := dumped.elements next others level rest (by
      simp only [List.length_append]
      omega)
    simp only [skipSpace_cons ',' rfl, readElements_lineBreak, found, Option.map_some, datumTrees]

theorem readMembers_dump {fuel : Nat} (dumped : ReadsDumped fuel) (name : String) (value : Datum)
    (others : List (String × Datum)) (level : Nat) (rest : List Char)
    (enough : 2 * (dumpString name ++ ':' :: ' ' :: value.dump (level + 1) ++ dumpMembers level others ++ rest).length +
      2 ≤ fuel + 1) :
    readMembers (fuel + 1)
        (dumpString name ++ ':' :: ' ' :: value.dump (level + 1) ++ dumpMembers level others ++ rest) =
      some ((name, value.toTree) :: memberDatumTrees others, rest) := by
  have text : dumpString name ++ ':' :: ' ' :: value.dump (level + 1) ++ dumpMembers level others ++ rest =
      '"' :: (name.toList.flatMap asciiEscape ++
        '"' :: ':' :: ' ' :: (value.dump (level + 1) ++ (dumpMembers level others ++ rest))) := by
    simp [dumpString]
  rw [text] at enough ⊢
  simp only [List.length_append, List.length_cons] at enough
  have first := dumped.value value (level + 1) (dumpMembers level others ++ rest)
    (endsNumber_dumpMembers level others rest) (by
      simp only [List.length_append]
      omega)
  simp only [readMembers, skipSpace_cons '"' rfl, readString_dumped, skipSpace_cons ':' rfl, readValue_blank, first,
    String.ofList_toList]
  cases others with
  | nil =>
    have closed : skipSpace (dumpMembers level [] ++ rest) = '\x7d' :: rest := by
      rw [dumpMembers, List.append_assoc, skipSpace_lineBreak]
      exact skipSpace_cons '\x7d' rfl
    simp only [closed, memberDatumTrees]
  | cons next others =>
    obtain ⟨nextName, nextValue⟩ := next
    have separated : dumpMembers level ((nextName, nextValue) :: others) ++ rest =
        ',' :: (lineBreak (level + 1) ++ (dumpString nextName ++ ':' :: ' ' :: nextValue.dump (level + 1) ++
          dumpMembers level others ++ rest)) := by
      simp [dumpMembers]
    have length := congrArg List.length separated
    rw [List.length_append, List.length_cons, List.length_append] at length
    have found := dumped.members nextName nextValue others level rest (by omega)
    rw [separated]
    simp only [skipSpace_cons ',' rfl, readMembers_lineBreak, found, Option.map_some, memberDatumTrees]

theorem readsDumped (fuel : Nat) : ReadsDumped fuel := by
  induction fuel with
  | zero =>
    constructor
    · intro value level rest _ enough
      omega
    · intro element others level rest enough
      omega
    · intro name value others level rest enough
      omega
  | succ fuel ih => exact ⟨readValue_dump ih, readElements_dump ih, readMembers_dump ih⟩

/-- A text followed by one line break is read as what was dumped. -/
theorem read_dump (value : Datum) (level : Nat) :
    read (encodeUtf8 (value.dump level ++ ['\n'])) = some value.toTree := by
  have ends : EndsNumber ['\n'] := by
    intro char first
    cases first
    decide
  rw [read, decodeUtf8_encodeUtf8, Option.bind_some]
  exact readText_complete ((readsDumped _).value value level ['\n'] ends (Nat.le_refl _)) rfl

def IsAscii (text : List Char) : Prop := ∀ char ∈ text, char.toNat < 0x80

theorem IsAscii.append {left right : List Char} (first : IsAscii left) (second : IsAscii right) :
    IsAscii (left ++ right) := by
  intro char member
  rcases List.mem_append.mp member with inLeft | inRight
  · exact first char inLeft
  · exact second char inRight

theorem IsAscii.cons {char : Char} {text : List Char} (low : char.toNat < 0x80) (rest : IsAscii text) :
    IsAscii (char :: text) := by
  intro other member
  rcases List.mem_cons.mp member with rfl | later
  · exact low
  · exact rest other later

theorem hexLetter_ascii : ∀ digit < 16, (hexLetter digit).toNat < 0x80 := by decide

theorem hexQuad_ascii {unit : Nat} (small : unit < 0x10000) : IsAscii (hexQuad unit) := by
  intro char member
  simp only [hexQuad, List.mem_cons, List.not_mem_nil, or_false] at member
  rcases member with rfl | rfl | rfl | rfl <;> exact hexLetter_ascii _ (by omega)

theorem asciiEscape_ascii (char : Char) : IsAscii (asciiEscape char) := by
  have bound := char_small char
  have form := asciiEscape_form char
  generalize asciiEscape char = text at form ⊢
  have escaped : ∀ {unit}, unit < 0x10000 → IsAscii ('\\' :: 'u' :: hexQuad unit) := fun small =>
    .cons (by decide) (.cons (by decide) (hexQuad_ascii small))
  cases form with
  | short _ low => exact .cons (by decide) (.cons low (by simp [IsAscii]))
  | plain _ _ _ low => exact .cons low (by simp [IsAscii])
  | unit small => exact escaped small
  | pair large => exact (escaped (by omega)).append (escaped (by omega))

theorem dumpString_ascii (value : String) : IsAscii (dumpString value) := by
  have inner : IsAscii (value.toList.flatMap asciiEscape) := by
    intro char member
    obtain ⟨source, _, found⟩ := List.mem_flatMap.mp member
    exact asciiEscape_ascii source char found
  exact .cons (by decide) (inner.append (.cons (by decide) (by simp [IsAscii])))

theorem lineBreak_ascii (level : Nat) : IsAscii (lineBreak level) := by
  apply IsAscii.cons (by decide)
  intro char blank
  rw [List.eq_of_mem_replicate blank]
  decide

theorem integerText_ascii (negative : Bool) (magnitude : Nat) : IsAscii (integerText negative magnitude) := by
  have digits : IsAscii (Nat.toDigits 10 magnitude) := by
    intro char member
    have digit := isDigit_toDigits char member
    simp only [isDigit, Bool.and_eq_true, decide_eq_true_eq, Char.le_def, UInt32.le_iff_toNat_le] at digit
    exact Nat.lt_of_le_of_lt digit.2 (by decide)
  cases negative with
  | true => exact .cons (by decide) digits
  | false => exact digits

mutual

theorem dump_ascii : ∀ (value : Datum) (level : Nat), IsAscii (value.dump level)
  | .none, _ => by simp [Datum.dump, IsAscii]
  | .bool true, _ => by simp [Datum.dump, IsAscii]
  | .bool false, _ => by simp [Datum.dump, IsAscii]
  | .int value, level => by
    rw [Datum.dump]
    exact integerText_ascii _ _
  | .str value, level => by
    rw [Datum.dump]
    exact dumpString_ascii value
  | .list [], _ => by simp [Datum.dump, IsAscii]
  | .list (element :: rest), level => by
    rw [Datum.dump]
    exact .append (.append (.cons (by decide) (lineBreak_ascii _)) (dump_ascii element _)) (dumpElements_ascii rest _)
  | .dict [], _ => by simp [Datum.dump, IsAscii]
  | .dict ((name, value) :: rest), level => by
    rw [Datum.dump]
    exact .append (.append (.append (.cons (by decide) (lineBreak_ascii _)) (dumpString_ascii name))
      (.cons (by decide) (.cons (by decide) (dump_ascii value _)))) (dumpMembers_ascii rest _)

theorem dumpElements_ascii : ∀ (elements : List Datum) (level : Nat), IsAscii (dumpElements level elements)
  | [], level => by
    rw [dumpElements]
    exact (lineBreak_ascii level).append (.cons (by decide) (by simp [IsAscii]))
  | element :: rest, level => by
    rw [dumpElements]
    exact .append (.append (.cons (by decide) (lineBreak_ascii _)) (dump_ascii element _)) (dumpElements_ascii rest _)

theorem dumpMembers_ascii :
    ∀ (members : List (String × Datum)) (level : Nat), IsAscii (dumpMembers level members)
  | [], level => by
    rw [dumpMembers]
    exact (lineBreak_ascii level).append (.cons (by decide) (by simp [IsAscii]))
  | (name, value) :: rest, level => by
    rw [dumpMembers]
    exact .append (.append (.append (.cons (by decide) (lineBreak_ascii _)) (dumpString_ascii name))
      (.cons (by decide) (.cons (by decide) (dump_ascii value _)))) (dumpMembers_ascii rest _)

end

theorem encodeUtf8_ascii {text : List Char} (ascii : IsAscii text) : ∀ byte ∈ encodeUtf8 text, byte < 0x80 := by
  intro byte member
  obtain ⟨char, inText, found⟩ := List.mem_flatMap.mp member
  have low := ascii char inText
  have one : String.utf8EncodeChar char = [.ofNat char.toNat] := by
    simp only [String.utf8EncodeChar, Char.toNat_val]
    rw [if_pos (by omega)]
  rw [one, List.mem_singleton] at found
  have code : byte.toNat = char.toNat := by
    rw [found]
    exact UInt8.toNat_ofNat_of_lt (by simp only [UInt8.size]; omega)
  exact UInt8.lt_iff_toNat_lt.mpr (by simpa [code] using low)

mutual

theorem toTree_injective : ∀ left right : Datum, left.toTree = right.toTree → left = right
  | .none, right, same => by cases right <;> simp_all [Datum.toTree]
  | .bool _, right, same => by cases right <;> simp_all [Datum.toTree]
  | .int left, right, same => by
    cases right with
    | int right =>
      simp only [Datum.toTree, Tree.number.injEq, NumberToken.mk.injEq, decide_eq_decide, and_true] at same
      rw [Datum.int.injEq]
      omega
    | none | bool _ | str _ | list _ | dict _ => simp [Datum.toTree] at same
  | .str _, right, same => by cases right <;> simp_all [Datum.toTree]
  | .list left, right, same => by
    cases right with
    | list right =>
      rw [Datum.toTree, Datum.toTree, Tree.array.injEq] at same
      rw [datumTrees_injective left right same]
    | none | bool _ | int _ | str _ | dict _ => simp [Datum.toTree] at same
  | .dict left, right, same => by
    cases right with
    | dict right =>
      rw [Datum.toTree, Datum.toTree, Tree.object.injEq] at same
      rw [memberDatumTrees_injective left right same]
    | none | bool _ | int _ | str _ | list _ => simp [Datum.toTree] at same

theorem datumTrees_injective : ∀ left right : List Datum, datumTrees left = datumTrees right → left = right
  | [], right, same => by cases right <;> simp_all [datumTrees]
  | element :: rest, right, same => by
    cases right with
    | nil => simp [datumTrees] at same
    | cons other others =>
      rw [datumTrees, datumTrees, List.cons.injEq] at same
      rw [toTree_injective element other same.1, datumTrees_injective rest others same.2]

theorem memberDatumTrees_injective :
    ∀ left right : List (String × Datum), memberDatumTrees left = memberDatumTrees right → left = right
  | [], right, same => by cases right <;> simp_all [memberDatumTrees]
  | (name, value) :: rest, right, same => by
    cases right with
    | nil => simp [memberDatumTrees] at same
    | cons other others =>
      rw [memberDatumTrees, memberDatumTrees, List.cons.injEq, Prod.mk.injEq] at same
      rw [toTree_injective value other.2 same.1.2, memberDatumTrees_injective rest others same.2, same.1.1]

end

theorem dump_injective {left right : Datum} {level : Nat}
    (same : encodeUtf8 (left.dump level ++ ['\n']) = encodeUtf8 (right.dump level ++ ['\n'])) : left = right := by
  apply toTree_injective
  rw [← Option.some.injEq, ← read_dump left level, ← read_dump right level, same]

end Json

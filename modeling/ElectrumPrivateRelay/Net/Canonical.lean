import ElectrumPrivateRelay.Net.Reading
import Mathlib.Data.List.Basic
import Mathlib.Data.List.Induction

/-! Canonical text is read back as the address it was written for.

A dotted quad has no other text. An IPv6 address may have many, of which the
writer chooses one.
-/

set_option autoImplicit false

namespace Net

/-- The digits that a text of digits stands for. -/
def Spells (radix : Nat) (body : List Char) (digits : List Nat) : Prop :=
  body.map (toDigit radix) = digits.map some

def numeral (radix : Nat) (digits : List Nat) : Nat :=
  digits.foldl (fun value digit => value * radix + digit) 0

theorem numeral_concat (radix : Nat) (digits : List Nat) (digit : Nat) :
    numeral radix (digits ++ [digit]) = numeral radix digits * radix + digit := by
  simp [numeral]

theorem Spells.length {radix : Nat} {body : List Char} {digits : List Nat}
    (spells : Spells radix body digits) : body.length = digits.length := by
  simpa using congrArg List.length spells

theorem Spells.digit {radix : Nat} {body : List Char} {digits : List Nat}
    (spells : Spells radix body digits) {char : Char} (member : char ∈ body) :
    ∃ digit, toDigit radix char = some digit := by
  have mapped : toDigit radix char ∈ digits.map some := spells ▸ List.mem_map_of_mem member
  obtain ⟨digit, -, same⟩ := List.mem_map.mp mapped
  exact ⟨digit, same.symm⟩

theorem readDigits_of_spells {radix : Nat} {body tail : List Char} {digits : List Nat}
    (spells : Spells radix body digits) (stops : ∀ char, tail.head? = some char → toDigit radix char = none) :
    readDigits radix (body ++ tail) = (digits, tail) := by
  induction body generalizing digits with
  | nil =>
    have none : digits = [] := by simpa [Spells] using spells.symm
    rw [none, readDigits_append stops]
    rfl
  | cons char body ih =>
    cases digits with
    | nil => cases spells
    | cons digit digits =>
      obtain ⟨first, later⟩ := List.cons.inj spells
      simp only [List.cons_append, readDigits, first, ih later]

theorem readDigits_spells (radix : Nat) (text : List Char) :
    ∃ body, text = body ++ (readDigits radix text).2 ∧ Spells radix body (readDigits radix text).1 := by
  induction text with
  | nil => exact ⟨[], rfl, rfl⟩
  | cons char rest ih =>
    unfold readDigits
    cases value : toDigit radix char with
    | none => exact ⟨[], rfl, rfl⟩
    | some digit =>
      obtain ⟨body, split, spells⟩ := ih
      refine ⟨char :: body, congrArg (char :: ·) split, ?_⟩
      simp only [Spells, List.map_cons, value] at spells ⊢
      rw [spells]

theorem readNumber_of_spells {radix bound : Nat} {limit : Option Nat} {zeros : Bool} {body tail : List Char}
    {digits : List Nat} (spells : Spells radix body digits) (some : digits ≠ [])
    (room : limit.any (· < digits.length) = false)
    (lead : zeros = true ∨ digits.head? ≠ .some 0 ∨ digits.length = 1)
    (within : numeral radix digits ≤ bound)
    (stops : ∀ char, tail.head? = .some char → toDigit radix char = none) :
    readNumber radix limit zeros bound (body ++ tail) = .some (numeral radix digits, tail) := by
  have plain : (!zeros && digits.head? = .some 0 && 1 < digits.length) = false := by
    rcases lead with allowed | nonzero | single
    · simp [allowed]
    · simp [nonzero]
    · simp [single]
  simp only [readNumber, readDigits_of_spells spells stops, some, room, plain, Bool.false_eq_true, if_false]
  exact if_pos within

theorem readNumber_eq_some {radix bound value : Nat} {limit : Option Nat} {zeros : Bool}
    {text rest : List Char} (found : readNumber radix limit zeros bound text = some (value, rest)) :
    ∃ body digits, text = body ++ rest ∧ Spells radix body digits ∧ digits ≠ [] ∧
      limit.any (· < digits.length) = false ∧
      (zeros = true ∨ digits.head? ≠ some 0 ∨ digits.length = 1) ∧
      numeral radix digits = value ∧ value ≤ bound := by
  obtain ⟨body, split, spells⟩ := readDigits_spells radix text
  unfold readNumber at found
  simp only at found
  split at found
  · cases found
  · next nonempty =>
    split at found
    · cases found
    · next room =>
      split at found
      · cases found
      · next lead =>
        split at found
        · next within =>
          cases found
          refine ⟨body, _, split, spells, nonempty, Bool.eq_false_iff.mpr room, ?_, rfl, within⟩
          simp only [Bool.and_eq_true, Bool.not_eq_true', decide_eq_true_eq, not_and_or] at lead
          rcases lead with (allowed | nonzero) | short
          · exact .inl (by simpa using allowed)
          · exact .inr (.inl nonzero)
          · have positive := List.length_pos_iff.mpr nonempty
            exact .inr (.inr (by omega))
        · cases found

theorem toDigit_digitChar {radix digit : Nat} (small : radix ≤ 16) (inside : digit < radix) :
    toDigit radix digit.digitChar = some digit := by
  have code : digit.digitChar.toNat = if digit < 10 then 48 + digit else 87 + digit := by
    have cases : digit < 16 := by omega
    revert cases
    revert digit
    decide +revert
  rw [toDigit_eq, code]
  grind

theorem spells_toDigits {radix : Nat} (large : 1 < radix) (small : radix ≤ 16) (value : Nat) :
    ∃ digits, Spells radix (Nat.toDigits radix value) digits ∧ numeral radix digits = value ∧
      (0 < value → digits.head? ≠ some 0) := by
  induction value using Nat.strongRecOn with
  | ind value ih =>
    rw [Nat.toDigits_eq_if large]
    split
    · next single =>
      refine ⟨[value], ?_, ?_, ?_⟩
      · simp [Spells, toDigit_digitChar small single]
      · simp [numeral]
      · intro positive zero
        simp only [List.head?_cons, Option.some.injEq] at zero
        omega
    · next more =>
      have fewer : value / radix < value := Nat.div_lt_self (by omega) large
      have lead : 0 < value / radix := Nat.div_pos (by omega) (by omega)
      obtain ⟨digits, spells, same, nonzero⟩ := ih _ fewer
      have last : value % radix < radix := Nat.mod_lt _ (by omega)
      refine ⟨digits ++ [value % radix], ?_, ?_, ?_⟩
      · simp only [Spells] at spells
        simp [Spells, spells, toDigit_digitChar small last]
      · rw [numeral_concat, same, Nat.div_add_mod']
      · intro _
        have some : digits ≠ [] := by
          rintro rfl
          rw [← same] at lead
          exact absurd lead (Nat.lt_irrefl 0)
        rw [List.head?_append_of_ne_nil _ some]
        exact nonzero lead

theorem readNumber_toDigits {radix bound value : Nat} {limit : Option Nat} {tail : List Char} (zeros : Bool)
    (large : 1 < radix) (small : radix ≤ 16)
    (room : limit.any (· < (Nat.toDigits radix value).length) = false) (within : value ≤ bound)
    (stops : ∀ char, tail.head? = some char → toDigit radix char = none) :
    readNumber radix limit zeros bound (Nat.toDigits radix value ++ tail) = some (value, tail) := by
  obtain ⟨digits, spells, same, nonzero⟩ := spells_toDigits large small value
  have length := spells.length
  have lead : digits.head? ≠ some 0 ∨ digits.length = 1 := by
    rcases Nat.eq_zero_or_pos value with rfl | positive
    · rw [Nat.toDigits_zero] at length
      exact .inr length.symm
    · exact .inl (nonzero positive)
  have some : digits ≠ [] := by
    rintro rfl
    exact Nat.toDigits_ne_nil (List.length_eq_zero_iff.mp length)
  rw [length] at room
  rw [readNumber_of_spells spells some room (.inr lead) (same ▸ within) stops, same]

theorem digitChar_of_toDigit {char : Char} {digit : Nat} (found : toDigit 10 char = some digit) :
    digit < 10 ∧ digit.digitChar = char := by
  rw [toDigit_eq] at found
  have code : char.toNat = 48 + digit ∧ digit < 10 := by grind
  refine ⟨code.2, Char.toNat_inj.mp ?_⟩
  rw [Nat.toNat_digitChar_of_lt_ten code.2, code.1]

/-- Digits without a leading zero are the text of their value. -/
theorem toDigits_numeral {body : List Char} {digits : List Nat} (spells : Spells 10 body digits)
    (nonempty : digits ≠ []) (lead : digits.head? ≠ some 0 ∨ digits.length = 1) :
    Nat.toDigits 10 (numeral 10 digits) = body := by
  induction digits using List.reverseRecOn generalizing body with
  | nil => exact absurd rfl nonempty
  | append_singleton digits digit ih =>
    simp only [Spells, List.map_append, List.map_cons, List.map_nil] at spells
    obtain ⟨front, back, rfl, before, after⟩ := List.map_eq_append_iff.mp spells
    obtain ⟨char, rfl, found⟩ := List.map_eq_singleton_iff.mp after
    obtain ⟨small, same⟩ := digitChar_of_toDigit found
    rw [numeral_concat]
    cases digits with
    | nil =>
      have none : front = [] := by simpa using before
      rw [none, numeral, List.foldl_nil, Nat.zero_mul, Nat.zero_add, Nat.toDigits_of_lt_base small, same]
      rfl
    | cons first digits =>
      have nonzero : first ≠ 0 := by simpa using lead
      have text := ih before (List.cons_ne_nil first digits) (.inl (by simpa using nonzero))
      -- a value of zero has the text `0` only
      have positive : 0 < numeral 10 (first :: digits) := by
        rcases Nat.eq_zero_or_pos (numeral 10 (first :: digits)) with zero | positive
        · rw [zero, Nat.toDigits_zero] at text
          rw [← text, List.map_cons, List.map_cons] at before
          have digit : some 0 = some first := (List.cons.inj before).1
          exact absurd (Option.some.inj digit).symm nonzero
        · exact positive
      rw [Nat.mul_comm, ← Nat.toDigits_append_toDigits (by decide) positive small, text,
        Nat.toDigits_of_lt_base small, same]

theorem readOctet_toDigits (octet : UInt8) {tail : List Char}
    (stops : ∀ char, tail.head? = some char → toDigit 10 char = none) :
    readOctet (Nat.toDigits 10 octet.toNat ++ tail) = some (octet, tail) := by
  have bound := octet.toNat_lt
  have short : (Nat.toDigits 10 octet.toNat).length ≤ 3 :=
    (Nat.length_toDigits_le_iff (by decide) (by decide)).mpr (by omega)
  have room : (some 3).any (· < (Nat.toDigits 10 octet.toNat).length) = false := by simpa using short
  rw [readOctet, readNumber_toDigits false (by decide) (by decide) room (by omega) stops]
  simp

theorem readOctet_canonical {text rest : List Char} {octet : UInt8}
    (found : readOctet text = some (octet, rest)) : text = Nat.toDigits 10 octet.toNat ++ rest := by
  obtain ⟨⟨value, _⟩, inner, same⟩ := Option.map_eq_some_iff.mp found
  cases same
  obtain ⟨body, digits, split, spells, nonempty, -, lead, same, bound⟩ := readNumber_eq_some inner
  have text := toDigits_numeral spells nonempty (by simpa using lead)
  have small : (UInt8.ofNat value).toNat = value := by
    rw [UInt8.toNat_ofNat']
    exact Nat.mod_eq_of_lt (by omega)
  rw [split, small, ← same, text]

theorem Ipv4Addr.toText_eq (address : Ipv4Addr) :
    address.toText = Nat.toDigits 10 address.a.toNat ++ '.' :: (Nat.toDigits 10 address.b.toNat ++
      '.' :: (Nat.toDigits 10 address.c.toNat ++ '.' :: Nat.toDigits 10 address.d.toNat)) := by
  simp [Ipv4Addr.toText, List.intercalate, List.intersperse]

theorem readIpv4_toText (address : Ipv4Addr) {tail : List Char}
    (stops : ∀ char, tail.head? = some char → toDigit 10 char = none) :
    readIpv4 (address.toText ++ tail) = some (address, tail) := by
  have dotted (rest : List Char) : ∀ char, ('.' :: rest).head? = some char → toDigit 10 char = none := by
    rintro char ⟨⟩
    exact toDigit_dot 10
  simp only [Ipv4Addr.toText_eq, List.append_assoc, List.cons_append, readIpv4,
    readOctet_toDigits _ (dotted _), Option.bind_eq_bind, Option.bind_some, readGiven, if_true,
    readOctet_toDigits _ stops, Option.pure_def]

theorem readIpv4_whole (address : Ipv4Addr) : readIpv4 address.toText = some (address, []) := by
  have whole : readIpv4 (address.toText ++ []) = some (address, []) := readIpv4_toText address nofun
  rwa [List.append_nil] at whole

theorem readIpv4_canonical {text rest : List Char} {address : Ipv4Addr}
    (found : readIpv4 text = some (address, rest)) : text = address.toText ++ rest := by
  obtain ⟨a, b, c, d, textB, textC, textD, first, second, third, fourth, rfl⟩ := readIpv4_eq_some found
  rw [Ipv4Addr.toText_eq, readOctet_canonical first, readOctet_canonical second, readOctet_canonical third,
    readOctet_canonical fourth]
  simp

def separated : Nat → List UInt16 → List Char
  | _, [] => []
  | index, group :: groups =>
    (if index = 0 then [] else [':']) ++ Nat.toDigits 16 group.toNat ++ separated (index + 1) groups

theorem separated_succ (index : Nat) (groups : List UInt16) : separated (index + 1) groups = separated 1 groups := by
  induction groups generalizing index with
  | nil => rfl
  | cons group groups ih =>
    simp only [separated, Nat.succ_ne_zero, if_false]
    rw [ih (index + 1), ih 1]

theorem groupsText_eq (groups : List UInt16) : groupsText groups = separated 0 groups := by
  induction groups with
  | nil => rfl
  | cons group groups ih =>
    cases groups with
    | nil => simp [groupsText, separated, List.intercalate]
    | cons next groups =>
      have step : groupsText (group :: next :: groups) =
          Nat.toDigits 16 group.toNat ++ [':'] ++ groupsText (next :: groups) := List.intercalate_cons_cons
      rw [step, ih]
      simp [separated, separated_succ 1]

theorem separated_head {index : Nat} (later : index ≠ 0) (groups : List UInt16) :
    separated index groups = [] ∨ (separated index groups).head? = some ':' := by
  cases groups with
  | nil => exact .inl rfl
  | cons group groups => exact .inr (by simp [separated, later])

theorem readIpv4_group {body tail : List Char} {digits : List Nat} (spells : Spells 16 body digits)
    (stops : ∀ char, tail.head? = some char → toDigit 16 char = none ∧ char ≠ '.') :
    readIpv4 (body ++ tail) = none := by
  have transparent : QuadTransparent (· ++ tail) := append_quadTransparent fun char first =>
    ⟨toDigit_ten_of_sixteen (stops char first).1, (stops char first).2⟩
  have none : readIpv4 body = none := by
    cases found : readIpv4 body with
    | none => rfl
    | some quad =>
      have dotted : '.' ∈ body := by
        rw [readIpv4_canonical found, Ipv4Addr.toText_eq]
        simp
      obtain ⟨digit, value⟩ := spells.digit dotted
      rw [toDigit_dot] at value
      cases value
  rw [readIpv4_change transparent, none]
  rfl

theorem readGroups_separated {index limit : Nat} {groups : List UInt16} {tail : List Char}
    (room : groups.length ≤ limit)
    (stops : ∀ char, tail.head? = some char → toDigit 16 char = none ∧ char ≠ '.')
    (ends : readGroups (index + groups.length) (limit - groups.length) tail = ([], false, tail)) :
    readGroups index limit (separated index groups ++ tail) = (groups, false, tail) := by
  induction groups generalizing index limit with
  | nil => simpa [separated] using ends
  | cons group groups ih =>
    cases limit with
    | zero => cases room
    | succ limit =>
      have later : readGroups (index + 1) limit (separated (index + 1) groups ++ tail) = (groups, false, tail) := by
        apply ih
        · simpa using room
        · have shift : index + 1 + groups.length = index + (groups.length + 1) := by omega
          rw [List.length_cons, Nat.add_sub_add_right] at ends
          rwa [shift]
      -- what follows the digits of this group
      generalize following : separated (index + 1) groups ++ tail = rest at later
      have boundary : ∀ char, rest.head? = some char → toDigit 16 char = none ∧ char ≠ '.' := by
        intro char first
        rcases separated_head (Nat.succ_ne_zero index) groups with empty | colon
        · rw [← following, empty] at first
          exact stops char first
        · rw [← following, List.head?_append, colon] at first
          cases first
          exact ⟨rfl, by decide⟩
      have split : separated index (group :: groups) ++ tail =
          (if index = 0 then [] else [':']) ++ (Nat.toDigits 16 group.toNat ++ rest) := by
        simp only [separated, ← following, List.append_assoc]
      have separator : readSeparator ':' index (separated index (group :: groups) ++ tail) =
          some (Nat.toDigits 16 group.toNat ++ rest) := by
        rw [split, readSeparator]
        split
        · rfl
        · rfl
      obtain ⟨digits, spells, -, -⟩ := spells_toDigits (by decide : 1 < 16) (by decide) group.toNat
      have bound := group.toNat_lt
      have short : (Nat.toDigits 16 group.toNat).length ≤ 4 :=
        (Nat.length_toDigits_le_iff (by decide) (by decide)).mpr (by omega)
      have number : readNumber 16 (some 4) true 0xFFFF (Nat.toDigits 16 group.toNat ++ rest) =
          some (group.toNat, rest) :=
        readNumber_toDigits true (by decide) (by decide) (by simpa using short) (by omega)
          fun char first => (boundary char first).1
      simp only [readGroups, separator, Option.bind_some, readIpv4_group spells boundary, ite_self, number,
        later, UInt16.ofNat_toNat]

theorem readIpv4_colon (rest : List Char) : readIpv4 (':' :: rest) = none := rfl

theorem readNumber_colon (limit : Option Nat) (zeros : Bool) (bound : Nat) (rest : List Char) :
    readNumber 16 limit zeros bound (':' :: rest) = none := rfl

theorem readGroups_colons (index limit : Nat) (rest : List Char) :
    readGroups index limit (':' :: ':' :: rest) = ([], false, ':' :: ':' :: rest) := by
  cases limit with
  | zero => rfl
  | succ limit =>
    have separator : readSeparator ':' index (':' :: ':' :: rest) = some (':' :: ':' :: rest) ∨
        readSeparator ':' index (':' :: ':' :: rest) = some (':' :: rest) := by
      unfold readSeparator
      split
      · exact .inl rfl
      · exact .inr rfl
    rcases separator with same | next
    · simp only [readGroups, same, Option.bind_some, readIpv4_colon, ite_self, readNumber_colon]
    · simp only [readGroups, next, Option.bind_some, readIpv4_colon, ite_self, readNumber_colon]

theorem readGroups_nil (index limit : Nat) : readGroups index limit [] = ([], false, []) := by
  cases limit with
  | zero => rfl
  | succ limit =>
    cases index with
    | zero => simp [readGroups, readSeparator, readIpv4, readOctet, readNumber, readDigits]
    | succ index => simp [readGroups, readSeparator, readGiven]

/-! ## IPv6 addresses -/

/-- Zero segments of the given start and length. -/
def ZeroRun (segments : List UInt16) (run : Nat × Nat) : Prop :=
  ∃ front back, segments = front ++ List.replicate run.2 0 ++ back ∧ front.length = run.1

theorem longestZeros_run {before rest : List UInt16} {current best : Nat × Nat}
    (running : current.2 = 0 ∨ ∃ front, before = front ++ List.replicate current.2 0 ∧ front.length = current.1)
    (found : ZeroRun (before ++ rest) best) :
    ZeroRun (before ++ rest) (longestZeros before.length current best rest) := by
  induction rest generalizing before current best with
  | nil => exact found
  | cons segment rest ih =>
    have shift : before ++ segment :: rest = (before ++ [segment]) ++ rest := by simp
    have length : before.length + 1 = (before ++ [segment]).length := by simp
    rw [shift] at found ⊢
    unfold longestZeros
    split
    · next zero =>
      subst zero
      simp only [length]
      -- the run goes on, from here if there was none
      have extended : ∃ front, before ++ [0] = front ++ List.replicate (current.2 + 1) 0 ∧
          front.length = if current.2 = 0 then before.length else current.1 := by
        rcases running with none | ⟨front, same, start⟩
        · exact ⟨before, by rw [none]; rfl, by rw [if_pos none]⟩
        · by_cases none : current.2 = 0
          · exact ⟨before, by rw [none]; rfl, by rw [if_pos none]⟩
          · refine ⟨front, ?_, by rw [if_neg none, start]⟩
            rw [List.replicate_succ', ← List.append_assoc, ← same]
      apply ih (.inr extended)
      split
      · obtain ⟨front, same, start⟩ := extended
        exact ⟨front, rest, by rw [same], start⟩
      · exact found
    · rw [length]
      exact ih (.inl rfl) found

theorem longestZeros_zeros (segments : List UInt16) :
    ZeroRun segments (longestZeros 0 (0, 0) (0, 0) segments) := by
  have found : ZeroRun ([] ++ segments) (0, 0) := ⟨[], segments, rfl, rfl⟩
  exact longestZeros_run (.inl rfl) found

theorem toUInt16_halves (value : UInt16) :
    (value / 256).toUInt8.toUInt16 * 256 + value.toUInt8.toUInt16 = value := by
  apply UInt16.toNat_inj.mp
  have bound := value.toNat_lt
  simp
  omega

theorem readIpv6_colons {text rest left : List Char} {head tail segments : List UInt16} {quad : Bool}
    (front : readGroups 0 8 text = (head, false, ':' :: ':' :: rest))
    (back : readGroups 0 (7 - head.length) rest = (tail, quad, left))
    (short : head.length ≠ 8)
    (filled : head ++ List.replicate (8 - head.length - tail.length) 0 ++ tail = segments)
    (complete : segments.length = 8) : readIpv6 text = some (⟨segments, complete⟩, left) := by
  simp only [readIpv6, front, short, if_false, Bool.false_eq_true, readGiven, if_true, Option.bind_some,
    Option.bind_eq_bind, back, filled, Ipv6Addr.ofSegments, complete, dite_true]
  rfl

theorem readIpv6_mapped (high low : UInt16) (quad : Ipv4Addr) (same : quad.groups = [high, low]) :
    readIpv6 ("::ffff:".toList ++ quad.toText) = some (⟨[0, 0, 0, 0, 0, 0xFFFF, high, low], rfl⟩, []) := by
  have read := readIpv4_whole quad
  have front : readGroups 0 8 ("::ffff:".toList ++ quad.toText) =
      ([], false, ':' :: ':' :: ("ffff:".toList ++ quad.toText)) := readGroups_colons 0 8 _
  have embedded : readGroups 1 6 (':' :: quad.toText) = ([high, low], true, []) := by
    simp [readGroups, readSeparator, readGiven, read, same]
  have back : readGroups 0 7 ("ffff:".toList ++ quad.toText) = ([0xFFFF, high, low], true, []) := by
    have number : readNumber 16 (some 4) true 0xFFFF ("ffff:".toList ++ quad.toText) =
        some (0xFFFF, ':' :: quad.toText) := rfl
    have none : readIpv4 ("ffff:".toList ++ quad.toText) = none := rfl
    rw [readGroups]
    simp only [readSeparator, if_true, Option.bind_some, none, ite_self, number, embedded]
    rfl
  exact readIpv6_colons front back (by decide) rfl rfl

theorem readIpv6_plain {segments : List UInt16} (complete : segments.length = 8) :
    readIpv6 (groupsText segments) = some (⟨segments, complete⟩, []) := by
  have read : readGroups 0 8 (separated 0 segments ++ []) = (segments, false, []) :=
    readGroups_separated (Nat.le_of_eq complete) nofun (readGroups_nil _ _)
  rw [List.append_nil] at read
  simp only [readIpv6, groupsText_eq, read, complete, if_true, Ipv6Addr.ofSegments, dite_true]
  rfl

theorem readIpv6_compressed {front back : List UInt16} {zeros : Nat} (some : 0 < zeros)
    (complete : (front ++ List.replicate zeros 0 ++ back).length = 8) :
    readIpv6 (groupsText front ++ "::".toList ++ groupsText back) =
      .some (⟨front ++ List.replicate zeros 0 ++ back, complete⟩, []) := by
  have sizes : front.length + (zeros + back.length) = 8 := by simpa using complete
  have text : groupsText front ++ "::".toList ++ groupsText back =
      separated 0 front ++ ':' :: ':' :: separated 0 back := by
    rw [groupsText_eq, groupsText_eq, List.append_assoc]
    rfl
  have head : readGroups 0 8 (separated 0 front ++ ':' :: ':' :: separated 0 back) =
      (front, false, ':' :: ':' :: separated 0 back) := by
    apply readGroups_separated
    · omega
    · rintro char ⟨⟩
      exact ⟨rfl, by decide⟩
    · exact readGroups_colons _ _ _
  have tail : readGroups 0 (7 - front.length) (separated 0 back ++ []) = (back, false, []) :=
    readGroups_separated (by omega) nofun (readGroups_nil _ _)
  rw [List.append_nil] at tail
  have fill : 8 - front.length - back.length = zeros := by omega
  rw [text]
  exact readIpv6_colons head tail (by omega) (by rw [fill]) complete

theorem readIpv6_toText (address : Ipv6Addr) : readIpv6 address.toText = some (address, []) := by
  obtain ⟨segments, complete⟩ := address
  unfold Ipv6Addr.toText
  split
  · next high low same =>
    simp only at same
    subst same
    apply readIpv6_mapped
    simp only [Ipv4Addr.groups, toUInt16_halves]
  · obtain ⟨front, back, same, start⟩ := longestZeros_zeros segments
    simp only
    split
    · next long =>
      generalize longestZeros 0 (0, 0) (0, 0) segments = run at *
      subst same
      have before : (front ++ List.replicate run.2 0 ++ back).take run.1 = front := by
        rw [List.append_assoc, ← start, List.take_left]
      have after : (front ++ List.replicate run.2 0 ++ back).drop (run.1 + run.2) = back := by
        have length : run.1 + run.2 = (front ++ List.replicate run.2 0).length := by simp [start]
        rw [length, List.drop_left]
      rw [before, after]
      exact readIpv6_compressed (by omega) complete
    · exact readIpv6_plain complete

theorem readIpv4_of_readIpv6 {text : List Char} {found : Ipv6Addr × List Char}
    (read : readIpv6 text = some found) : readIpv4 text = none := by
  cases quad : readIpv4 text with
  | none => rfl
  | some front =>
    have groups : readGroups 0 8 text = (front.1.groups, true, front.2) := by
      simp [readGroups, readSeparator, quad]
    have two : front.1.groups.length ≠ 8 := by simp [Ipv4Addr.groups]
    simp [readIpv6, groups, two] at read

theorem IpAddr.parse_eq_some {text : String} {ip : IpAddr} :
    IpAddr.parse text = some ip ↔ readIpAddr text.toList = some (ip, []) := by
  unfold IpAddr.parse
  split
  · next address read => simp [read]
  · next other =>
    constructor
    · nofun
    · intro read
      exact absurd read (other ip)

theorem IpAddr.parse_v4_iff {text : String} {address : Ipv4Addr} :
    IpAddr.parse text = some (.v4 address) ↔ readIpv4 text.toList = some (address, []) := by
  rw [IpAddr.parse_eq_some, readIpAddr]
  cases readIpv4 text.toList with
  | none => simp
  | some found => simp [Prod.ext_iff]

theorem IpAddr.parse_v6_iff {text : String} {address : Ipv6Addr} :
    IpAddr.parse text = some (.v6 address) ↔ readIpv6 text.toList = some (address, []) := by
  rw [IpAddr.parse_eq_some, readIpAddr]
  cases groups : readIpv6 text.toList with
  | none =>
    cases readIpv4 text.toList with
    | none => simp
    | some found => simp
  | some found => simp [readIpv4_of_readIpv6 groups, Prod.ext_iff]

/-- `IpAddr::to_string` followed by `parse` is the identity. -/
theorem IpAddr.parse_toText (ip : IpAddr) : IpAddr.parse ip.toText = some ip := by
  cases ip with
  | v4 address =>
    rw [IpAddr.parse_v4_iff, IpAddr.toText, String.toList_ofList]
    exact readIpv4_whole address
  | v6 address =>
    rw [IpAddr.parse_v6_iff, IpAddr.toText, String.toList_ofList]
    exact readIpv6_toText address

/-- A dotted quad has no text but the canonical one. -/
theorem IpAddr.toText_of_parse_v4 {text : String} {address : Ipv4Addr}
    (parsed : IpAddr.parse text = some (.v4 address)) : (IpAddr.v4 address).toText = text := by
  have canonical := readIpv4_canonical (IpAddr.parse_v4_iff.mp parsed)
  rw [List.append_nil] at canonical
  rw [IpAddr.toText, ← canonical, String.ofList_toList]

/-! ## Characters -/

def isAddressChar (char : Char) : Bool := (toDigit 16 char).isSome || char = '.' || char = ':'

def Addressed (text rest : List Char) : Prop :=
  ∃ front, text = front ++ rest ∧ ∀ char ∈ front, isAddressChar char = true

theorem Addressed.refl (text : List Char) : Addressed text text := ⟨[], rfl, nofun⟩

theorem Addressed.trans {text middle rest : List Char} (first : Addressed text middle)
    (second : Addressed middle rest) : Addressed text rest := by
  obtain ⟨front, rfl, clean⟩ := first
  obtain ⟨back, rfl, last⟩ := second
  refine ⟨front ++ back, (List.append_assoc front back rest).symm, ?_⟩
  intro char member
  rcases List.mem_append.mp member with early | late
  · exact clean char early
  · exact last char late

theorem isAddressChar_of_digit {radix digit : Nat} {char : Char} (small : radix = 10 ∨ radix = 16)
    (found : toDigit radix char = some digit) : isAddressChar char = true := by
  have hexadecimal : (toDigit 16 char).isSome := by
    rcases small with rfl | rfl
    · cases none : toDigit 16 char with
      | some digit => rfl
      | none =>
        rw [toDigit_ten_of_sixteen none] at found
        cases found
    · rw [found]
      rfl
  simp [isAddressChar, hexadecimal]

theorem readNumber_addressed {radix bound value : Nat} {limit : Option Nat} {zeros : Bool}
    {text rest : List Char} (small : radix = 10 ∨ radix = 16)
    (found : readNumber radix limit zeros bound text = some (value, rest)) : Addressed text rest := by
  obtain ⟨body, digits, split, spells, -⟩ := readNumber_eq_some found
  refine ⟨body, split, ?_⟩
  intro char member
  obtain ⟨digit, value⟩ := spells.digit member
  exact isAddressChar_of_digit small value

theorem readGiven_addressed {mark : Char} {text rest : List Char} (marks : isAddressChar mark = true)
    (found : readGiven mark text = some rest) : Addressed text rest := by
  refine ⟨[mark], readGiven_eq_some found, ?_⟩
  simpa using marks

theorem readOctet_addressed {text rest : List Char} {octet : UInt8}
    (found : readOctet text = some (octet, rest)) : Addressed text rest := by
  obtain ⟨⟨value, _⟩, inner, same⟩ := Option.map_eq_some_iff.mp found
  cases same
  exact readNumber_addressed (.inl rfl) inner

theorem readIpv4_addressed {text rest : List Char} {address : Ipv4Addr}
    (found : readIpv4 text = some (address, rest)) : Addressed text rest := by
  obtain ⟨a, b, c, d, textB, textC, textD, first, second, third, fourth, -⟩ := readIpv4_eq_some found
  have dot (after : List Char) : Addressed ('.' :: after) after := ⟨['.'], rfl, List.all_eq_true.mp rfl⟩
  have one := (readOctet_addressed first).trans (dot textB)
  have two := (readOctet_addressed second).trans (dot textC)
  have three := (readOctet_addressed third).trans (dot textD)
  exact ((one.trans two).trans three).trans (readOctet_addressed fourth)

theorem readSeparator_addressed {index : Nat} {text rest : List Char}
    (found : readSeparator ':' index text = some rest) : Addressed text rest := by
  unfold readSeparator at found
  split at found
  · cases found
    exact .refl text
  · exact readGiven_addressed rfl found

theorem addressed_tracks : Tracks Addressed where
  refl := .refl
  trans := .trans
  quad separated quad := (readSeparator_addressed separated).trans (readIpv4_addressed quad)
  group separated number := (readSeparator_addressed separated).trans (readNumber_addressed (.inr rfl) number)
  colons _ := ⟨[':', ':'], rfl, List.all_eq_true.mp rfl⟩

theorem readGroups_without_colon {limit : Nat} {text : List Char} (clear : ':' ∉ text) :
    (readGroups 0 limit text).1.length ≤ 2 := by
  cases limit with
  | zero => exact Nat.zero_le 2
  | succ limit =>
    simp only [readGroups]
    split
    · next address rest _ => simp [Ipv4Addr.groups]
    · split
      · next group rest found =>
        obtain ⟨body, digits, split, -⟩ := readNumber_eq_some (by simpa [readSeparator] using found)
        have stop : readGiven ':' rest = none := by
          cases given : readGiven ':' rest with
          | none => rfl
          | some after =>
            rw [split, readGiven_eq_some given] at clear
            exact absurd (by simp) clear
        have ends : readGroups 1 limit rest = ([], false, rest) := by
          cases limit with
          | zero => rfl
          | succ limit => simp [readGroups, readSeparator, stop]
        simp [ends]
      · exact Nat.zero_le 2

theorem colon_mem_of_readIpv6 {text rest : List Char} {address : Ipv6Addr}
    (found : readIpv6 text = some (address, rest)) : ':' ∈ text := by
  rcases readIpv6_eq_some found with ⟨eight, -⟩ | ⟨after, limit, split, -⟩
  · refine Decidable.byContradiction fun clear => ?_
    have few : (readGroups 0 8 text).1.length ≤ 2 := readGroups_without_colon clear
    omega
  · obtain ⟨front, whole, -⟩ := addressed_tracks.ofGroups 8 0 text
    rw [whole, split]
    simp

theorem IpAddr.parse_addressed {text : String} {ip : IpAddr} (parsed : IpAddr.parse text = some ip) :
    ∀ char ∈ text.toList, isAddressChar char = true := by
  have addressed : Addressed text.toList [] := by
    cases ip with
    | v4 address => exact readIpv4_addressed (IpAddr.parse_v4_iff.mp parsed)
    | v6 address => exact addressed_tracks.ofIpv6 (IpAddr.parse_v6_iff.mp parsed)
  obtain ⟨front, split, letters⟩ := addressed
  rwa [split, List.append_nil]

end Net

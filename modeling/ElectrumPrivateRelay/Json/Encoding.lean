import ElectrumPrivateRelay.Json.DecodedLength

/-! The bytes of a text, and that decoding them gives the text back. -/

set_option autoImplicit false

namespace Json

def encodeUtf8 (text : List Char) : List UInt8 := text.flatMap String.utf8EncodeChar

theorem encodeUtf8_cons (char : Char) (text : List Char) :
    encodeUtf8 (char :: text) = String.utf8EncodeChar char ++ encodeUtf8 text := rfl

theorem encodeUtf8_append (left right : List Char) :
    encodeUtf8 (left ++ right) = encodeUtf8 left ++ encodeUtf8 right :=
  List.flatMap_append

theorem toUTF8_eq_encodeUtf8 (text : String) : text.toUTF8.data.toList = encodeUtf8 text.toList := by
  obtain ⟨chars, rfl⟩ : ∃ chars, text = .ofList chars := ⟨text.toList, by simp⟩
  rw [String.toList_ofList, String.toUTF8_eq_toByteArray, String.toByteArray_ofList]
  simp [encodeUtf8, List.utf8Encode]

/-- A byte that carries six bits of a code. -/
def IsTail (byte : UInt8) (bits : Nat) : Prop := bits < 64 ∧ byte.toNat = bits + 0x80

theorem IsTail.continues {byte : UInt8} {bits : Nat} (tail : IsTail byte bits) :
    isContinuation byte = true := by
  obtain ⟨small, same⟩ := tail
  simp only [isContinuation, Bool.and_eq_true, decide_eq_true_eq, UInt8.le_iff_toNat_le, same,
    UInt8.reduceToNat]
  omega

theorem IsTail.bits {byte : UInt8} {bits : Nat} (tail : IsTail byte bits) : tailBits byte = bits := by
  obtain ⟨-, same⟩ := tail
  have whole : tailBits byte = byte.toNat - 0x80 := rfl
  omega

theorem isTail_ofNat (code : Nat) : IsTail (.ofNat (code % 0x40 + 0x80)) (code % 0x40) := by
  refine ⟨by omega, UInt8.toNat_ofNat_of_lt ?_⟩
  simp only [UInt8.size]
  omega

theorem decodeUtf8_one {first : UInt8} {rest : List UInt8} (low : first.toNat < 0x80) :
    decodeUtf8 (first :: rest) = (decodeUtf8 rest).map (Char.ofNat first.toNat :: ·) := by
  have isOne : first < 0x80 := UInt8.lt_iff_toNat_lt.mpr (by simpa using low)
  rw [decodeUtf8.eq_def]
  simp only [isOne, if_true]

theorem decodeUtf8_two {first second : UInt8} {rest : List UInt8} {high low : Nat}
    (lead : first.toNat = high + 0xC0) (long : 2 ≤ high) (short : high < 0x20) (tail : IsTail second low) :
    decodeUtf8 (first :: second :: rest) =
      (decodeUtf8 rest).map (Char.ofNat (high * 64 + low) :: ·) := by
  have notOne : ¬ first < 0x80 := by
    simp only [UInt8.lt_iff_toNat_lt, lead, UInt8.reduceToNat]
    omega
  have isTwo : (0xC2 ≤ first && first ≤ 0xDF && isContinuation second) = true := by
    simp only [Bool.and_eq_true, decide_eq_true_eq, UInt8.le_iff_toNat_le, lead, UInt8.reduceToNat,
      tail.continues, and_true]
    omega
  have code : (first.toNat - 0xC0) * 64 + tailBits second = high * 64 + low := by
    rw [lead, tail.bits, Nat.add_sub_cancel]
  rw [decodeUtf8.eq_def]
  simp only [notOne, isTwo, if_true, if_false, code]

theorem decodeUtf8_three {first second third : UInt8} {rest : List UInt8} {high middle low : Nat}
    (lead : first.toNat = high + 0xE0) (short : high < 0x10) (next : IsTail second middle)
    (tail : IsTail third low) (long : 0x800 ≤ high * 4096 + middle * 64 + low)
    (scalar : isSurrogate (high * 4096 + middle * 64 + low) = false) :
    decodeUtf8 (first :: second :: third :: rest) =
      (decodeUtf8 rest).map (Char.ofNat (high * 4096 + middle * 64 + low) :: ·) := by
  have notOne : ¬ first < 0x80 := by
    simp only [UInt8.lt_iff_toNat_lt, lead, UInt8.reduceToNat]
    omega
  have notTwo : ¬ first ≤ 0xDF := by
    simp only [UInt8.le_iff_toNat_le, lead, UInt8.reduceToNat]
    omega
  have code : threeByteCode first second third = high * 4096 + middle * 64 + low := by
    rw [threeByteCode, lead, next.bits, tail.bits, Nat.add_sub_cancel]
  have isThree : (0xE0 ≤ first && first ≤ 0xEF) = true := by
    simp only [Bool.and_eq_true, decide_eq_true_eq, UInt8.le_iff_toNat_le, lead, UInt8.reduceToNat]
    omega
  rw [decodeUtf8.eq_def]
  simp only [notOne, notTwo, isThree, next.continues, tail.continues, code, long, scalar, if_true, if_false,
    decide_true, decide_false, Bool.and_false, Bool.false_and, Bool.and_self, Bool.not_false,
    Bool.false_eq_true]

theorem decodeUtf8_four {first second third fourth : UInt8} {rest : List UInt8}
    {high upper middle low : Nat} (lead : first.toNat = high + 0xF0) (short : high < 0x05)
    (next : IsTail second upper) (later : IsTail third middle) (tail : IsTail fourth low)
    (long : 0x10000 ≤ high * 262144 + upper * 4096 + middle * 64 + low)
    (last : high * 262144 + upper * 4096 + middle * 64 + low ≤ 0x10FFFF) :
    decodeUtf8 (first :: second :: third :: fourth :: rest) =
      (decodeUtf8 rest).map (Char.ofNat (high * 262144 + upper * 4096 + middle * 64 + low) :: ·) := by
  have notOne : ¬ first < 0x80 := by
    simp only [UInt8.lt_iff_toNat_lt, lead, UInt8.reduceToNat]
    omega
  have notTwo : ¬ first ≤ 0xDF := by
    simp only [UInt8.le_iff_toNat_le, lead, UInt8.reduceToNat]
    omega
  have notThree : ¬ first ≤ 0xEF := by
    simp only [UInt8.le_iff_toNat_le, lead, UInt8.reduceToNat]
    omega
  have code : fourByteCode first second third fourth =
      high * 262144 + upper * 4096 + middle * 64 + low := by
    rw [fourByteCode, lead, next.bits, later.bits, tail.bits, Nat.add_sub_cancel]
  have isFour : (0xF0 ≤ first && first ≤ 0xF4) = true := by
    simp only [Bool.and_eq_true, decide_eq_true_eq, UInt8.le_iff_toNat_le, lead, UInt8.reduceToNat]
    omega
  rw [decodeUtf8.eq_def]
  simp only [notOne, notTwo, notThree, isFour, next.continues, later.continues, tail.continues, code,
    long, last, if_true, if_false, decide_true, decide_false, Bool.and_false, Bool.false_and, Bool.and_self,
    Bool.false_eq_true]

theorem decodeUtf8_encodeChar (char : Char) (rest : List UInt8) :
    decodeUtf8 (String.utf8EncodeChar char ++ rest) = (decodeUtf8 rest).map (char :: ·) := by
  have valid := char.valid
  obtain ⟨code, same⟩ : ∃ code, char.val.toNat = code := ⟨_, rfl⟩
  have whole : Char.ofNat code = char := by
    rw [← same]
    exact Char.ofNat_toNat char
  simp only [UInt32.isValidChar, Nat.isValidChar, same] at valid
  simp only [String.utf8EncodeChar, same]
  split
  · next one =>
    have lead : (UInt8.ofNat code).toNat = code := UInt8.toNat_ofNat_of_lt (by simp only [UInt8.size]; omega)
    rw [List.singleton_append, decodeUtf8_one (by omega), lead, whole]
  split
  · next two =>
    have lead : (UInt8.ofNat (code / 64 % 0x20 + 0xC0)).toNat = code / 64 % 0x20 + 0xC0 :=
      UInt8.toNat_ofNat_of_lt (by simp only [UInt8.size]; omega)
    have join : code / 64 % 0x20 * 64 + code % 0x40 = code := by omega
    rw [List.cons_append, List.cons_append, List.nil_append,
      decodeUtf8_two lead (by omega) (by omega) (isTail_ofNat code), join, whole]
  split
  · next three =>
    have lead : (UInt8.ofNat (code / 4096 % 0x10 + 0xE0)).toNat = code / 4096 % 0x10 + 0xE0 :=
      UInt8.toNat_ofNat_of_lt (by simp only [UInt8.size]; omega)
    have join : code / 4096 % 0x10 * 4096 + code / 64 % 0x40 * 64 + code % 0x40 = code := by omega
    have scalar : isSurrogate code = false := by
      simp only [isSurrogate, Bool.and_eq_false_iff, decide_eq_false_iff_not]
      omega
    rw [List.cons_append, List.cons_append, List.cons_append, List.nil_append,
      decodeUtf8_three lead (by omega) (isTail_ofNat (code / 64)) (isTail_ofNat code) (by omega)
        (by rw [join]; exact scalar), join, whole]
  · next four =>
    have lead : (UInt8.ofNat (code / 262144 % 0x08 + 0xF0)).toNat = code / 262144 % 0x08 + 0xF0 :=
      UInt8.toNat_ofNat_of_lt (by simp only [UInt8.size]; omega)
    have join : code / 262144 % 0x08 * 262144 + code / 4096 % 0x40 * 4096 + code / 64 % 0x40 * 64 +
        code % 0x40 = code := by omega
    rw [List.cons_append, List.cons_append, List.cons_append, List.cons_append, List.nil_append,
      decodeUtf8_four lead (by omega) (isTail_ofNat (code / 4096)) (isTail_ofNat (code / 64))
        (isTail_ofNat code) (by omega) (by omega), join, whole]

theorem decodeUtf8_encodeUtf8 (text : List Char) : decodeUtf8 (encodeUtf8 text) = some text := by
  induction text with
  | nil => rfl
  | cons char rest ih => rw [encodeUtf8_cons, decodeUtf8_encodeChar, ih, Option.map_some]

/-- A byte of a character is its code, or it has its top bit set. -/
theorem encodeChar_bytes {char : Char} {byte : UInt8} (member : byte ∈ String.utf8EncodeChar char) :
    byte.toNat = char.toNat ∨ 0x80 ≤ byte.toNat := by
  obtain ⟨code, same⟩ : ∃ code, char.toNat = code := ⟨_, rfl⟩
  have high : ∀ bits offset, 0x80 ≤ offset → bits + offset < UInt8.size →
      0x80 ≤ (UInt8.ofNat (bits + offset)).toNat := by
    intro bits offset above small
    have value : (UInt8.ofNat (bits + offset)).toNat = bits + offset := UInt8.toNat_ofNat_of_lt small
    omega
  simp only [String.utf8EncodeChar, Char.toNat_val, same] at member
  split at member
  · obtain rfl := List.mem_singleton.mp member
    have value : (UInt8.ofNat code).toNat = code := UInt8.toNat_ofNat_of_lt (by simp only [UInt8.size]; omega)
    exact .inl (value.trans same.symm)
  split at member
  · right
    simp only [List.mem_cons, List.not_mem_nil, or_false] at member
    rcases member with rfl | rfl <;> exact high _ _ (by omega) (by simp only [UInt8.size]; omega)
  split at member
  · right
    simp only [List.mem_cons, List.not_mem_nil, or_false] at member
    rcases member with rfl | rfl | rfl <;> exact high _ _ (by omega) (by simp only [UInt8.size]; omega)
  · right
    simp only [List.mem_cons, List.not_mem_nil, or_false] at member
    rcases member with rfl | rfl | rfl | rfl <;>
      exact high _ _ (by omega) (by simp only [UInt8.size]; omega)

theorem encodeChar_newline {char : Char} (newline : 0x0A ∈ String.utf8EncodeChar char) : char = '\n' := by
  have ten : (0x0A : UInt8).toNat = '\n'.toNat := rfl
  rcases encodeChar_bytes newline with same | high
  · rw [← Char.ofNat_toNat char, ← same, ten, Char.ofNat_toNat]
  · exact absurd high (by decide)

theorem encodeUtf8_newline {text : List Char} (clear : '\n' ∉ text) : 0x0A ∉ encodeUtf8 text := by
  intro newline
  obtain ⟨char, member, found⟩ := List.mem_flatMap.mp newline
  exact clear (encodeChar_newline found ▸ member)

theorem encodeUtf8_length (text : List Char) : (encodeUtf8 text).length = String.utf8Len text := by
  induction text with
  | nil => rfl
  | cons char rest ih =>
    rw [encodeUtf8_cons, List.length_append, String.length_utf8EncodeChar, ih, String.utf8Len_cons,
      Nat.add_comm]

end Json

import ElectrumPrivateRelay.Configuration.Endpoint
import ElectrumPrivateRelay.Net.Canonical

/-! Valid hosts: address texts and DNS names. -/

set_option autoImplicit false

namespace ElectrumPrivateRelay.Configuration
open Net

structure DnsLabel (label : List Char) : Prop where
  size : 1 ≤ label.length ∧ label.length ≤ 63
  letters : ∀ char ∈ label, isAsciiAlphanumeric char = true ∨ char = '-'
  first : label.head? ≠ some '-'
  last : label.getLast? ≠ some '-'

/-- Labels joined by dots, at most 253 bytes, and then at most one dot. -/
def DnsName (host : List Char) : Prop :=
  ∃ labels root, host = ['.'].intercalate labels ++ root ∧ labels ≠ [] ∧ (∀ label ∈ labels, DnsLabel label) ∧
    (['.'].intercalate labels).length ≤ 253 ∧ (root = [] ∨ root = ['.'])

theorem invalidLabel_eq_false {label : List Char} : invalidLabel label = false ↔ DnsLabel label := by
  have nonempty : label ≠ [] ↔ 1 ≤ label.length := by
    rw [← List.length_pos_iff]
    rfl
  constructor
  · intro valid
    simp only [invalidLabel, Bool.or_eq_false_iff, decide_eq_false_iff_not, List.isEmpty_eq_false_iff,
      Nat.not_lt, Bool.not_eq_false', List.all_eq_true, Bool.or_eq_true, decide_eq_true_eq] at valid
    obtain ⟨⟨⟨⟨some, size⟩, first⟩, last⟩, letters⟩ := valid
    exact ⟨⟨nonempty.mp some, size⟩, letters, first, last⟩
  · rintro ⟨⟨some, size⟩, letters, first, last⟩
    simp only [invalidLabel, Bool.or_eq_false_iff, decide_eq_false_iff_not, List.isEmpty_eq_false_iff,
      Nat.not_lt, Bool.not_eq_false', List.all_eq_true, Bool.or_eq_true, decide_eq_true_eq]
    exact ⟨⟨⟨⟨nonempty.mpr some, size⟩, first⟩, last⟩, letters⟩

theorem splitOn_eq (separator : Char) (text : List Char) : splitOn separator text = text.splitOn separator := by
  induction text with
  | nil => rfl
  | cons char rest ih =>
    rw [splitOn, List.splitOn_cons_eq_if_modifyHead, ih]
    by_cases same : char = separator
    · simp [same]
    · have some := List.splitOn_ne_nil separator rest
      cases labels : rest.splitOn separator with
      | nil => exact absurd labels some
      | cons label labels => simp [same]

theorem mem_intercalate {char : Char} {labels : List (List Char)} (member : char ∈ ['.'].intercalate labels) :
    char = '.' ∨ ∃ label ∈ labels, char ∈ label := by
  induction labels with
  | nil => cases member
  | cons label labels ih =>
    cases labels with
    | nil => exact .inr ⟨label, by simp, by rwa [List.intercalate_singleton] at member⟩
    | cons next labels =>
      rw [List.intercalate_cons_cons, List.mem_append, List.mem_append] at member
      rcases member with (first | dot) | later
      · exact .inr ⟨label, by simp, first⟩
      · exact .inl (List.mem_singleton.mp dot)
      · rcases ih later with dot | ⟨other, among, inside⟩
        · exact .inl dot
        · exact .inr ⟨other, List.mem_cons_of_mem label among, inside⟩

def isPlain (char : Char) : Bool :=
  isAsciiAlphanumeric char || ['-', '.', ':', '[', ']', '%', '+'].contains char

theorem isPlain_code {char : Char} (plain : isPlain char = true) :
    let code := char.toNat
    (48 ≤ code ∧ code ≤ 57) ∨ (97 ≤ code ∧ code ≤ 122) ∨ (65 ≤ code ∧ code ≤ 90) ∨ code = 45 ∨ code = 46 ∨
      code = 58 ∨ code = 91 ∨ code = 93 ∨ code = 37 ∨ code = 43 := by
  simp only [isPlain, isAsciiAlphanumeric, Bool.or_eq_true, Bool.and_eq_true, decide_eq_true_eq,
    List.contains_iff_mem, List.mem_cons, List.not_mem_nil, or_false] at plain
  rcases plain with ((digit | lower) | upper) | rfl | rfl | rfl | rfl | rfl | rfl | rfl
  · exact .inl digit
  · exact .inr (.inl lower)
  · exact .inr (.inr (.inl upper))
  all_goals decide

theorem isWhitespace_of_plain {char : Char} (plain : isPlain char = true) : isWhitespace char = false := by
  have code := isPlain_code plain
  simp only [isWhitespace, Bool.or_eq_false_iff, Bool.and_eq_false_iff, decide_eq_false_iff_not]
  omega

theorem isAscii_of_plain {char : Char} (plain : isPlain char = true) : isAscii char = true := by
  have code := isPlain_code plain
  simp only [isAscii, decide_eq_true_eq]
  omega

theorem isPlain_of_address {char : Char} (address : isAddressChar char = true) : isPlain char = true := by
  simp only [isAddressChar, Bool.or_eq_true, decide_eq_true_eq] at address
  rcases address with (digit | rfl) | rfl
  · have letter : isAsciiAlphanumeric char = true := by
      rw [toDigit_eq] at digit
      have codes : (48 ≤ char.toNat ∧ char.toNat ≤ 57) ∨ (97 ≤ char.toNat ∧ char.toNat ≤ 122) ∨
          (65 ≤ char.toNat ∧ char.toNat ≤ 90) := by
        grind
      simp only [isAsciiAlphanumeric, Bool.or_eq_true, Bool.and_eq_true, decide_eq_true_eq]
      rcases codes with digit | lower | upper
      · exact .inl (.inl digit)
      · exact .inl (.inr lower)
      · exact .inr upper
    simp [isPlain, letter]
  · rfl
  · rfl

theorem containsText_member {pattern text : List Char} {mark : Char} (inside : mark ∈ pattern)
    (found : containsText pattern text = true) : mark ∈ text := by
  induction text with
  | nil =>
    simp only [containsText, List.isEmpty_iff] at found
    rw [found] at inside
    cases inside
  | cons char rest ih =>
    simp only [containsText, Bool.or_eq_true] at found
    rcases found with here | later
    · exact (List.isPrefixOf_iff_prefix.mp here).subset inside
    · exact List.mem_cons_of_mem char (ih later)

theorem hasForbiddenEndpointSyntax_of_plain {text : List Char} (plain : ∀ char ∈ text, isPlain char = true) :
    hasForbiddenEndpointSyntax text = false := by
  have absent (mark : Char) (other : isPlain mark = false) : text.contains mark = false := by
    refine Bool.eq_false_iff.mpr fun member => ?_
    rw [plain mark (List.contains_iff_mem.mp member)] at other
    cases other
  have scheme : containsText "://".toList text = false := by
    refine Bool.eq_false_iff.mpr fun found => ?_
    have slash : '/' ∈ text := containsText_member (by simp) found
    have other := plain '/' slash
    cases other
  rw [hasForbiddenEndpointSyntax, scheme, absent '@' rfl, absent '/' rfl, absent '?' rfl, absent '#' rfl]
  rfl

theorem parse_plain {host : String} {ip : IpAddr} (parsed : IpAddr.parse host = some ip) :
    ∀ char ∈ host.toList, isPlain char = true :=
  fun char member => isPlain_of_address (IpAddr.parse_addressed parsed char member)

theorem DnsName.letters {host : List Char} (name : DnsName host) {char : Char} (member : char ∈ host) :
    isAsciiAlphanumeric char = true ∨ char = '-' ∨ char = '.' := by
  obtain ⟨labels, root, rfl, -, valid, -, ending⟩ := name
  rcases List.mem_append.mp member with inside | last
  · rcases mem_intercalate inside with dot | ⟨label, among, inside⟩
    · exact .inr (.inr dot)
    · rcases (valid label among).letters char inside with letter | hyphen
      · exact .inl letter
      · exact .inr (.inl hyphen)
  · rcases ending with rfl | rfl
    · cases last
    · exact .inr (.inr (List.mem_singleton.mp last))

theorem DnsName.plain {host : List Char} (name : DnsName host) : ∀ char ∈ host, isPlain char = true := by
  intro char member
  rcases name.letters member with letter | rfl | rfl
  · simp [isPlain, letter]
  · rfl
  · rfl

theorem DnsName.without_mark {host : List Char} (name : DnsName host) {mark : Char}
    (other : isAsciiAlphanumeric mark = false) (hyphen : mark ≠ '-') (dot : mark ≠ '.') : mark ∉ host := by
  intro member
  rcases name.letters member with letter | same | same
  · rw [other] at letter
    cases letter
  · exact hyphen same
  · exact dot same

theorem intercalate_getLast {labels : List (List Char)} (some : labels ≠ [])
    (valid : ∀ label ∈ labels, DnsLabel label) :
    ∃ front char, ['.'].intercalate labels = front ++ [char] ∧ char ≠ '.' := by
  induction labels with
  | nil => exact absurd rfl some
  | cons label labels ih =>
    cases labels with
    | nil =>
      have here := valid label List.mem_cons_self
      have nonempty : label ≠ [] := List.length_pos_iff.mp here.size.1
      refine ⟨label.dropLast, label.getLast nonempty, ?_, ?_⟩
      · rw [List.intercalate_singleton, List.dropLast_append_getLast]
      · intro dot
        rcases here.letters _ (List.getLast_mem nonempty) with letter | hyphen
        · rw [dot] at letter
          cases letter
        · rw [dot] at hyphen
          cases hyphen
    | cons next labels =>
      obtain ⟨front, char, same, other⟩ := ih (List.cons_ne_nil next labels)
        fun label among => valid label (List.mem_cons_of_mem _ among)
      refine ⟨label ++ ['.'] ++ front, char, ?_, other⟩
      rw [List.intercalate_cons_cons, same, List.append_assoc _ front]

theorem dnsName_iff {host : List Char} :
    DnsName host ↔ stripRootDot host ≠ [] ∧ (stripRootDot host).length ≤ 253 ∧
      (splitOn '.' (stripRootDot host)).any invalidLabel = false := by
  constructor
  · rintro ⟨labels, root, rfl, some, valid, short, ending⟩
    obtain ⟨front, char, same, other⟩ := intercalate_getLast some valid
    have stripped : stripRootDot (['.'].intercalate labels ++ root) = ['.'].intercalate labels := by
      rcases ending with rfl | rfl
      · simp [stripRootDot, same, other]
      · simp [stripRootDot]
    have clear : ∀ label ∈ labels, '.' ∉ label := by
      intro label among inside
      rcases (valid label among).letters '.' inside with letter | hyphen
      · cases letter
      · cases hyphen
    rw [stripped, splitOn_eq, List.splitOn_intercalate '.' clear some]
    refine ⟨by simp [same], short, ?_⟩
    rw [List.any_eq_false]
    intro label among
    rw [invalidLabel_eq_false.mpr (valid label among)]
    exact Bool.false_ne_true
  · rintro ⟨-, short, valid⟩
    rw [splitOn_eq] at valid
    have joined : ['.'].intercalate ((stripRootDot host).splitOn '.') = stripRootDot host :=
      List.intercalate_splitOn '.'
    refine ⟨(stripRootDot host).splitOn '.', if host.getLast? = some '.' then ['.'] else [], ?_,
      List.splitOn_ne_nil _ _, ?_, by rwa [joined], ?_⟩
    · rw [joined, stripRootDot]
      split
      · next dotted =>
        have nonempty : host ≠ [] := by
          rintro rfl
          cases dotted
        rw [List.getLast?_eq_some_getLast nonempty] at dotted
        rw [← Option.some.inj dotted, List.dropLast_append_getLast]
      · rw [List.append_nil]
    · intro label among
      exact invalidLabel_eq_false.mp (by simpa using List.any_eq_false.mp valid label among)
    · split
      · exact .inr rfl
      · exact .inl rfl

theorem validateHost_eq_ok {host : String} :
    validateHost host = .ok () ↔ (∃ ip, IpAddr.parse host = some ip) ∨ DnsName host.toList := by
  unfold validateHost
  simp only
  constructor
  · intro valid
    split at valid
    · cases valid
    · split at valid
      · cases valid
      · split at valid
        · next address => exact .inl (Option.isSome_iff_exists.mp address)
        · split at valid
          · cases valid
          · split at valid
            · cases valid
            · split at valid
              · cases valid
              · next sized =>
                split at valid
                · cases valid
                · next labels =>
                  simp only [Bool.or_eq_true, List.isEmpty_iff, decide_eq_true_eq, not_or, Nat.not_lt] at sized
                  exact .inr (dnsName_iff.mpr ⟨sized.1, sized.2, Bool.eq_false_iff.mpr labels⟩)
  · intro named
    have plain : ∀ char ∈ host.toList, isPlain char = true := by
      rcases named with ⟨ip, parsed⟩ | name
      · exact parse_plain parsed
      · exact name.plain
    have clean : host.toList.any isWhitespace = false := by
      rw [List.any_eq_false]
      intro char member
      rw [isWhitespace_of_plain (plain char member)]
      exact Bool.false_ne_true
    have nonempty : host.toList.isEmpty = false := by
      rw [List.isEmpty_eq_false_iff]
      rcases named with ⟨ip, parsed⟩ | name
      · intro empty
        rw [IpAddr.parse_eq_some, empty] at parsed
        cases parsed
      · obtain ⟨labels, root, same, some, valid, -⟩ := name
        obtain ⟨front, char, last, -⟩ := intercalate_getLast some valid
        rw [same, last]
        simp
    have allowed := hasForbiddenEndpointSyntax_of_plain plain
    simp only [nonempty, clean, allowed, Bool.or_self, Bool.false_eq_true, if_false]
    cases parsed : IpAddr.parse host with
    | some ip => rfl
    | none =>
      have name : DnsName host.toList := by
        rcases named with ⟨ip, found⟩ | name
        · rw [parsed] at found
          cases found
        · exact name
      have ascii : host.toList.all isAscii = true :=
        List.all_eq_true.mpr fun char member => isAscii_of_plain (plain char member)
      have clear : host.toList.contains ':' = false :=
        Bool.eq_false_iff.mpr fun member =>
          name.without_mark rfl (by decide) (by decide) (List.contains_iff_mem.mp member)
      obtain ⟨some, short, labels⟩ := dnsName_iff.mp name
      have sized : ((stripRootDot host.toList).isEmpty || decide (253 < (stripRootDot host.toList).length)) =
          false := by
        simp [some, short]
      simp only [ascii, clear, sized, labels, Option.isSome_none, Bool.not_true, Bool.false_eq_true, if_false]

end ElectrumPrivateRelay.Configuration

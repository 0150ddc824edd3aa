import ElectrumPrivateRelay.Release.Publication
import Mathlib.Data.List.DropRight

/-! The environment of the commands that build and check a release candidate.

A build inherits the environment and pins what would make its result differ; a
check inherits everything but the configuration of the program.
-/

set_option autoImplicit false

namespace ElectrumPrivateRelay.Release

/-- `str.isspace` of one character. -/
def isBlank (char : Char) : Bool :=
  let code := char.toNat
  9 ≤ code && code ≤ 13 || 0x1C ≤ code && code ≤ 0x20 || code = 0x85 || code = 0xA0 || code = 0x1680 ||
    0x2000 ≤ code && code ≤ 0x200A || code = 0x2028 || code = 0x2029 || code = 0x202F || code = 0x205F ||
    code = 0x3000

/-- `str.split` without a separator. -/
def words (text : String) : List String :=
  ((text.toList.splitOnP isBlank).filter fun word => !word.isEmpty).map String.ofList

/-- `" ".join`. -/
def joinWords (parts : List String) : String := " ".intercalate parts

/-- `str.strip`. -/
def strip (text : String) : String := .ofList ((text.toList.dropWhile isBlank).rdropWhile isBlank)

abbrev Environment := List (String × String)

def assign (name value : String) : Environment → Environment
  | [] => [(name, value)]
  | entry :: rest => if entry.1 = name then (name, value) :: rest else entry :: assign name value rest

def windowsMsvcReproFlag : String := "-Clink-arg=/Brepro"

def isWindowsMsvcTarget (target : Target) : Bool := "-windows-msvc".toList.isSuffixOf target.text.toList

def reproducibilityRustflags (target : Target) (existing : String) : String :=
  let parts := words existing
  joinWords (if isWindowsMsvcTarget target && windowsMsvcReproFlag ∉ parts then parts ++ [windowsMsvcReproFlag]
    else parts)

/-- `key.startswith("EPR_")`. -/
def isConfiguration (name : String) : Bool := "EPR_".toList.isPrefixOf name.toList

def packagedRuntimeEnvironment (environment : Environment) : Environment :=
  environment.filter fun entry => !isConfiguration entry.1

/-- The environment that `build_binary` gives to the build. -/
def buildEnvironment (target : Target) (directory : String) (epoch : Int) (inherited : Environment) : Environment :=
  let environment := assign "SOURCE_DATE_EPOCH" (toString epoch)
    (assign "CARGO_TARGET_DIR" directory (assign "CARGO_INCREMENTAL" "0" inherited))
  let rustflags := reproducibilityRustflags target ((environment.lookup "RUSTFLAGS").getD "")
  if rustflags ≠ "" then assign "RUSTFLAGS" rustflags environment else environment

def IsWord (word : String) : Prop := word ≠ "" ∧ ∀ char ∈ word.toList, isBlank char = false

theorem splitOnP_clear (text : List Char) : ∀ part ∈ text.splitOnP isBlank, ∀ char ∈ part, isBlank char = false := by
  induction text with
  | nil => simp
  | cons char rest ih =>
    rw [List.splitOnP_cons_eq_if_modifyHead]
    split
    · intro part member
      rcases List.mem_cons.mp member with rfl | later
      · simp
      · exact ih part later
    · next visible =>
      obtain ⟨first, others, split⟩ := List.exists_cons_of_ne_nil (List.splitOnP_ne_nil isBlank rest)
      rw [split] at ih ⊢
      intro part member
      rcases List.mem_cons.mp member with rfl | later
      · intro other inPart
        rcases List.mem_cons.mp inPart with rfl | inFirst
        · exact Bool.eq_false_iff.mpr visible
        · exact ih first List.mem_cons_self other inFirst
      · exact ih part (List.mem_cons_of_mem _ later)

theorem words_isWord (text : String) : ∀ word ∈ words text, IsWord word := by
  intro word member
  obtain ⟨part, found, rfl⟩ := List.mem_map.mp member
  obtain ⟨split, filled⟩ := List.mem_filter.mp found
  constructor
  · intro empty
    have none : part = [] := by simpa using congrArg String.toList empty
    simp [none] at filled
  · rw [String.toList_ofList]
    exact splitOnP_clear text.toList part split

theorem words_joinWords (parts : List String) (clean : ∀ part ∈ parts, IsWord part) :
    words (joinWords parts) = parts := by
  induction parts with
  | nil => rfl
  | cons first rest ih =>
    obtain ⟨filled, clear⟩ := clean first List.mem_cons_self
    have filledChars : first.toList.isEmpty = false := by
      simpa [List.isEmpty_eq_false_iff] using filled
    cases rest with
    | nil => simp [words, joinWords, List.splitOnP_eq_singleton clear, filledChars]
    | cons second others =>
      have later := ih fun part member => clean part (List.mem_cons_of_mem first member)
      have text : (joinWords (first :: second :: others)).toList =
          first.toList ++ ' ' :: (joinWords (second :: others)).toList := by
        simp [joinWords, String.toList_intercalate]
      rw [words, text, List.splitOnP_append_cons_of_forall_mem clear ' ' rfl]
      rw [words] at later
      simp [filledChars, later]

def pinnedFlags (target : Target) (inherited : List String) : List String :=
  if isWindowsMsvcTarget target && windowsMsvcReproFlag ∉ inherited then inherited ++ [windowsMsvcReproFlag]
  else inherited

theorem reproFlag_isWord : IsWord windowsMsvcReproFlag := by
  have visible : windowsMsvcReproFlag.toList.all (!isBlank ·) = true := by decide +kernel
  constructor
  · decide
  · intro char member
    simpa using List.all_eq_true.mp visible char member

theorem pinnedFlags_isWord (target : Target) (text : String) : ∀ flag ∈ pinnedFlags target (words text), IsWord flag := by
  intro flag member
  unfold pinnedFlags at member
  split at member
  · rcases List.mem_append.mp member with old | new
    · exact words_isWord text flag old
    · rw [List.mem_singleton.mp new]
      exact reproFlag_isWord
  · exact words_isWord text flag member

theorem pinnedFlags_pinnedFlags (target : Target) (inherited : List String) :
    pinnedFlags target (pinnedFlags target inherited) = pinnedFlags target inherited := by
  by_cases missing : (isWindowsMsvcTarget target && windowsMsvcReproFlag ∉ inherited) = true
  · have pinned : pinnedFlags target inherited = inherited ++ [windowsMsvcReproFlag] := if_pos missing
    rw [pinned]
    exact if_neg (by simp)
  · have kept : pinnedFlags target inherited = inherited := if_neg missing
    rw [kept, kept]

theorem words_reproducibilityRustflags (target : Target) (existing : String) :
    words (reproducibilityRustflags target existing) = pinnedFlags target (words existing) :=
  words_joinWords _ (pinnedFlags_isWord target existing)

theorem reproducibilityRustflags_idempotent (target : Target) (existing : String) :
    reproducibilityRustflags target (reproducibilityRustflags target existing) =
      reproducibilityRustflags target existing := by
  have unfolded : ∀ text, reproducibilityRustflags target text = joinWords (pinnedFlags target (words text)) :=
    fun _ => rfl
  rw [unfolded, words_reproducibilityRustflags, pinnedFlags_pinnedFlags, ← unfolded]

theorem lookup_cons_ne {first old other : String} {rest : Environment} (differs : other ≠ first) :
    List.lookup other ((first, old) :: rest) = rest.lookup other := by
  have unequal : (other == first) = false := by simpa using differs
  rw [List.lookup_cons, unequal]

theorem lookup_assign (name value other : String) (environment : Environment) :
    (assign name value environment).lookup other = if other = name then some value else environment.lookup other := by
  induction environment with
  | nil =>
    by_cases same : other = name
    · simp [assign, same]
    · rw [assign, lookup_cons_ne same, if_neg same]
  | cons entry rest ih =>
    obtain ⟨first, old⟩ := entry
    rw [assign]
    by_cases here : first = name
    · subst here
      rw [if_pos rfl]
      by_cases same : other = first
      · simp [same]
      · rw [lookup_cons_ne same, lookup_cons_ne same, if_neg same]
    · rw [if_neg here]
      by_cases same : other = first
      · subst same
        simp [here]
      · rw [lookup_cons_ne same, lookup_cons_ne same, ih]

theorem assign_present {name value : String} {environment : Environment}
    (present : environment.lookup name = some value) : assign name value environment = environment := by
  induction environment with
  | nil => cases present
  | cons entry rest ih =>
    obtain ⟨first, old⟩ := entry
    rw [assign]
    by_cases here : first = name
    · subst here
      have same : old = value := by simpa using present
      rw [if_pos rfl, same]
    · rw [lookup_cons_ne (Ne.symm here)] at present
      rw [if_neg here, ih present]

def pinned (directory : String) (epoch : Int) (inherited : Environment) (name : String) : Option String :=
  if name = "SOURCE_DATE_EPOCH" then some (toString epoch)
  else if name = "CARGO_TARGET_DIR" then some directory
  else if name = "CARGO_INCREMENTAL" then some "0"
  else inherited.lookup name

theorem lookup_buildEnvironment (target : Target) (directory : String) (epoch : Int) (inherited : Environment)
    (name : String) :
    (buildEnvironment target directory epoch inherited).lookup name =
      if name = "RUSTFLAGS" then
        if reproducibilityRustflags target ((inherited.lookup "RUSTFLAGS").getD "") = "" then
          inherited.lookup "RUSTFLAGS"
        else some (reproducibilityRustflags target ((inherited.lookup "RUSTFLAGS").getD ""))
      else pinned directory epoch inherited name := by
  have before : ∀ name, (assign "SOURCE_DATE_EPOCH" (toString epoch)
      (assign "CARGO_TARGET_DIR" directory (assign "CARGO_INCREMENTAL" "0" inherited))).lookup name =
        pinned directory epoch inherited name := by
    intro name
    rw [lookup_assign, lookup_assign, lookup_assign, pinned]
  have inheritedFlags : pinned directory epoch inherited "RUSTFLAGS" = inherited.lookup "RUSTFLAGS" := rfl
  simp only [buildEnvironment, before, inheritedFlags]
  by_cases empty : reproducibilityRustflags target ((inherited.lookup "RUSTFLAGS").getD "") = ""
  · simp only [ne_eq, empty, not_true_eq_false, if_false, if_true, before]
    split
    · next same => rw [same, inheritedFlags]
    · rfl
  · simp only [ne_eq, empty, not_false_eq_true, if_true, if_false, lookup_assign, before]

theorem buildEnvironment_idempotent (target : Target) (directory : String) (epoch : Int) (inherited : Environment) :
    buildEnvironment target directory epoch (buildEnvironment target directory epoch inherited) =
      buildEnvironment target directory epoch inherited := by
  have found := lookup_buildEnvironment target directory epoch inherited
  generalize buildEnvironment target directory epoch inherited = environment at found
  have incremental : environment.lookup "CARGO_INCREMENTAL" = some "0" := found "CARGO_INCREMENTAL"
  have targetDirectory : environment.lookup "CARGO_TARGET_DIR" = some directory := found "CARGO_TARGET_DIR"
  have sourceDate : environment.lookup "SOURCE_DATE_EPOCH" = some (toString epoch) := found "SOURCE_DATE_EPOCH"
  have flags := found "RUSTFLAGS"
  rw [if_pos rfl] at flags
  simp only [buildEnvironment, assign_present incremental, assign_present targetDirectory, assign_present sourceDate,
    flags]
  split
  · next empty =>
    rw [empty, if_neg (not_not.mpr rfl)]
  · next filled =>
    rw [if_neg filled] at flags
    rw [Option.getD_some, reproducibilityRustflags_idempotent, if_pos filled, assign_present flags]

theorem lookup_packagedRuntimeEnvironment (inherited : Environment) (name : String) :
    (packagedRuntimeEnvironment inherited).lookup name =
      if isConfiguration name then none else inherited.lookup name := by
  induction inherited with
  | nil => simp [packagedRuntimeEnvironment]
  | cons entry rest ih =>
    obtain ⟨first, value⟩ := entry
    rw [packagedRuntimeEnvironment] at ih ⊢
    by_cases configured : isConfiguration first = true
    · rw [List.filter_cons_of_neg (by simp [configured]), ih]
      by_cases same : name = first
      · rw [same, if_pos configured, if_pos configured]
      · rw [lookup_cons_ne same]
    · rw [List.filter_cons_of_pos (by simp [configured])]
      by_cases same : name = first
      · rw [same, if_neg configured, List.lookup_cons_self, List.lookup_cons_self]
      · rw [lookup_cons_ne same, lookup_cons_ne same, ih]

/-- A build sees the inherited variables, the pinned ones and the inherited
flags with the one of the linker once; pinning twice is pinning once. A check
sees every inherited variable but those that configure the program. -/
theorem commands_environment (target : Target) (directory : String) (epoch : Int) (inherited : Environment) :
    let environment := buildEnvironment target directory epoch inherited
    let flags := words ((inherited.lookup "RUSTFLAGS").getD "")
    (∀ name, name ≠ "RUSTFLAGS" → environment.lookup name = pinned directory epoch inherited name) ∧
      words ((environment.lookup "RUSTFLAGS").getD "") = pinnedFlags target flags ∧
      buildEnvironment target directory epoch environment = environment ∧
      ∀ name, (packagedRuntimeEnvironment inherited).lookup name =
        if isConfiguration name then none else inherited.lookup name := by
  intro environment flags
  refine ⟨?_, ?_, buildEnvironment_idempotent target directory epoch inherited,
    lookup_packagedRuntimeEnvironment inherited⟩
  · intro name other
    exact (lookup_buildEnvironment target directory epoch inherited name).trans (if_neg other)
  · rw [lookup_buildEnvironment, if_pos rfl, ← words_reproducibilityRustflags]
    split
    · next empty =>
      -- no flag at all is left as it was inherited
      have none := words_reproducibilityRustflags target ((inherited.lookup "RUSTFLAGS").getD "")
      have noWords : words "" = [] := rfl
      rw [empty, noWords] at none ⊢
      unfold pinnedFlags at none
      split at none
      · exact absurd none.symm (by simp)
      · exact none.symm
    · rfl

end ElectrumPrivateRelay.Release

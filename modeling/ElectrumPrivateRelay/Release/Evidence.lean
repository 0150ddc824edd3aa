import ElectrumPrivateRelay.Release.CreateOnce
import ElectrumPrivateRelay.Release.Reproducible

/-! The evidence that a published release candidate is.

A candidate that was made says the truth of its sources, and what stands in
the output directory behind a publication is such a candidate, with the
checksum of the file beside it.
-/

set_option autoImplicit false

namespace ElectrumPrivateRelay.Release
open Semantics Json

theorem pathName_eq_iff (path : String) : pathName path = path ↔ '/' ∉ path.toList := by
  rw [pathName, ← String.toList_inj, String.toList_ofList, List.rtakeWhile_eq_self_iff]
  constructor
  · intro all slash
    simpa using all '/' slash
  · intro absent char member
    rw [decide_eq_true_eq]
    rintro rfl
    exact absent member

theorem archiveName_slash (sources : Sources) :
    '/' ∈ sources.archiveName.toList ↔ '/' ∈ sources.version.toList := by
  have name : '/' ∉ packageName.toList := by decide
  have text : ∀ target : Target, '/' ∉ target.text.toList := by
    intro target
    cases target <;> decide
  simp [Sources.archiveName, Sources.stem, candidateStem, name, text]

/-- What a candidate says of the sources it was made from. -/
structure Truthful (python : Python) (sources : Sources) (candidate : Candidate) : Prop where
  made : candidate = sources.candidate python
  sorted : candidate.entries.Pairwise fun left right => left.name < right.name
  below : ∀ entry ∈ candidate.entries, ∃ name, entry.name = sources.stem ++ "/" ++ name
  stamped : ∀ entry ∈ candidate.entries, normalizedZipDatetime sources.epoch = some (unpackStamp entry.stamp)
  executable : ∀ entry ∈ candidate.entries, entry.externalAttr = 0o100755 <<< 16 ↔
    entry.name = sources.stem ++ "/" ++ executableName sources.target
  binary : ∃ entry ∈ candidate.entries, entry.name = sources.stem ++ "/" ++ executableName sources.target ∧
    entry.data = sources.binary
  /-- The description is read as it was written, with the digest of the executable. -/
  described : ∃ entry ∈ candidate.entries, entry.name = sources.stem ++ "/" ++ "BUILD-METADATA.json" ∧
    (∀ name, (read entry.data).bind (·.field name) =
      (subscript (sources.metadata python) name).map fun value => value.canonical.toTree) ∧
    (read entry.data).bind (·.field "binary_sha256") = some (.string (python.sha256 sources.binary))
  sidecar : candidate.files.sidecarBytes =
    encodeUtf8 (python.sha256 candidate.files.archiveBytes ++ "  " ++ candidate.files.archive ++ "\n").toList
  /-- The names are those that publication expects, unless the version has a separator in it. -/
  names : (candidate.files.archive, candidate.files.checksumFile) = candidateNames sources.target sources.version ↔
    '/' ∉ sources.version.toList

theorem field_metadata (python : Python) (sources : Sources) (name : String) :
    (read (deterministicJson (sources.metadata python))).bind (·.field name) =
      (subscript (sources.metadata python) name).map fun value => value.canonical.toTree := by
  rw [read_deterministicJson, Option.bind_some]
  exact field_canonical (metadata_distinct python sources).1 name

theorem subscript_digest (python : Python) (sources : Sources) :
    subscript (sources.metadata python) "binary_sha256" = some (.str (python.sha256 sources.binary)) := by
  rw [Sources.metadata, buildMetadata, subscript]
  exact (lookup_eq_some_iff (metadata_distinct python sources).1).mpr (List.mem_of_getElem? (i := 6) rfl)

theorem mem_entries {python : Python} {sources : Sources} {name : String} {data : List UInt8} {mode : Nat}
    (inside : (⟨name, data, mode⟩ : Member) ∈ sources.contents python) :
    ⟨sources.stem ++ "/" ++ name, data, sources.stamp, (0o100000 ||| mode) <<< 16⟩ ∈ sources.entries python :=
  List.mem_map.mpr ⟨_, inside, rfl⟩

theorem entries_sorted (python : Python) (sources : Sources) :
    (sources.entries python).Pairwise fun left right => left.name < right.name := by
  have names : ((sources.contents python).map Member.name).Pairwise (· < ·) := by
    rcases executableName_cases sources.target with name | name
    · simp only [Sources.contents, packedMembers, List.map_cons, List.map_nil, name]
      decide +kernel
    · simp only [Sources.contents, packedMembers, List.map_cons, List.map_nil, name]
      decide +kernel
  rw [Sources.entries, packedEntries, List.pairwise_map]
  exact (List.pairwise_map.mp names).imp fun ordered => append_lt_append (sources.stem ++ "/") ordered

theorem entries_executable (python : Python) (sources : Sources) :
    ∀ entry ∈ sources.entries python, entry.externalAttr = 0o100755 <<< 16 ↔
      entry.name = sources.stem ++ "/" ++ executableName sources.target := by
  intro entry member
  obtain ⟨packed, inside, rfl⟩ := List.mem_map.mp member
  have modes : ∀ pair ∈ (sources.contents python).map (fun packed => (packed.name, packed.mode)),
      ((0o100000 ||| pair.2) <<< 16 = 0o100755 <<< 16 ↔ pair.1 = executableName sources.target) := by
    rcases executableName_cases sources.target with name | name
    · simp only [Sources.contents, packedMembers, List.map_cons, List.map_nil, name]
      decide +kernel
    · simp only [Sources.contents, packedMembers, List.map_cons, List.map_nil, name]
      decide +kernel
  rw [modes _ (List.mem_map_of_mem inside)]
  simp

theorem truthful (python : Python) (sources : Sources) (early : sources.epoch < Instant.yearStart 2108)
    (positive : 0 ≤ sources.epoch) : Truthful python sources (sources.candidate python) := by
  obtain ⟨words, packed⟩ := (packStamp_isSome positive).mpr early
  have unpacked := unpackStamp_normalizedZipDatetime sources.epoch
  rw [packed, if_pos early, Option.map_some] at unpacked
  have stamp : sources.stamp = words := by rw [Sources.stamp, packed, Option.getD_some]
  have binary : (⟨executableName sources.target, sources.binary, 0o755⟩ : Member) ∈ sources.contents python := by
    simp [Sources.contents, packedMembers]
  have description : (⟨"BUILD-METADATA.json", deterministicJson (sources.metadata python), 0o644⟩ : Member) ∈
      sources.contents python := by
    simp [Sources.contents, packedMembers]
  refine ⟨rfl, entries_sorted python sources, ?_, ?_, entries_executable python sources, ?_, ?_, rfl, ?_⟩
  · intro entry member
    obtain ⟨packed, _, rfl⟩ := List.mem_map.mp member
    exact ⟨packed.name, rfl⟩
  · intro entry member
    obtain ⟨_, _, rfl⟩ := List.mem_map.mp member
    rw [← unpacked, stamp]
  · exact ⟨_, mem_entries binary, rfl, rfl⟩
  · refine ⟨_, mem_entries description, rfl, ?_, ?_⟩
    · intro name
      dsimp only
      rw [field_metadata]
    · dsimp only
      rw [field_metadata, subscript_digest]
      rfl
  · rw [← archiveName_slash, ← pathName_eq_iff]
    constructor
    · intro same
      exact (Prod.mk.inj same).1
    · intro same
      show (pathName sources.archiveName, pathName sources.archiveName ++ ".sha256") = _
      rw [same]
      rfl

/-- A candidate is made exactly when every gate lets its sources through, and
then all that it says of them is true. -/
theorem candidate_truthful (python : Python) (world : World) (target : String) (candidate : Candidate) :
    buildReleaseCandidate python world target = .ok candidate ↔
      ∃ sources, Passes python world target sources ∧ Truthful python sources candidate := by
  rw [buildReleaseCandidate_eq_ok]
  constructor
  · rintro ⟨sources, passes, rfl⟩
    exact ⟨sources, passes, truthful python sources passes.early (sourceDateEpoch_nonneg passes.epoch)⟩
  · rintro ⟨sources, passes, true⟩
    exact ⟨sources, passes, true.made⟩

def Genuine (python : Python) (invocations : List (Target × String)) (turn : Turn Event) : Prop :=
  ∀ summary target version, turn.event = .built summary → invocations[turn.party]? = some (target, version) →
    ∃ world candidate, buildReleaseCandidate python world target.text = .ok candidate ∧ candidate.files = summary

structure Requested (invocations : List (Target × String)) (past : List (Turn Event))
    (state : Shared Invocation String Node) : Prop where
  accounted : Accounted Invocation.holding state
  party : ∀ (index : Nat) (invocation : Invocation), state.parties[index]? = some invocation →
    invocations[index]? = some (invocation.target, invocation.version)
  built : ∀ (index : Nat) (invocation : Invocation) (summary : Summary), state.parties[index]? = some invocation →
    invocation.stage.summary = some summary →
      ⟨index, .built summary⟩ ∈ past ∧ summary.archive = invocation.name .archive

theorem Invocation.built_named {invocation : Invocation} {present : String → Bool} {effect : Effect String Node}
    {stage : Stage} {summary other : Summary}
    (called : invocation.call present (.built summary) = some (effect, stage))
    (kept : stage.summary = some other) : summary.archive = invocation.name .archive := by
  obtain ⟨_, temporary, current, _⟩ := call_built called
  obtain ⟨target, version, stage'⟩ := invocation
  obtain rfl : stage' = .build temporary := current
  simp only [call] at called
  split at called
  · cases called
    cases kept
  · next names =>
    by_contra differs
    exact names (by simp [differs])

section
variable {invocations : List (Target × String)} {past : List (Turn Event)}
  {state next : Shared Invocation String Node} {turn : Turn Event}

theorem start_requested (directory : String → Option Node) :
    Requested invocations [] (start directory invocations) where
  accounted := (start_orderly directory invocations).accounted
  party index invocation found := by
    simp only [start, List.getElem?_map, Option.map_eq_some_iff] at found
    obtain ⟨_, there, rfl⟩ := found
    exact there
  built index invocation summary found about := by
    rw [start_party found] at about
    cases about

theorem Requested.step (requested : Requested invocations past state)
    (taken : publication.step state turn = some next) : Requested invocations (past ++ [turn]) next where
  accounted := Invocation.move_accounts.step requested.accounted taken
  party index invocation found := by
    rcases sharing_step_party taken found with ⟨_, there⟩ | ⟨rfl, before, effect, there, moved⟩
    · exact requested.party index invocation there
    · obtain ⟨stage, _, rfl⟩ := Invocation.move_eq_some moved
      exact requested.party _ before there
  built index invocation summary found about := by
    rcases sharing_step_party taken found with ⟨_, there⟩ | ⟨rfl, before, effect, there, moved⟩
    · have earlier := requested.built index invocation summary there about
      exact ⟨List.mem_append_left _ earlier.1, earlier.2⟩
    · obtain ⟨stage, called, rfl⟩ := Invocation.move_eq_some moved
      rw [Invocation.name_stage]
      rcases (Invocation.call_leads called).summary summary about with kept | now
      · have earlier := requested.built _ before summary there kept
        exact ⟨List.mem_append_left _ earlier.1, earlier.2⟩
      · rw [now] at called
        refine ⟨List.mem_append_right _ (List.mem_singleton.mpr ?_), Invocation.built_named called about⟩
        rw [← now]

end

/-- Behind every publication stand an archive of the sources of a candidate
that passed every gate, and the checksum of that archive under its name. -/
theorem published_truthful (python : Python) (directory : String → Option Node)
    (invocations : List (Target × String)) (turns : List (Turn Event)) (final : Shared Invocation String Node)
    (execution : publication.run (start directory invocations) turns = some final)
    (genuine : ∀ turn ∈ turns, Genuine python invocations turn) (index : Nat) (invocation : Invocation)
    (summary : Summary) (found : final.parties[index]? = some invocation)
    (ended : invocation.stage = .finished (.published summary)) :
    ∃ world sources candidate, Passes python world invocation.target.text sources ∧
      Truthful python sources candidate ∧
      final.store (invocation.name .archive) = some ⟨.file (python.zip candidate.entries), some index⟩ ∧
      final.store (invocation.name .sidecar) = some ⟨.file (encodeUtf8
        (python.sha256 (python.zip candidate.entries) ++ "  " ++ invocation.name .archive ++ "\n").toList), some index⟩ := by
  have requested : Requested invocations turns final :=
    publication.run_preserves_history (fun _ _ _ _ requested taken => requested.step taken)
      (start_requested directory) execution
  have about : invocation.stage.summary = some summary := by
    rw [ended]
    rfl
  have published : ∀ part, final.store (invocation.name part) = some ⟨.file (summary.bytes part), some index⟩ := by
    intro part
    rw [← owned_eq_some, requested.accounted index invocation found, Invocation.holding_name, ended]
    rfl
  obtain ⟨built, name⟩ := requested.built index invocation summary found about
  obtain ⟨world, candidate, made, rfl⟩ := genuine _ built summary invocation.target invocation.version rfl
    (requested.party index invocation found)
  obtain ⟨sources, passes, rfl⟩ := buildReleaseCandidate_eq_ok.mp made
  refine ⟨world, sources, _, passes, truthful python sources passes.early (sourceDateEpoch_nonneg passes.epoch),
    published .archive, ?_⟩
  rw [published .sidecar, ← name]
  rfl

def plainCalls : List Event :=
  [.returned, .returned, .returned, .named ⟨".electrum-private-relay-candidate-1", rfl⟩,
    .built (plainSources.candidate plainPython).files] ++ List.replicate 21 .returned

theorem plainCalls_publish : ((publication.run (start (fun _ => none) [(.linux, "0.1.0")])
    (plainCalls.map (⟨0, ·⟩))).map fun final => final.parties[0]?) =
      some (some ⟨.linux, "0.1.0", .finished (.published (plainSources.candidate plainPython).files)⟩) := by
  decide +kernel

theorem plainCalls_genuine :
    ∀ turn ∈ plainCalls.map (⟨0, ·⟩), Genuine plainPython [(.linux, "0.1.0")] turn := by
  intro turn member summary target version built requested
  obtain ⟨call, called, rfl⟩ := List.mem_map.mp member
  obtain rfl : call = .built summary := built
  obtain rfl : summary = (plainSources.candidate plainPython).files := by
    simpa [plainCalls] using called
  obtain ⟨rfl, rfl⟩ : Target.linux = target ∧ "0.1.0" = version := by simpa using requested
  exact ⟨plainWorld "/home/one", _, built_of_passes (plainWorld_passes "/home/one"), rfl⟩

theorem published_truthful_plain : ∃ final invocation summary,
    publication.run (start (fun _ => none) [(.linux, "0.1.0")]) (plainCalls.map (⟨0, ·⟩)) = some final ∧
      (∀ turn ∈ plainCalls.map (⟨0, ·⟩), Genuine plainPython [(.linux, "0.1.0")] turn) ∧
      final.parties[0]? = some invocation ∧ invocation.stage = .finished (.published summary) ∧
      ∃ world sources candidate, Passes plainPython world invocation.target.text sources ∧
        Truthful plainPython sources candidate ∧
        final.store (invocation.name .archive) = some ⟨.file (plainPython.zip candidate.entries), some 0⟩ ∧
        final.store (invocation.name .sidecar) = some ⟨.file (encodeUtf8
          (plainPython.sha256 (plainPython.zip candidate.entries) ++ "  " ++ invocation.name .archive ++ "\n").toList),
          some 0⟩ := by
  obtain ⟨final, execution, found⟩ := Option.map_eq_some_iff.mp plainCalls_publish
  exact ⟨final, _, _, execution, plainCalls_genuine, found, rfl,
    published_truthful plainPython _ _ _ final execution plainCalls_genuine 0 _ _ found rfl⟩

end ElectrumPrivateRelay.Release

import ElectrumPrivateRelay.Release.Gates

/-! What a release candidate says of its sources.

The archive is the same on any two machines that agree on the sources, and it
tells any two sources apart.
-/

set_option autoImplicit false

namespace ElectrumPrivateRelay.Release
open Semantics Json

theorem read_deterministicJson (value : Datum) : read (deterministicJson value) = some value.canonical.toTree :=
  read_dump value.canonical 0

theorem deterministicJson_ascii (value : Datum) : ∀ byte ∈ deterministicJson value, byte < 0x80 :=
  encodeUtf8_ascii ((dump_ascii value.canonical 0).append (.cons (by decide) (by simp [IsAscii])))

theorem deterministicJson_eq_iff {left right : Datum} (first : left.KeysDistinct) (second : right.KeysDistinct) :
    deterministicJson left = deterministicJson right ↔ left.SameAs right := by
  rw [sameAs_iff_canonical left right first second]
  constructor
  · exact dump_injective
  · intro same
    rw [deterministicJson, deterministicJson, dumps, dumps, same]

/-- The text is plain ASCII, reading it gives the value up to the order of
members, and two values have one text exactly when that order is all that
tells them apart. -/
theorem deterministicJson_canonical (left right : Datum) (first : left.KeysDistinct) (second : right.KeysDistinct) :
    (∃ value : Datum, read (deterministicJson left) = some value.toTree ∧ left.SameAs value) ∧
      (∀ byte ∈ deterministicJson left, byte < 0x80) ∧
      (deterministicJson left = deterministicJson right ↔ left.SameAs right) :=
  ⟨⟨left.canonical, read_deterministicJson left, sameAs_canonical left first⟩, deterministicJson_ascii left,
    deterministicJson_eq_iff first second⟩

theorem deterministicJson_canonical_reordered :
    let left := Datum.dict [("schema", .str "v1"), ("commit", .str "\u00e9"), ("flags", .list [.int (-1), .none])]
    let right := Datum.dict [("flags", .list [.int (-1), .none]), ("schema", .str "v1"), ("commit", .str "\u00e9")]
    left.KeysDistinct ∧ right.KeysDistinct ∧
      (∃ value : Datum, read (deterministicJson left) = some value.toTree ∧ left.SameAs value) ∧
      (∀ byte ∈ deterministicJson left, byte < 0x80) ∧
      (deterministicJson left = deterministicJson right ↔ left.SameAs right) := by
  intro left right
  have first : left.KeysDistinct := by
    simp [left, Datum.KeysDistinct, MembersDistinct, ElementsDistinct]
  have second : right.KeysDistinct := by
    simp [right, Datum.KeysDistinct, MembersDistinct, ElementsDistinct]
  exact ⟨first, second, deterministicJson_canonical left right first second⟩

theorem metadata_distinct (python : Python) (sources : Sources) : (sources.metadata python).KeysDistinct := by
  have flags : ElementsDistinct (if isWindowsMsvcTarget sources.target then [.str "/Brepro"] else []) := by
    split <;> simp [ElementsDistinct, Datum.KeysDistinct]
  simp only [Sources.metadata, buildMetadata, Datum.KeysDistinct, MembersDistinct, Checks.datum, List.map_cons,
    List.map_nil, flags, and_self, and_true]
  decide

structure Agree (left right : Sources) : Prop where
  target : left.target = right.target
  version : left.version = right.version
  commit : left.commit = right.commit
  rustc : left.rustc = right.rustc
  cargo : left.cargo = right.cargo
  epoch : left.epoch = right.epoch
  binary : left.binary = right.binary
  documents : ∀ document ∈ packageDocuments, left.document document = right.document document

theorem target_of_text {left right : Target} (same : left.text = right.text) : left = right := by
  cases left <;> cases right <;> first | rfl | exact absurd same (by decide)

theorem metadata_sameAs {python : Python} {left right : Sources}
    (same : (left.metadata python).SameAs (right.metadata python)) :
    left.target = right.target ∧ left.version = right.version ∧ left.commit = right.commit ∧
      left.rustc = right.rustc ∧ left.cargo = right.cargo ∧ left.epoch = right.epoch := by
  have distinct := metadata_distinct python right
  rw [Sources.metadata, Sources.metadata, buildMetadata, buildMetadata] at same
  have version := sameAs_of_members same distinct 2 2 rfl rfl
  have commit := sameAs_of_members same distinct 3 3 rfl rfl
  have target := sameAs_of_members same distinct 4 4 rfl rfl
  have epoch := sameAs_of_members same distinct 5 5 rfl rfl
  have rustc := sameAs_of_members same distinct 8 8 rfl rfl
  have cargo := sameAs_of_members same distinct 9 9 rfl rfl
  exact ⟨target_of_text target, version, commit, rustc, cargo, epoch⟩

theorem entries_eq_iff (python : Python) (left right : Sources) :
    left.entries python = right.entries python ↔ Agree left right := by
  constructor
  · intro same
    simp only [Sources.entries, Sources.contents, packedEntries, packedMembers, List.map_cons, List.map_nil,
      List.cons.injEq, ZipEntry.mk.injEq] at same
    obtain ⟨⟨_, metadata, _⟩, ⟨_, license, _⟩, ⟨_, readme, _⟩, ⟨_, security, _⟩, ⟨_, scope, _⟩, ⟨_, builds, _⟩,
      ⟨_, architecture, _⟩, ⟨_, adapters, _⟩, ⟨_, testing, _⟩, ⟨_, tor, _⟩, ⟨_, binary, _⟩, _⟩ := same
    rw [deterministicJson_eq_iff (metadata_distinct python left) (metadata_distinct python right)] at metadata
    obtain ⟨target, version, commit, rustc, cargo, epoch⟩ := metadata_sameAs metadata
    refine ⟨target, version, commit, rustc, cargo, epoch, binary, ?_⟩
    simp only [packageDocuments, List.forall_mem_cons]
    exact ⟨readme, security, license, scope, builds, architecture, adapters, testing, tor, by simp⟩
  · intro agree
    have metadata : left.metadata python = right.metadata python := by
      simp only [Sources.metadata, Sources.checks, agree.target, agree.version, agree.commit, agree.rustc, agree.cargo,
        agree.epoch, agree.binary]
    simp only [Sources.entries, Sources.contents, Sources.stem, Sources.stamp, metadata, agree.target, agree.version,
      agree.epoch, agree.binary, packedMembers_congr agree.documents]

theorem candidate_of_agree {left right : Sources} (python : Python) (agree : Agree left right) :
    left.candidate python = right.candidate python := by
  have entries := (entries_eq_iff python left right).mpr agree
  simp only [Sources.candidate, Sources.checksum, Sources.archiveName, Sources.stem, entries, agree.target,
    agree.version, agree.binary]

/-- Two machines hold the same sources for a target. -/
structure SameSources (python : Python) (left right : World) (target : Target) : Prop where
  version : packageVersion left = packageVersion right
  epoch : sourceDateEpoch python left = sourceDateEpoch python right
  commit : commandOutput left ["git", "rev-parse", "HEAD"] = commandOutput right ["git", "rev-parse", "HEAD"]
  rustc : commandOutput left ["rustc", "--version", "--verbose"] =
    commandOutput right ["rustc", "--version", "--verbose"]
  cargo : commandOutput left ["cargo", "--version", "--verbose"] =
    commandOutput right ["cargo", "--version", "--verbose"]
  binary : left.file (binaryPath target left.firstDirectory) = right.file (binaryPath target right.firstDirectory)
  documents : ∀ document ∈ packageDocuments,
    left.file (left.root ++ "/" ++ document) = right.file (right.root ++ "/" ++ document)

theorem agree_iff_sameSources {python : Python} {left right : World} {first second : Target}
    {ours theirs : Sources} (here : Passes python left first.text ours) (there : Passes python right second.text theirs) :
    Agree ours theirs ↔ first = second ∧ SameSources python left right first := by
  have target := target_of_text here.target
  have other := target_of_text there.target
  constructor
  · intro agree
    refine ⟨target.symm.trans (agree.target.trans other), ⟨?_, ?_, ?_, ?_, ?_, ?_, ?_⟩⟩
    · rw [here.version, there.version, agree.version]
    · rw [here.epoch, there.epoch, agree.epoch]
    · rw [here.commit, there.commit, agree.commit]
    · rw [here.rustc, there.rustc, agree.rustc]
    · rw [here.cargo, there.cargo, agree.cargo]
    · rw [← target, here.first.binary, agree.target, there.first.binary, agree.binary]
    · intro document member
      rw [here.documents document member, there.documents document member, agree.documents document member]
  · rintro ⟨rfl, same⟩
    have version := same.version
    have epoch := same.epoch
    have commit := same.commit
    have rustc := same.rustc
    have cargo := same.cargo
    have binary := same.binary
    rw [here.version, there.version, Except.ok.injEq] at version
    rw [here.epoch, there.epoch, Except.ok.injEq] at epoch
    rw [here.commit, there.commit, Except.ok.injEq] at commit
    rw [here.rustc, there.rustc, Except.ok.injEq] at rustc
    rw [here.cargo, there.cargo, Except.ok.injEq] at cargo
    rw [← target, here.first.binary, target, ← other, there.first.binary, Option.some.injEq] at binary
    refine ⟨target.trans other.symm, version, commit, rustc, cargo, epoch, binary, ?_⟩
    intro document member
    have content := same.documents document member
    rw [here.documents document member, there.documents document member, Option.some.injEq] at content
    exact content

/-- Two machines pack the same members exactly when they hold the same
sources, and then the archive, the checksum and the report are the same: the
directories, the environment and the rest of a machine leave no trace. -/
theorem candidate_reproducible {python : Python} {left right : World} {first second : Target}
    {ours theirs : Candidate} (here : buildReleaseCandidate python left first.text = .ok ours)
    (there : buildReleaseCandidate python right second.text = .ok theirs) :
    (ours.entries = theirs.entries ↔ first = second ∧ SameSources python left right first) ∧
      (ours.entries = theirs.entries → ours = theirs) := by
  obtain ⟨sources, passes, rfl⟩ := buildReleaseCandidate_eq_ok.mp here
  obtain ⟨others, passes', rfl⟩ := buildReleaseCandidate_eq_ok.mp there
  have same := entries_eq_iff python sources others
  exact ⟨same.trans (agree_iff_sameSources passes passes'),
    fun equal => candidate_of_agree python (same.mp equal)⟩

def plainPython : Python where
  sha256 _ := "e3b0c44298fc1c149afbf4c8996fb92427ae41e4649b934ca495991b7852b855"
  zip entries := [80, 75, 3, 4, .ofNat entries.length]
  repr text := "'" ++ text ++ "'"
  int text := if text = "1704165845" then some 1704165845 else none

def plainWorld (home : String) : World where
  root := home ++ "/relay"
  output := home ++ "/dist"
  firstDirectory := home ++ "/build-a"
  secondDirectory := home ++ "/build-b"
  environ := [("HOME", home), ("EPR_LISTEN", "0.0.0.0:1")]
  manifest := some (.dict [("package", .dict [("name", .str packageName), ("version", .str "0.1.0")])])
  run command _ := .finished 0
    (match command.tail with
      | ["show", "-s", "--format=%ct", "HEAD"] => "1704165845\n"
      | ["rev-parse", "HEAD"] => "1111111111111111111111111111111111111111\n"
      | ["--version", "--verbose"] => "release: 1.85.0\n"
      | ["--version"] => "electrum-private-relay 0.1.0\n"
      | ["--check-config"] => configCheckOutput ++ "\n"
      | _ => "") ""
  file _ := some []
  writable _ := true

def plainSources : Sources where
  target := .linux
  version := "0.1.0"
  commit := "1111111111111111111111111111111111111111"
  rustc := "release: 1.85.0"
  cargo := "release: 1.85.0"
  epoch := 1704165845
  binary := []
  document _ := []

theorem plainWorld_passes (home : String) : Passes plainPython (plainWorld home) Target.linux.text plainSources := by
  have version : strip "electrum-private-relay 0.1.0\n" = packageName ++ " " ++ "0.1.0" := by decide +kernel
  have config : strip (configCheckOutput ++ "\n") = configCheckOutput := by decide +kernel
  have commit : strip "1111111111111111111111111111111111111111\n" = plainSources.commit := by decide +kernel
  have release : strip "release: 1.85.0\n" = "release: 1.85.0" := by decide +kernel
  have epoch : strip "1704165845\n" = "1704165845" := by decide +kernel
  have checked : ∀ directory, Builds (plainWorld home) plainSources directory := by
    intro directory
    exact ⟨⟨_, _, rfl⟩, rfl, ⟨_, rfl, version⟩, ⟨_, rfl, config⟩⟩
  refine ⟨rfl, rfl, ?_, congrArg Except.ok commit, congrArg Except.ok release, congrArg Except.ok release, checked _,
    checked _, fun _ _ => rfl, by decide +kernel, rfl, rfl, ?_⟩
  · have value : commandOutput (plainWorld home) ["git", "show", "-s", "--format=%ct", "HEAD"] = .ok "1704165845" :=
      congrArg Except.ok epoch
    rw [sourceDateEpoch, value]
    rfl
  · rw [← all_ascii_iff]
    decide +kernel

theorem candidate_reproducible_elsewhere :
    ∃ ours theirs, buildReleaseCandidate plainPython (plainWorld "/home/one") Target.linux.text = .ok ours ∧
      buildReleaseCandidate plainPython (plainWorld "/tmp/two") Target.linux.text = .ok theirs ∧
      (ours.entries = theirs.entries ↔ Target.linux = Target.linux ∧
        SameSources plainPython (plainWorld "/home/one") (plainWorld "/tmp/two") .linux) ∧
      (ours.entries = theirs.entries → ours = theirs) := by
  have here := built_of_passes (plainWorld_passes "/home/one")
  have there := built_of_passes (plainWorld_passes "/tmp/two")
  exact ⟨_, _, here, there, candidate_reproducible here there⟩

end ElectrumPrivateRelay.Release

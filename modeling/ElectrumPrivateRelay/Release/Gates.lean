import ElectrumPrivateRelay.Release.Packaging

/-! When a release candidate is made, and what it is made of.

Every gate of the script is a condition on the machine it runs on. Behind the
gates the candidate is a function of its sources: the executable, the
documents, the commit and the toolchain.
-/

set_option autoImplicit false

namespace ElectrumPrivateRelay.Release
open Semantics Json

/-- The packed files below the directory of the candidate, in their order. -/
def packedMembers (target : Target) (binary : List UInt8) (metadata : Datum) (document : String → List UInt8) :
    List Member :=
  [⟨"BUILD-METADATA.json", deterministicJson metadata, 0o644⟩,
    ⟨"LICENSE", document "LICENSE", 0o644⟩,
    ⟨"README.md", document "README.md", 0o644⟩,
    ⟨"SECURITY.md", document "SECURITY.md", 0o644⟩,
    ⟨"docs/AUDIT_SCOPE.md", document "docs/AUDIT_SCOPE.md", 0o644⟩,
    ⟨"docs/REPRODUCIBLE_BUILDS.md", document "docs/REPRODUCIBLE_BUILDS.md", 0o644⟩,
    ⟨"docs/architecture.md", document "docs/architecture.md", 0o644⟩,
    ⟨"docs/relay-adapters.md", document "docs/relay-adapters.md", 0o644⟩,
    ⟨"docs/testing.md", document "docs/testing.md", 0o644⟩,
    ⟨"docs/tor.md", document "docs/tor.md", 0o644⟩,
    ⟨executableName target, binary, 0o755⟩]

def packedEntries (stem : String) (stamp : Nat × Nat) (members : List Member) : List ZipEntry :=
  members.map fun member =>
    ⟨stem ++ "/" ++ member.name, member.data, stamp, (0o100000 ||| member.mode) <<< 16⟩

theorem append_lt_append (stem : String) {left right : String} (ordered : left < right) :
    stem ++ left < stem ++ right := by
  rw [String.lt_iff, String.toList_append, String.toList_append]
  exact List.append_left_lt ordered

theorem append_le_append_iff (stem left right : String) : stem ++ left ≤ stem ++ right ↔ left ≤ right := by
  constructor
  · intro ordered
    rw [← String.not_lt]
    intro reversed
    exact String.not_lt.mpr ordered (append_lt_append stem reversed)
  · intro ordered
    by_cases same : left = right
    · rw [same]
    · have strict : left < right := by
        rw [← String.not_le]
        intro reversed
        exact same (String.le_antisymm ordered reversed)
      rw [← String.not_lt]
      exact String.lt_asymm (append_lt_append stem strict)

theorem executableName_cases (target : Target) :
    executableName target = "electrum-private-relay" ∨ executableName target = "electrum-private-relay.exe" := by
  cases target with
  | linux => exact .inl (by decide +kernel)
  | macos => exact .inl (by decide +kernel)
  | windows => exact .inr (by decide +kernel)

theorem sorted_members (stem : String) (target : Target) (binary : List UInt8) (metadata : Datum)
    (document : String → List UInt8) :
    ((⟨stem ++ "/" ++ executableName target, binary, 0o755⟩ : Member) ::
        ⟨stem ++ "/" ++ "BUILD-METADATA.json", deterministicJson metadata, 0o644⟩ ::
        packageDocuments.map fun name => ⟨stem ++ "/" ++ name, document name, 0o644⟩).insertionSort
      (fun left right => left.name ≤ right.name) =
    (packedMembers target binary metadata document).map fun member =>
      ⟨stem ++ "/" ++ member.name, member.data, member.mode⟩ := by
  have order := List.map_insertionSort (fun left right : Member => left.name ≤ right.name)
    (fun left right : Member => left.name ≤ right.name)
    (fun member => ⟨stem ++ "/" ++ member.name, member.data, member.mode⟩)
    (⟨executableName target, binary, 0o755⟩ :: ⟨"BUILD-METADATA.json", deterministicJson metadata, 0o644⟩ ::
      packageDocuments.map fun name => ⟨name, document name, 0o644⟩)
    (fun left _ right _ => (append_le_append_iff (stem ++ "/") left.name right.name).symm)
  have relative : (⟨executableName target, binary, 0o755⟩ ::
      ⟨"BUILD-METADATA.json", deterministicJson metadata, 0o644⟩ ::
      packageDocuments.map fun name => (⟨name, document name, 0o644⟩ : Member)).insertionSort
        (fun left right => left.name ≤ right.name) = packedMembers target binary metadata document := by
    rcases executableName_cases target with name | name
    · simp [packageDocuments, packedMembers, name, List.orderedInsert]
    · simp [packageDocuments, packedMembers, name, List.orderedInsert]
  rw [relative] at order
  rw [order]
  simp only [List.map_cons, List.map_map]
  rfl

/-- What a candidate is made from. -/
structure Sources where
  target : Target
  version : String
  commit : String
  rustc : String
  cargo : String
  epoch : Int
  binary : List UInt8
  document : String → List UInt8

namespace Sources

variable (python : Python) (sources : Sources)

def checks : Checks := ⟨packageName ++ " " ++ sources.version, configCheckOutput, true⟩

def metadata : Datum :=
  buildMetadata sources.target sources.version sources.commit sources.rustc sources.cargo
    (python.sha256 sources.binary) sources.epoch sources.checks

def stem : String := candidateStem sources.target sources.version

def stamp : Nat × Nat := ((normalizedZipDatetime sources.epoch).bind packStamp).getD (0, 0)

def contents : List Member :=
  packedMembers sources.target sources.binary (sources.metadata python) sources.document

def entries : List ZipEntry := packedEntries sources.stem sources.stamp (sources.contents python)

def archiveName : String := sources.stem ++ ".zip"

def checksum : String :=
  python.sha256 (python.zip (sources.entries python)) ++ "  " ++ pathName sources.archiveName ++ "\n"

def candidate : Candidate where
  entries := sources.entries python
  files := ⟨pathName sources.archiveName, pathName sources.archiveName ++ ".sha256",
    python.zip (sources.entries python), encodeUtf8 (sources.checksum python).toList⟩
  report := .dict [("schema", .str metadataSchema), ("target", .str sources.target.text),
    ("archive", .str (pathName sources.archiveName)),
    ("archive_sha256", .str (python.sha256 (python.zip (sources.entries python)))),
    ("checksum_file", .str (pathName sources.archiveName ++ ".sha256")),
    ("binary_sha256", .str (python.sha256 sources.binary)), ("same_runner_double_build", .bool true),
    ("packaged_checks_passed", .bool true)]

end Sources

theorem bind_eq_ok {α β : Type} {attempt : Attempt α} {next : α → Attempt β} {result : β} :
    (attempt >>= next) = .ok result ↔ ∃ value, attempt = .ok value ∧ next value = .ok result := by
  cases attempt with
  | ok value => simp [bind, Except.bind]
  | error failure => simp [bind, Except.bind]

theorem runChecked_eq_ok {world : World} {command : List String} {environment : Option Environment} {captured : Bool}
    {stdout stderr : String} :
    runChecked world command environment captured = .ok (stdout, stderr) ↔
      world.run command environment = .finished 0 stdout stderr := by
  unfold runChecked
  cases world.run command environment with
  | notFound => simp
  | raised => simp
  | finished returncode out err =>
    by_cases success : returncode = 0
    · simp [success]
    · simp [success]

theorem validateCleanOutput_eq_ok {python : Python} {label stdout stderr expected output : String} :
    validateCleanOutput python label stdout stderr expected = .ok output ↔
      stderr = "" ∧ strip stdout = expected ∧ output = expected := by
  unfold validateCleanOutput
  by_cases silent : stderr = ""
  · by_cases same : strip stdout = expected
    · simp [silent, same, eq_comm]
    · simp [silent, same]
  · simp [silent]

/-- The command succeeds without a word on standard error and prints this text. -/
def Answers (world : World) (command : List String) (text : String) : Prop :=
  ∃ stdout, world.run command (packagedRuntimeEnvironment world.environ) = .finished 0 stdout "" ∧ strip stdout = text

theorem runPackagedChecks_eq_ok {python : Python} {world : World} {binary version : String} {checks : Checks} :
    runPackagedChecks python world binary version = .ok checks ↔
      Answers world [binary, "--version"] (packageName ++ " " ++ version) ∧
        Answers world [binary, "--check-config"] configCheckOutput ∧
        checks = ⟨packageName ++ " " ++ version, configCheckOutput, true⟩ := by
  simp only [runPackagedChecks, bind_eq_ok, Prod.exists, runChecked_eq_ok, validateCleanOutput_eq_ok, Answers]
  constructor
  · rintro ⟨out, err, ran, _, ⟨rfl, same, rfl⟩, out', err', ran', _, ⟨rfl, same', rfl⟩, made⟩
    exact ⟨⟨out, ran, same⟩, ⟨out', ran', same'⟩, (Except.ok.inj made).symm⟩
  · rintro ⟨⟨out, ran, same⟩, ⟨out', ran', same'⟩, rfl⟩
    exact ⟨out, "", ran, _, ⟨rfl, same, rfl⟩, out', "", ran', _, ⟨rfl, same', rfl⟩, rfl⟩

theorem buildBinary_eq_ok {world : World} {target : Target} {directory path : String} {epoch : Int} :
    buildBinary world target directory epoch = .ok path ↔
      (∃ stdout stderr, world.run ["cargo", "build", "--release", "--locked", "--target", target.text]
        (buildEnvironment target directory epoch world.environ) = .finished 0 stdout stderr) ∧
      (∃ data, world.file (binaryPath target directory) = some data) ∧ path = binaryPath target directory := by
  simp only [buildBinary, bind_eq_ok, Prod.exists, runChecked_eq_ok]
  cases found : world.file (binaryPath target directory) with
  | none => simp
  | some data => simp [pure, Except.pure, eq_comm]

theorem readBytes_eq_ok {world : World} {path : String} {data : List UInt8} :
    readBytes world path = .ok data ↔ world.file path = some data := by
  unfold readBytes
  cases world.file path with
  | none => simp
  | some found => simp

theorem validateTarget_eq_ok {python : Python} {text : String} {target : Target} :
    validateTarget python text = .ok target ↔ target.text = text := by
  unfold validateTarget
  constructor
  · intro valid
    split at valid
    · next supported found =>
      obtain rfl := Except.ok.inj valid
      simpa using List.find?_some found
    · cases valid
  · rintro rfl
    cases target <;> rfl

def World.document (world : World) (document : String) : List UInt8 :=
  (world.file (world.root ++ "/" ++ document)).getD []

theorem mapM_packDocument (world : World) (stem : String) (documents : List String) (members : List Member) :
    documents.mapM (packDocument world stem) = .ok members ↔
      (∀ document ∈ documents, (world.file (world.root ++ "/" ++ document)).isSome) ∧
        members = documents.map fun document => ⟨stem ++ "/" ++ document, world.document document, 0o644⟩ := by
  induction documents generalizing members with
  | nil =>
    rw [List.mapM_nil]
    constructor
    · intro made
      exact ⟨by simp, (Except.ok.inj made).symm⟩
    · rintro ⟨_, rfl⟩
      rfl
  | cons document rest ih =>
    rw [List.mapM_cons, bind_eq_ok, List.forall_mem_cons, List.map_cons, packDocument, World.document]
    cases found : world.file (world.root ++ "/" ++ document) with
    | none => simp
    | some data =>
      simp only [Except.ok.injEq, exists_eq_left', bind_eq_ok, ih, Option.isSome_some, true_and, Option.getD_some]
      constructor
      · rintro ⟨others, ⟨all, rfl⟩, made⟩
        exact ⟨all, (Except.ok.inj made).symm⟩
      · rintro ⟨all, rfl⟩
        exact ⟨_, ⟨all, rfl⟩, rfl⟩

theorem mapM_writeZipEntry {timestamp : Instant} {stamp : Nat × Nat} (packed : packStamp timestamp = some stamp)
    (members : List Member) :
    members.mapM (fun member => writeZipEntry member.name member.data timestamp member.mode) =
      .ok (members.map fun member => ⟨member.name, member.data, stamp, (0o100000 ||| member.mode) <<< 16⟩) := by
  induction members with
  | nil => rfl
  | cons member rest ih =>
    rw [List.mapM_cons, ih, writeZipEntry, packed]
    rfl

theorem createArchive_eq_ok {world : World} {binary : List UInt8} {target : Target} {version path : String}
    {epoch : Int} {metadata : Datum} {entries : List ZipEntry} :
    createArchive world binary (executableName target) target version epoch metadata path = .ok entries ↔
      ∃ stamp, (normalizedZipDatetime epoch).bind packStamp = some stamp ∧
        (∀ document ∈ packageDocuments, (world.file (world.root ++ "/" ++ document)).isSome) ∧
        world.writable path = true ∧
        entries = packedEntries (candidateStem target version) stamp
          (packedMembers target binary metadata world.document) := by
  unfold createArchive
  cases normalizedZipDatetime epoch with
  | none => simp
  | some timestamp =>
    simp only [bind_eq_ok, mapM_packDocument, Option.bind_some]
    have written : ∀ {stamp}, packStamp timestamp = some stamp →
        ((packedMembers target binary metadata world.document).map fun member =>
            (⟨candidateStem target version ++ "/" ++ member.name, member.data, member.mode⟩ : Member)).mapM
          (fun member => writeZipEntry member.name member.data timestamp member.mode) =
        .ok (packedEntries (candidateStem target version) stamp
          (packedMembers target binary metadata world.document)) := by
      intro stamp packed
      rw [mapM_writeZipEntry packed, packedEntries, List.map_map]
      rfl
    constructor
    · rintro ⟨documents, ⟨all, rfl⟩, made⟩
      rw [sorted_members] at made
      split at made
      · next writable =>
        cases packed : packStamp timestamp with
        | none => simp [packedMembers, writeZipEntry, packed, bind, Except.bind] at made
        | some stamp =>
          rw [written packed] at made
          exact ⟨stamp, rfl, all, writable, (Except.ok.inj made).symm⟩
      · cases made
    · rintro ⟨stamp, packed, all, writable, rfl⟩
      refine ⟨_, ⟨all, rfl⟩, ?_⟩
      rw [sorted_members, if_pos writable, written packed]

/-- One of the two builds gives the executable of the sources, and it passes its checks. -/
structure Builds (world : World) (sources : Sources) (directory : String) : Prop where
  cargo : ∃ stdout stderr, world.run ["cargo", "build", "--release", "--locked", "--target", sources.target.text]
    (buildEnvironment sources.target directory sources.epoch world.environ) = .finished 0 stdout stderr
  binary : world.file (binaryPath sources.target directory) = some sources.binary
  version : Answers world [binaryPath sources.target directory, "--version"] (packageName ++ " " ++ sources.version)
  config : Answers world [binaryPath sources.target directory, "--check-config"] configCheckOutput

/-- What an invocation has to find to make a candidate of the sources. -/
structure Passes (python : Python) (world : World) (target : String) (sources : Sources) : Prop where
  target : sources.target.text = target
  version : packageVersion world = .ok sources.version
  epoch : sourceDateEpoch python world = .ok sources.epoch
  commit : commandOutput world ["git", "rev-parse", "HEAD"] = .ok sources.commit
  rustc : commandOutput world ["rustc", "--version", "--verbose"] = .ok sources.rustc
  cargo : commandOutput world ["cargo", "--version", "--verbose"] = .ok sources.cargo
  first : Builds world sources world.firstDirectory
  second : Builds world sources world.secondDirectory
  documents : ∀ document ∈ packageDocuments,
    world.file (world.root ++ "/" ++ document) = some (sources.document document)
  early : sources.epoch < Instant.yearStart 2108
  archive : world.writable (world.output ++ "/" ++ sources.archiveName) = true
  sidecar : world.writable (world.output ++ "/" ++ sources.archiveName ++ ".sha256") = true
  ascii : IsAscii (sources.checksum python).toList

theorem sourceDateEpoch_nonneg {python : Python} {world : World} {epoch : Int}
    (found : sourceDateEpoch python world = .ok epoch) : 0 ≤ epoch := by
  obtain ⟨value, _, parsed⟩ := bind_eq_ok.mp found
  split at parsed
  · cases parsed
  · split at parsed
    · cases parsed
    · next value positive =>
      obtain rfl := Except.ok.inj parsed
      omega

theorem packedMembers_congr {target : Target} {binary : List UInt8} {metadata : Datum}
    {left right : String → List UInt8} (same : ∀ document ∈ packageDocuments, left document = right document) :
    packedMembers target binary metadata left = packedMembers target binary metadata right := by
  simp only [packageDocuments, List.forall_mem_cons, List.not_mem_nil, false_implies, implies_true, and_true] at same
  obtain ⟨readme, security, license, scope, builds, architecture, adapters, testing, tor⟩ := same
  simp only [packedMembers, readme, security, license, scope, builds, architecture, adapters, testing, tor]

theorem all_ascii_iff (text : List Char) : text.all (fun char => char.toNat < 0x80) = true ↔ IsAscii text := by
  simp [IsAscii]

theorem writeChecksumSidecar_eq_ok {python : Python} {world : World} {name : String} {archive : List UInt8}
    {sidecar : String × List UInt8} :
    writeChecksumSidecar python world name archive = .ok sidecar ↔
      world.writable (world.output ++ "/" ++ name ++ ".sha256") = true ∧
        IsAscii (python.sha256 archive ++ "  " ++ pathName name ++ "\n").toList ∧
        sidecar = (pathName name ++ ".sha256",
          encodeUtf8 (python.sha256 archive ++ "  " ++ pathName name ++ "\n").toList) := by
  simp only [writeChecksumSidecar]
  split
  · next both =>
    rw [Bool.and_eq_true, all_ascii_iff] at both
    rw [Except.ok.injEq]
    exact ⟨fun same => ⟨both.1, both.2, same.symm⟩, fun passed => passed.2.2.symm⟩
  · next refused =>
    rw [Bool.and_eq_true, all_ascii_iff] at refused
    constructor
    · intro made
      cases made
    · rintro ⟨writable, ascii, _⟩
      exact absurd ⟨writable, ascii⟩ refused

theorem passes_of_built {python : Python} {world : World} {target : String} {candidate : Candidate}
    (made : buildReleaseCandidate python world target = .ok candidate) :
    ∃ sources, Passes python world target sources := by
  simp only [buildReleaseCandidate, bind_eq_ok] at made
  obtain ⟨platform, valid, version, versionOk, epoch, epochOk, commit, commitOk, rustc, rustcOk, cargo, cargoOk,
    _, first, _, second, binary, firstRead, other, secondRead, made⟩ := made
  obtain ⟨firstRun, _, rfl⟩ := buildBinary_eq_ok.mp first
  obtain ⟨secondRun, _, rfl⟩ := buildBinary_eq_ok.mp second
  split at made
  · cases made
  next equal =>
  obtain rfl := not_not.mp equal
  simp only [bind_eq_ok] at made
  obtain ⟨checks, firstChecks, others, secondChecks, made⟩ := made
  obtain ⟨firstVersion, firstConfig, rfl⟩ := runPackagedChecks_eq_ok.mp firstChecks
  obtain ⟨secondVersion, secondConfig, rfl⟩ := runPackagedChecks_eq_ok.mp secondChecks
  rw [if_neg (not_not.mpr rfl)] at made
  simp only [bind_eq_ok] at made
  obtain ⟨entries, archived, sidecar, summed, _⟩ := made
  obtain ⟨stamp, stamped, documents, writable, rfl⟩ := createArchive_eq_ok.mp archived
  obtain ⟨writableSidecar, ascii, _⟩ := writeChecksumSidecar_eq_ok.mp summed
  let sources : Sources := ⟨platform, version, commit, rustc, cargo, epoch, binary, world.document⟩
  have packed : packedEntries (candidateStem platform version) stamp
      (packedMembers platform binary (sources.metadata python) world.document) = sources.entries python := by
    have stampOf : sources.stamp = stamp := by rw [Sources.stamp, stamped, Option.getD_some]
    rw [Sources.entries, stampOf]
    rfl
  refine ⟨sources, validateTarget_eq_ok.mp valid, versionOk, epochOk, commitOk, rustcOk, cargoOk,
    ⟨firstRun, readBytes_eq_ok.mp firstRead, firstVersion, firstConfig⟩,
    ⟨secondRun, readBytes_eq_ok.mp secondRead, secondVersion, secondConfig⟩, ?_,
    (packStamp_isSome (sourceDateEpoch_nonneg epochOk)).mp ⟨stamp, stamped⟩, writable, writableSidecar, ?_⟩
  · intro document member
    obtain ⟨data, found⟩ := Option.isSome_iff_exists.mp (documents document member)
    show _ = some (world.document document)
    rw [World.document, found, Option.getD_some]
  · rw [Sources.checksum, ← packed]
    exact ascii

theorem built_of_passes {python : Python} {world : World} {target : String} {sources : Sources}
    (passes : Passes python world target sources) :
    buildReleaseCandidate python world target = .ok (sources.candidate python) := by
  obtain ⟨valid, versionOk, epochOk, commitOk, rustcOk, cargoOk, first, second, documents, early, writable,
    writableSidecar, ascii⟩ := passes
  obtain ⟨stamp, stamped⟩ := (packStamp_isSome (sourceDateEpoch_nonneg epochOk)).mpr early
  have same : ∀ document ∈ packageDocuments, world.document document = sources.document document := by
    intro document member
    rw [World.document, documents document member, Option.getD_some]
  have archived : createArchive world sources.binary (executableName sources.target) sources.target sources.version
      sources.epoch (sources.metadata python) (world.output ++ "/" ++ sources.archiveName) =
        .ok (sources.entries python) := by
    refine createArchive_eq_ok.mpr ⟨stamp, stamped, ?_, writable, ?_⟩
    · intro document member
      rw [documents document member, Option.isSome_some]
    · rw [packedMembers_congr same, Sources.entries, Sources.stamp, stamped, Option.getD_some]
      rfl
  have summed := writeChecksumSidecar_eq_ok.mpr ⟨writableSidecar, ascii, rfl⟩
  have firstBuilt := buildBinary_eq_ok.mpr ⟨first.cargo, ⟨_, first.binary⟩, rfl⟩
  have secondBuilt := buildBinary_eq_ok.mpr ⟨second.cargo, ⟨_, second.binary⟩, rfl⟩
  have firstChecks := (@runPackagedChecks_eq_ok python).mpr ⟨first.version, first.config, rfl⟩
  have secondChecks := (@runPackagedChecks_eq_ok python).mpr ⟨second.version, second.config, rfl⟩
  simp only [buildReleaseCandidate, bind_eq_ok]
  refine ⟨_, validateTarget_eq_ok.mpr valid, _, versionOk, _, epochOk, _, commitOk, _, rustcOk, _, cargoOk,
    _, firstBuilt, _, secondBuilt, _, readBytes_eq_ok.mpr first.binary, _, readBytes_eq_ok.mpr second.binary, ?_⟩
  rw [if_neg (not_not.mpr rfl), bind_eq_ok]
  refine ⟨_, firstChecks, ?_⟩
  rw [bind_eq_ok]
  refine ⟨_, secondChecks, ?_⟩
  rw [if_neg (not_not.mpr rfl), bind_eq_ok]
  refine ⟨_, archived, ?_⟩
  rw [bind_eq_ok]
  exact ⟨_, summed, rfl⟩

/-- A candidate is made exactly when every gate lets the sources through, and
it is made of the sources alone. -/
theorem buildReleaseCandidate_eq_ok {python : Python} {world : World} {target : String} {candidate : Candidate} :
    buildReleaseCandidate python world target = .ok candidate ↔
      ∃ sources, Passes python world target sources ∧ candidate = sources.candidate python := by
  constructor
  · intro made
    obtain ⟨sources, passes⟩ := passes_of_built made
    rw [built_of_passes passes] at made
    exact ⟨sources, passes, (Except.ok.inj made).symm⟩
  · rintro ⟨sources, passes, rfl⟩
    exact built_of_passes passes

end ElectrumPrivateRelay.Release

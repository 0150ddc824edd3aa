import ElectrumPrivateRelay.Json.MemberOrder
import ElectrumPrivateRelay.Release.Environment
import ElectrumPrivateRelay.Release.ZipTimestamp

/-! Building and packaging one release candidate.

The program is built twice from clean directories, both executables are
compared and checked, and one of them is packed with the documents and with
a description of the build. Hashing and the bytes of an archive stand for
Python's own.
-/

set_option autoImplicit false

namespace ElectrumPrivateRelay.Release
open Semantics Json

/-- `ReleaseCandidateError`, or another exception. -/
inductive Failure where
  | releaseCandidate (message : String)
  | raised
  deriving DecidableEq, Repr

abbrev Attempt := Except Failure

structure ZipEntry where
  name : String
  data : List UInt8
  stamp : Nat × Nat
  externalAttr : Nat
  deriving DecidableEq, Repr

/-- What the script takes from Python. -/
structure Python where
  sha256 : List UInt8 → String
  zip : List ZipEntry → List UInt8
  repr : String → String
  /-- `none` where `int` raises `ValueError`. -/
  int : String → Option Int

inductive Execution where
  | notFound
  | raised
  | finished (returncode : Int) (stdout stderr : String)
  deriving DecidableEq, Repr

/-- The machine an invocation runs on. No command is run twice in the same
environment, and each file is read once, behind the commands that write it. -/
structure World where
  root : String
  output : String
  firstDirectory : String
  secondDirectory : String
  environ : Environment
  /-- The manifest, unless it cannot be read. -/
  manifest : Option Datum
  run : List String → Option Environment → Execution
  file : String → Option (List UInt8)
  writable : String → Bool

def runChecked (world : World) (command : List String) (environment : Option Environment) (captured : Bool) :
    Attempt (String × String) :=
  let printable := " ".intercalate command
  match world.run command environment with
  | .notFound => .error (.releaseCandidate ("required command not found: " ++ command.headD ""))
  | .raised => .error .raised
  | .finished returncode stdout stderr =>
    if returncode = 0 then .ok (stdout, stderr)
    else
      let detail := if captured then strip stderr else ""
      let suffix := if detail = "" then "" else ": " ++ detail
      .error (.releaseCandidate ("command failed with exit code " ++ toString returncode ++ ": " ++ printable ++ suffix))

def commandOutput (world : World) (command : List String) : Attempt String := do
  let (stdout, _) ← runChecked world command none true
  return strip stdout

/-- `value[key]`; `none` where it raises `KeyError` or `TypeError`. -/
def subscript (value : Datum) (key : String) : Option Datum :=
  match value with
  | .dict members => members.lookup key
  | _ => none

def packageVersion (world : World) : Attempt String :=
  match world.manifest with
  | none => .error .raised
  | some manifest =>
    match (subscript manifest "package").bind (subscript · "name"),
      (subscript manifest "package").bind (subscript · "version") with
    | some name, some version =>
      match name, version with
      | .str name, .str version =>
        if name = packageName then .ok version
        else .error (.releaseCandidate "Cargo.toml package identity is unexpected")
      | _, _ => .error (.releaseCandidate "Cargo.toml package identity is unexpected")
    | _, _ => .error (.releaseCandidate "Cargo.toml lacks package name/version")

def sourceDateEpoch (python : Python) (world : World) : Attempt Int := do
  let value ← commandOutput world ["git", "show", "-s", "--format=%ct", "HEAD"]
  match python.int value with
  | none => .error (.releaseCandidate "git returned an invalid commit timestamp")
  | some epoch =>
    if epoch < 0 then .error (.releaseCandidate "commit timestamp must not be negative") else .ok epoch

def supportedTargets : List Target := [.linux, .macos, .windows]

def validateTarget (python : Python) (target : String) : Attempt Target :=
  match supportedTargets.find? (·.text = target) with
  | some supported => .ok supported
  | none =>
    .error (.releaseCandidate ("unsupported release-candidate target " ++ python.repr target ++
      "; expected one of: " ++ ", ".intercalate (supportedTargets.map Target.text)))

def executableName (target : Target) : String :=
  if target.text.toList.tails.any ("windows".toList.isPrefixOf ·) then packageName ++ ".exe" else packageName

def binaryPath (target : Target) (directory : String) : String :=
  directory ++ "/" ++ target.text ++ "/release/" ++ executableName target

def buildBinary (world : World) (target : Target) (directory : String) (epoch : Int) : Attempt String := do
  let environment := buildEnvironment target directory epoch world.environ
  let _ ← runChecked world ["cargo", "build", "--release", "--locked", "--target", target.text] environment false
  let binary := binaryPath target directory
  if (world.file binary).isSome then return binary
  else .error (.releaseCandidate ("release binary was not created: " ++ binary))

def readBytes (world : World) (path : String) : Attempt (List UInt8) :=
  match world.file path with
  | some data => .ok data
  | none => .error .raised

def validateCleanOutput (python : Python) (label stdout stderr expected : String) : Attempt String :=
  if stderr ≠ "" then .error (.releaseCandidate (label ++ " unexpectedly wrote to stderr"))
  else if strip stdout ≠ expected then
    .error (.releaseCandidate (label ++ " output mismatch: expected " ++ python.repr expected ++ ", got " ++
      python.repr (strip stdout)))
  else .ok (strip stdout)

def configCheckOutput : String :=
  "configuration valid; no listener was bound and no network connection was opened"

structure Checks where
  versionOutput : String
  checkConfigOutput : String
  checkConfigPassed : Bool
  deriving DecidableEq, Repr

def Checks.datum (checks : Checks) : Datum :=
  .dict [("version_output", .str checks.versionOutput), ("check_config_output", .str checks.checkConfigOutput),
    ("check_config_passed", .bool checks.checkConfigPassed)]

def runPackagedChecks (python : Python) (world : World) (binary version : String) : Attempt Checks := do
  let environment := packagedRuntimeEnvironment world.environ
  let (stdout, stderr) ← runChecked world [binary, "--version"] environment true
  let versionOutput ← validateCleanOutput python "version check" stdout stderr (packageName ++ " " ++ version)
  let (stdout, stderr) ← runChecked world [binary, "--check-config"] environment true
  let configOutput ← validateCleanOutput python "configuration check" stdout stderr configCheckOutput
  return ⟨versionOutput, configOutput, true⟩

def deterministicJson (value : Datum) : List UInt8 := encodeUtf8 (dumps value ++ ['\n'])

def packageDocuments : List String :=
  ["README.md", "SECURITY.md", "LICENSE", "docs/AUDIT_SCOPE.md", "docs/REPRODUCIBLE_BUILDS.md",
    "docs/architecture.md", "docs/relay-adapters.md", "docs/testing.md", "docs/tor.md"]

/-- A regular file with these permissions. -/
def writeZipEntry (name : String) (data : List UInt8) (timestamp : Instant) (mode : Nat) : Attempt ZipEntry :=
  match packStamp timestamp with
  | some stamp => .ok ⟨name, data, stamp, (0o100000 ||| mode) <<< 16⟩
  | none => .error .raised

structure Member where
  name : String
  data : List UInt8
  mode : Nat
  deriving DecidableEq, Repr

def candidateStem (target : Target) (version : String) : String := packageName ++ "-v" ++ version ++ "-" ++ target.text

def packDocument (world : World) (stem document : String) : Attempt Member :=
  match world.file (world.root ++ "/" ++ document) with
  | some data => .ok ⟨stem ++ "/" ++ document, data, 0o644⟩
  | none => .error (.releaseCandidate ("required package document is missing: " ++ document))

def createArchive (world : World) (binaryData : List UInt8) (binaryName : String) (target : Target) (version : String)
    (epoch : Int) (metadata : Datum) (path : String) : Attempt (List ZipEntry) := do
  let stem := candidateStem target version
  match normalizedZipDatetime epoch with
  | none => .error .raised
  | some timestamp =>
    let documents ← packageDocuments.mapM (packDocument world stem)
    let members := ⟨stem ++ "/" ++ binaryName, binaryData, 0o755⟩ ::
      ⟨stem ++ "/" ++ "BUILD-METADATA.json", deterministicJson metadata, 0o644⟩ :: documents
    if world.writable path then
      (members.insertionSort fun left right => left.name ≤ right.name).mapM fun member =>
        writeZipEntry member.name member.data timestamp member.mode
    else .error .raised

def pathName (path : String) : String := .ofList (path.toList.rtakeWhile (· ≠ '/'))

def writeChecksumSidecar (python : Python) (world : World) (archiveName : String) (archive : List UInt8) :
    Attempt (String × List UInt8) :=
  let sidecar := pathName archiveName ++ ".sha256"
  let text := (python.sha256 archive ++ "  " ++ pathName archiveName ++ "\n").toList
  if world.writable (world.output ++ "/" ++ archiveName ++ ".sha256") && text.all (·.toNat < 0x80) then
    .ok (sidecar, encodeUtf8 text)
  else .error .raised

def metadataSchema : String := "electrum-private-relay/release-candidate/v1"

def buildMetadata (target : Target) (version commit rustc cargo binaryDigest : String) (epoch : Int)
    (checks : Checks) : Datum :=
  .dict [("schema", .str metadataSchema), ("package", .str packageName), ("version", .str version),
    ("commit", .str commit), ("target", .str target.text), ("source_date_epoch", .int epoch),
    ("binary_sha256", .str binaryDigest), ("same_runner_double_build", .bool true), ("rustc", .str rustc),
    ("cargo", .str cargo),
    ("linker_reproducibility_flags", .list (if isWindowsMsvcTarget target then [.str "/Brepro"] else [])),
    ("packaged_checks", checks.datum)]

/-- The packed members, the two files, and the summary that is printed. -/
structure Candidate where
  entries : List ZipEntry
  files : Summary
  report : Datum

def buildReleaseCandidate (python : Python) (world : World) (target : String) : Attempt Candidate := do
  let target ← validateTarget python target
  let version ← packageVersion world
  let epoch ← sourceDateEpoch python world
  let commit ← commandOutput world ["git", "rev-parse", "HEAD"]
  let rustc ← commandOutput world ["rustc", "--version", "--verbose"]
  let cargo ← commandOutput world ["cargo", "--version", "--verbose"]
  let firstBinary ← buildBinary world target world.firstDirectory epoch
  let secondBinary ← buildBinary world target world.secondDirectory epoch
  let firstData ← readBytes world firstBinary
  let secondData ← readBytes world secondBinary
  let firstDigest := python.sha256 firstData
  let secondDigest := python.sha256 secondData
  if firstData ≠ secondData then
    .error (.releaseCandidate ("same-runner clean release builds differ: first=" ++ firstDigest ++ " second=" ++
      secondDigest))
  else do
    let firstChecks ← runPackagedChecks python world firstBinary version
    let secondChecks ← runPackagedChecks python world secondBinary version
    if firstChecks ≠ secondChecks then
      .error (.releaseCandidate "the two release executables produced different packaged-check results")
    else do
      let metadata := buildMetadata target version commit rustc cargo firstDigest epoch firstChecks
      let archiveName := candidateStem target version ++ ".zip"
      let entries ← createArchive world firstData (executableName target) target version epoch metadata
        (world.output ++ "/" ++ archiveName)
      let archive := python.zip entries
      let (sidecar, checksum) ← writeChecksumSidecar python world archiveName archive
      return {
        entries
        files := ⟨pathName archiveName, sidecar, archive, checksum⟩
        report := .dict [("schema", .str metadataSchema), ("target", .str target.text),
          ("archive", .str (pathName archiveName)), ("archive_sha256", .str (python.sha256 archive)),
          ("checksum_file", .str sidecar), ("binary_sha256", .str firstDigest),
          ("same_runner_double_build", .bool true), ("packaged_checks_passed", .bool true)] }

end ElectrumPrivateRelay.Release

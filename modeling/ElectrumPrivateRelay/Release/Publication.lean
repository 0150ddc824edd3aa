import ElectrumPrivateRelay.Semantics.OwnedStore

/-! Create-once publication of a release candidate.

An invocation takes the lock of its target, builds into a private directory,
and copies the archive and its checksum into the output directory. Every call
to the file system is a step of its own, and where the source handles an
exception the call may raise one.
-/

set_option autoImplicit false

namespace ElectrumPrivateRelay.Release
open Semantics

def packageName : String := "electrum-private-relay"

/-- `SUPPORTED_TARGETS`. -/
inductive Target where
  | linux
  | macos
  | windows
  deriving DecidableEq, Repr

def Target.text : Target → String
  | .linux => "x86_64-unknown-linux-gnu"
  | .macos => "aarch64-apple-darwin"
  | .windows => "x86_64-pc-windows-msvc"

def candidateNames (target : Target) (version : String) : String × String :=
  let archive := packageName ++ "-v" ++ version ++ "-" ++ target.text ++ ".zip"
  (archive, archive ++ ".sha256")

def lockName (target : Target) : String := "." ++ packageName ++ "-" ++ target.text ++ ".lock"

def temporaryStem : String := "." ++ packageName ++ "-candidate-"

structure Temporary where
  name : String
  stem : temporaryStem.toList.isPrefixOf name.toList = true
  deriving DecidableEq, Repr

inductive Node where
  | file (content : List UInt8)
  | directory
  deriving DecidableEq, Repr

inductive Exception where
  | fileExists
  | other
  deriving DecidableEq, Repr

inductive Part where
  | archive
  | sidecar
  deriving DecidableEq, Repr

structure Summary where
  archive : String
  checksumFile : String
  archiveBytes : List UInt8
  sidecarBytes : List UInt8
  deriving DecidableEq, Repr

def Summary.bytes (summary : Summary) : Part → List UInt8
  | .archive => summary.archiveBytes
  | .sidecar => summary.sidecarBytes

/-- How an invocation ends. A failed one may have left one of the two files
behind, with what had been copied into it. -/
inductive Outcome where
  | published (summary : Summary)
  | failed (left : Option (Part × List UInt8))
  deriving DecidableEq, Repr

structure Work where
  temporary : Temporary
  summary : Summary
  deriving DecidableEq, Repr

/-- The call that an invocation makes next. Behind a failure stand the
exception and how much of the file was written, if it was created. -/
inductive Stage where
  | lock
  | requireAbsent (part : Part)
  | makeTemporary
  | build (temporary : Temporary)
  | requireAbsentAgain (part : Part) (work : Work)
  | openSource (part : Part) (work : Work)
  | create (part : Part) (work : Work)
  | copy (part : Part) (work : Work) (written : Nat)
  | flush (part : Part) (work : Work)
  | sync (part : Part) (work : Work)
  /-- The files are closed in any case, and a close may replace the exception. -/
  | closeDestination (part : Part) (work : Work) (failure : Option (Nat × Exception))
  | closeSource (part : Part) (work : Work) (failure : Option (Option Nat × Exception))
  | handle (part : Part) (work : Work) (created : Option Nat) (exception : Exception)
  /-- The handler of `publish_candidate_evidence`, with the archive in place. -/
  | rollBack (work : Work) (left : Option (List UInt8))
  | removeTemporary (temporary : Temporary) (outcome : Outcome)
  | closeLock (outcome : Outcome)
  | unlinkLock (outcome : Outcome)
  | finished (outcome : Outcome)
  deriving DecidableEq, Repr

structure Invocation where
  target : Target
  version : String
  stage : Stage
  deriving DecidableEq, Repr

/-- How the call comes out. -/
inductive Event where
  | returned
  | raised (exception : Exception)
  | named (temporary : Temporary)
  | built (summary : Summary)
  deriving DecidableEq, Repr

namespace Invocation

variable (invocation : Invocation)

def name : Part → String
  | .archive => (candidateNames invocation.target invocation.version).1
  | .sidecar => (candidateNames invocation.target invocation.version).2

/-- `length=1024 * 1024` of `copyfileobj`. -/
def chunkLength : Nat := 1024 * 1024

/-- Where the failure of one copy leads: only behind the first copy is there
something to roll back. -/
def failedCopy (part : Part) (work : Work) (left : Option (List UInt8)) : Stage :=
  match part with
  | .archive => .removeTemporary work.temporary (.failed (left.map (Part.archive, ·)))
  | .sidecar => .rollBack work left

def copied (part : Part) (work : Work) : Stage :=
  match part with
  | .archive => .openSource .sidecar work
  | .sidecar => .removeTemporary work.temporary (.published work.summary)

def call (present : String → Bool) (event : Event) : Option (Effect String Node × Stage) :=
  match invocation.stage, event with
  | .lock, .returned =>
    if present (lockName invocation.target) then some (.unchanged, .finished (.failed none))
    else some (.create (lockName invocation.target) (.file []), .requireAbsent .archive)
  | .lock, .raised _ => some (.unchanged, .finished (.failed none))
  | .requireAbsent part, .returned =>
    if present (invocation.name part) then some (.unchanged, .closeLock (.failed none))
    else match part with
      | .archive => some (.unchanged, .requireAbsent .sidecar)
      | .sidecar => some (.unchanged, .makeTemporary)
  | .requireAbsent _, .raised _ => some (.unchanged, .closeLock (.failed none))
  | .makeTemporary, .named temporary =>
    if present temporary.name then none else some (.create temporary.name .directory, .build temporary)
  | .makeTemporary, .raised _ => some (.unchanged, .closeLock (.failed none))
  | .build temporary, .built summary =>
    if summary.archive ≠ invocation.name .archive || summary.checksumFile ≠ invocation.name .sidecar then
      some (.unchanged, .removeTemporary temporary (.failed none))
    else some (.unchanged, .requireAbsentAgain .archive ⟨temporary, summary⟩)
  | .build temporary, .raised _ => some (.unchanged, .removeTemporary temporary (.failed none))
  | .requireAbsentAgain part work, .returned =>
    if present (invocation.name part) then some (.unchanged, .removeTemporary work.temporary (.failed none))
    else match part with
      | .archive => some (.unchanged, .requireAbsentAgain .sidecar work)
      | .sidecar => some (.unchanged, .openSource .archive work)
  | .requireAbsentAgain _ work, .raised _ => some (.unchanged, .removeTemporary work.temporary (.failed none))
  | .openSource part work, .returned => some (.unchanged, .create part work)
  | .openSource part work, .raised exception => some (.unchanged, .handle part work none exception)
  | .create part work, .returned =>
    if present (invocation.name part) then some (.unchanged, .closeSource part work (some (none, .fileExists)))
    else some (.create (invocation.name part) (.file []), .copy part work 0)
  | .create part work, .raised exception => some (.unchanged, .closeSource part work (some (none, exception)))
  | .copy part work written, .returned =>
    let source := work.summary.bytes part
    if source.length ≤ written then some (.unchanged, .flush part work)
    else some (.write (invocation.name part) (.file (source.take (written + chunkLength))),
      .copy part work (written + chunkLength))
  | .copy part work written, .raised exception =>
    some (.unchanged, .closeDestination part work (some (written, exception)))
  | .flush part work, .returned => some (.unchanged, .sync part work)
  | .flush part work, .raised exception =>
    some (.unchanged, .closeDestination part work (some ((work.summary.bytes part).length, exception)))
  | .sync part work, .returned => some (.unchanged, .closeDestination part work none)
  | .sync part work, .raised exception =>
    some (.unchanged, .closeDestination part work (some ((work.summary.bytes part).length, exception)))
  | .closeDestination part work none, .returned => some (.unchanged, .closeSource part work none)
  | .closeDestination part work (some (written, exception)), .returned =>
    some (.unchanged, .closeSource part work (some (some written, exception)))
  | .closeDestination part work none, .raised exception =>
    some (.unchanged, .closeSource part work (some (some (work.summary.bytes part).length, exception)))
  | .closeDestination part work (some (written, _)), .raised exception =>
    some (.unchanged, .closeSource part work (some (some written, exception)))
  | .closeSource part work none, .returned => some (.unchanged, copied part work)
  | .closeSource part work (some (created, exception)), .returned =>
    some (.unchanged, .handle part work created exception)
  | .closeSource part work none, .raised exception =>
    some (.unchanged, .handle part work (some (work.summary.bytes part).length) exception)
  | .closeSource part work (some (created, _)), .raised exception =>
    some (.unchanged, .handle part work created exception)
  -- `except FileExistsError` comes first and does not ask whether the file was created
  | .handle part work (some written) .fileExists, .returned =>
    some (.unchanged, failedCopy part work (some ((work.summary.bytes part).take written)))
  | .handle part work (some _) .other, .returned =>
    some (.remove (invocation.name part), failedCopy part work none)
  | .handle part work none _, .returned => some (.unchanged, failedCopy part work none)
  | .rollBack work left, .returned =>
    some (.remove (invocation.name .archive),
      .removeTemporary work.temporary (.failed (left.map (Part.sidecar, ·))))
  | .removeTemporary temporary outcome, .returned => some (.remove temporary.name, .closeLock outcome)
  | .closeLock outcome, .returned => some (.unchanged, .unlinkLock outcome)
  | .unlinkLock outcome, .returned => some (.remove (lockName invocation.target), .finished outcome)
  | _, _ => none

def move (invocation : Invocation) (present : String → Bool) (event : Event) :
    Option (Effect String Node × Invocation) :=
  (invocation.call present event).map fun (effect, stage) => (effect, { invocation with stage })

end Invocation

def publication : Machine (Shared Invocation String Node) (Turn Event) := sharing Invocation.move

def start (directory : String → Option Node) (invocations : List (Target × String)) :
    Shared Invocation String Node where
  store name := (directory name).map fun node => ⟨node, none⟩
  parties := invocations.map fun (target, version) => ⟨target, version, .lock⟩

end ElectrumPrivateRelay.Release

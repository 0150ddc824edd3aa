import ElectrumPrivateRelay.Release.Publication
import Mathlib.Data.Option.Basic

/-! What the invocations of the publication tool do to the output directory.

Every invocation has an account of the names it has made and not yet removed.
The lock, the temporary directory and the two files are on it, and nothing on
it is touched by another invocation.
-/

set_option autoImplicit false

namespace ElectrumPrivateRelay.Release
open Semantics

def Outcome.copy : Outcome → Part → Option (List UInt8)
  | .published summary, part => some (summary.bytes part)
  | .failed (some (left, content)), part => if part = left then some content else none
  | .failed none, _ => none

/-- The files in place while one of them is copied: the one before it, and the
part of itself that is written. -/
def Work.copying (work : Work) (part : Part) (content : Option (List UInt8)) : Part → Option (List UInt8)
  | .archive => match part with
    | .archive => content
    | .sidecar => some work.summary.archiveBytes
  | .sidecar => match part with
    | .archive => none
    | .sidecar => content

namespace Stage

def locked : Stage → Bool
  | .lock | .finished _ => false
  | _ => true

def temporary : Stage → Option Temporary
  | .build temporary | .removeTemporary temporary _ => some temporary
  | .requireAbsentAgain _ work | .openSource _ work | .create _ work | .copy _ work _ | .flush _ work
  | .sync _ work | .closeDestination _ work _ | .closeSource _ work _ | .handle _ work _ _
  | .rollBack work _ => some work.temporary
  | .lock | .requireAbsent _ | .makeTemporary | .closeLock _ | .unlinkLock _ | .finished _ => none

def copies : Stage → Part → Option (List UInt8)
  | .lock | .requireAbsent _ | .makeTemporary | .build _ | .requireAbsentAgain _ _ => fun _ => none
  | .openSource part work | .create part work => work.copying part none
  | .copy part work written => work.copying part (some ((work.summary.bytes part).take written))
  | .flush part work | .sync part work | .closeDestination part work none | .closeSource part work none =>
    work.copying part (some (work.summary.bytes part))
  | .closeDestination part work (some (written, _)) =>
    work.copying part (some ((work.summary.bytes part).take written))
  | .closeSource part work (some (created, _)) | .handle part work created _ =>
    work.copying part (created.map (work.summary.bytes part).take)
  | .rollBack work left => work.copying .sidecar left
  | .removeTemporary _ outcome | .closeLock outcome | .unlinkLock outcome | .finished outcome => outcome.copy

end Stage

namespace Invocation

variable (invocation : Invocation)

/-- What the invocation has made and not yet removed. -/
def holding (name : String) : Option Node :=
  if name = lockName invocation.target then if invocation.stage.locked then some (.file []) else none
  else if name = invocation.name .archive then (invocation.stage.copies .archive).map .file
  else if name = invocation.name .sidecar then (invocation.stage.copies .sidecar).map .file
  else if invocation.stage.temporary.map Temporary.name = some name then some .directory
  else none

theorem name_head (part : Part) : (invocation.name part).toList.head? = some 'e' := by
  cases part with
  | archive => simp [name, candidateNames, packageName]
  | sidecar => simp [name, candidateNames, packageName]

theorem lockName_head (target : Target) : (lockName target).toList.head? = some '.' := by
  simp [lockName]

theorem name_ne_lockName (part : Part) : invocation.name part ≠ lockName invocation.target := by
  intro same
  have head := invocation.name_head part
  rw [same, lockName_head] at head
  cases head

theorem sidecar_ne_archive : invocation.name .sidecar ≠ invocation.name .archive := by
  intro same
  have length := congrArg (fun text : String => text.toList.length) same
  simp [name, candidateNames] at length

theorem temporary_head (temporary : Temporary) : temporary.name.toList.head? = some '.' := by
  obtain ⟨rest, same⟩ := List.isPrefixOf_iff_prefix.mp temporary.stem
  rw [← same]
  rfl

theorem temporary_ne_name (temporary : Temporary) (part : Part) : temporary.name ≠ invocation.name part := by
  intro same
  have head := temporary_head temporary
  rw [same, invocation.name_head] at head
  cases head

theorem temporary_ne_lockName (temporary : Temporary) (target : Target) : temporary.name ≠ lockName target := by
  intro same
  have stem := temporary.stem
  rw [same] at stem
  -- behind the package name stands the stem of the directory, or a target
  simp only [temporaryStem, lockName, String.toList_append, List.isPrefixOf_iff_prefix, List.append_assoc,
    List.prefix_append_right_inj] at stem
  cases target with
  | linux | macos | windows => exact absurd stem (by decide)

variable {invocation} {stage : Stage}

@[simp] theorem name_stage (part : Part) : name { invocation with stage } part = invocation.name part := by
  cases part with
  | archive => rfl
  | sidecar => rfl

theorem holding_unchanged (locked : stage.locked = invocation.stage.locked)
    (temporary : stage.temporary = invocation.stage.temporary)
    (copies : stage.copies = invocation.stage.copies) :
    holding { invocation with stage } = invocation.holding := by
  funext name
  simp only [holding, name_stage, locked, temporary, copies]

theorem holding_lock (copies : stage.copies = invocation.stage.copies)
    (temporary : stage.temporary = invocation.stage.temporary) :
    holding { invocation with stage } = Function.update invocation.holding (lockName invocation.target)
      (if stage.locked then some (.file []) else none) := by
  funext name
  rw [Function.update_apply]
  by_cases same : name = lockName invocation.target
  · simp only [holding, same, if_true]
  · simp only [holding, name_stage, same, if_false, temporary, copies]

theorem holding_copy (part : Part) (locked : stage.locked = invocation.stage.locked)
    (temporary : stage.temporary = invocation.stage.temporary)
    (others : ∀ other, other ≠ part → stage.copies other = invocation.stage.copies other) :
    holding { invocation with stage } =
      Function.update invocation.holding (invocation.name part) ((stage.copies part).map .file) := by
  have distinct := invocation.sidecar_ne_archive
  have apart := invocation.name_ne_lockName part
  funext name
  rw [Function.update_apply]
  cases part with
  | archive =>
    have other := others .sidecar (by decide)
    by_cases same : name = invocation.name .archive
    · simp only [same, holding, name_stage, apart, if_false, if_true]
    · simp only [holding, name_stage, same, if_false, locked, temporary, other]
  | sidecar =>
    have other := others .archive (by decide)
    by_cases same : name = invocation.name .sidecar
    · simp only [same, holding, name_stage, apart, distinct, if_false, if_true]
    · simp only [holding, name_stage, same, if_false, locked, temporary, other]

theorem holding_temporary (temporary : Temporary) (locked : stage.locked = invocation.stage.locked)
    (copies : stage.copies = invocation.stage.copies)
    (moved : (stage.temporary = some temporary ∧ invocation.stage.temporary = none) ∨
      (stage.temporary = none ∧ invocation.stage.temporary = some temporary)) :
    holding { invocation with stage } = Function.update invocation.holding temporary.name
      (stage.temporary.map fun _ => .directory) := by
  have lock := temporary_ne_lockName temporary invocation.target
  have archive := invocation.temporary_ne_name temporary .archive
  have sidecar := invocation.temporary_ne_name temporary .sidecar
  funext name
  rw [Function.update_apply]
  by_cases same : name = temporary.name
  · simp only [same, holding, name_stage, lock, archive, sidecar, if_false, if_true]
    rcases moved with ⟨made, -⟩ | ⟨removed, -⟩
    · simp [made]
    · simp [removed]
  · have other := Ne.symm same
    rcases moved with ⟨made, absent⟩ | ⟨removed, there⟩
    · simp [holding, locked, copies, same, made, absent, other]
    · simp [holding, locked, copies, same, removed, there, other]

theorem holding_name (part : Part) : invocation.holding (invocation.name part) =
    (invocation.stage.copies part).map .file := by
  have apart := invocation.name_ne_lockName part
  cases part with
  | archive => simp [holding, apart]
  | sidecar => simp [holding, apart, invocation.sidecar_ne_archive]

theorem holding_lockName : invocation.holding (lockName invocation.target) =
    if invocation.stage.locked then some (.file []) else none := by
  simp [holding]

theorem holding_temporaryName {temporary : Temporary} (there : invocation.stage.temporary = some temporary) :
    invocation.holding temporary.name = some .directory := by
  have lock := temporary_ne_lockName temporary invocation.target
  have archive := invocation.temporary_ne_name temporary .archive
  have sidecar := invocation.temporary_ne_name temporary .sidecar
  simp [holding, lock, archive, sidecar, there]

/-- What a call does to the directory, and to the account of its invocation. -/
inductive Change (invocation : Invocation) (present : String → Bool) (stage : Stage) :
    Effect String Node → Prop where
  | unchanged : stage.locked = invocation.stage.locked → stage.temporary = invocation.stage.temporary →
      stage.copies = invocation.stage.copies → Change invocation present stage .unchanged
  | acquired : present (lockName invocation.target) = false → stage.locked = true →
      stage.temporary = invocation.stage.temporary → stage.copies = invocation.stage.copies →
      Change invocation present stage (.create (lockName invocation.target) (.file []))
  | released : invocation.stage.locked = true → stage.locked = false →
      stage.temporary = invocation.stage.temporary → stage.copies = invocation.stage.copies →
      Change invocation present stage (.remove (lockName invocation.target))
  | prepared (temporary : Temporary) : present temporary.name = false →
      stage.locked = invocation.stage.locked → stage.copies = invocation.stage.copies →
      stage.temporary = some temporary → invocation.stage.temporary = none →
      Change invocation present stage (.create temporary.name .directory)
  | cleared (temporary : Temporary) : stage.locked = invocation.stage.locked →
      stage.copies = invocation.stage.copies → stage.temporary = none →
      invocation.stage.temporary = some temporary →
      Change invocation present stage (.remove temporary.name)
  | created (part : Part) : present (invocation.name part) = false →
      stage.locked = invocation.stage.locked → stage.temporary = invocation.stage.temporary →
      (∀ other, other ≠ part → stage.copies other = invocation.stage.copies other) →
      stage.copies part = some [] →
      Change invocation present stage (.create (invocation.name part) (.file []))
  | wrote (part : Part) (content : List UInt8) : (invocation.stage.copies part).isSome = true →
      stage.locked = invocation.stage.locked → stage.temporary = invocation.stage.temporary →
      (∀ other, other ≠ part → stage.copies other = invocation.stage.copies other) →
      stage.copies part = some content →
      Change invocation present stage (.write (invocation.name part) (.file content))
  | removed (part : Part) : (invocation.stage.copies part).isSome = true →
      stage.locked = invocation.stage.locked → stage.temporary = invocation.stage.temporary →
      (∀ other, other ≠ part → stage.copies other = invocation.stage.copies other) →
      stage.copies part = none → Change invocation present stage (.remove (invocation.name part))

theorem copying_other (work : Work) (part other : Part) (content changed : Option (List UInt8))
    (different : other ≠ part) : work.copying part content other = work.copying part changed other := by
  cases part with
  | archive =>
    cases other with
    | archive => exact absurd rfl different
    | sidecar => rfl
  | sidecar =>
    cases other with
    | archive => rfl
    | sidecar => exact absurd rfl different

theorem copying_self (work : Work) (part : Part) (content : Option (List UInt8)) :
    work.copying part content part = content := by
  cases part with
  | archive => rfl
  | sidecar => rfl

theorem failedCopy_account (part : Part) (work : Work) (left : Option (List UInt8)) :
    (failedCopy part work left).locked = true ∧
      (failedCopy part work left).temporary = some work.temporary ∧
      (failedCopy part work left).copies = work.copying part left := by
  cases part with
  | sidecar => exact ⟨rfl, rfl, rfl⟩
  | archive =>
    refine ⟨rfl, rfl, ?_⟩
    funext other
    cases left with
    | none => cases other <;> rfl
    | some content => cases other <;> rfl

theorem copied_account (part : Part) (work : Work) :
    (copied part work).locked = true ∧ (copied part work).temporary = some work.temporary ∧
      (copied part work).copies = work.copying part (some (work.summary.bytes part)) := by
  cases part with
  | archive =>
    refine ⟨rfl, rfl, ?_⟩
    funext other
    cases other <;> rfl
  | sidecar =>
    refine ⟨rfl, rfl, ?_⟩
    funext other
    cases other <;> rfl

variable {present : String → Bool} {event : Event} {effect : Effect String Node}

theorem raised_change {exception : Exception}
    (called : invocation.call present (.raised exception) = some (effect, stage)) :
    Change invocation present stage effect := by
  obtain ⟨target, version, current⟩ := invocation
  cases current with
  | lock | requireAbsent _ | makeTemporary | build _ | requireAbsentAgain _ _ | openSource _ _ | create _ _
  | copy _ _ _ =>
    cases called
    exact .unchanged rfl rfl rfl
  | flush part work | sync part work =>
    cases called
    refine .unchanged rfl rfl ?_
    simp only [Stage.copies, List.take_length]
  | closeDestination part work failure | closeSource part work failure =>
    cases failure with
    | none =>
      cases called
      refine .unchanged rfl rfl ?_
      simp only [Stage.copies, Option.map_some, List.take_length]
    | some _ =>
      cases called
      exact .unchanged rfl rfl rfl
  | handle _ _ created caught => cases created <;> cases caught <;> cases called
  | rollBack _ _ | removeTemporary _ _ | closeLock _ | unlinkLock _ | finished _ => cases called

theorem call_named {temporary : Temporary}
    (called : invocation.call present (.named temporary) = some (effect, stage)) :
    invocation.stage = .makeTemporary ∧ present temporary.name = false ∧
      effect = .create temporary.name .directory ∧ stage = .build temporary := by
  obtain ⟨target, version, current⟩ := invocation
  cases current with
  | makeTemporary =>
    simp only [call] at called
    split at called
    · cases called
    · next free =>
      cases called
      exact ⟨rfl, Bool.eq_false_iff.mpr free, rfl, rfl⟩
  | closeDestination _ _ failure | closeSource _ _ failure => cases failure <;> cases called
  | handle _ _ created exception => cases created <;> cases exception <;> cases called
  | _ => cases called

theorem call_built {summary : Summary}
    (called : invocation.call present (.built summary) = some (effect, stage)) :
    effect = .unchanged ∧ ∃ temporary, invocation.stage = .build temporary ∧
      (stage = .removeTemporary temporary (.failed none) ∨
        stage = .requireAbsentAgain .archive ⟨temporary, summary⟩) := by
  obtain ⟨target, version, current⟩ := invocation
  cases current with
  | build temporary =>
    simp only [call] at called
    split at called
    · cases called
      exact ⟨rfl, temporary, rfl, .inl rfl⟩
    · cases called
      exact ⟨rfl, temporary, rfl, .inr rfl⟩
  | closeDestination _ _ failure | closeSource _ _ failure => cases failure <;> cases called
  | handle _ _ created exception => cases created <;> cases exception <;> cases called
  | _ => cases called

theorem named_change {temporary : Temporary}
    (called : invocation.call present (.named temporary) = some (effect, stage)) :
    Change invocation present stage effect := by
  obtain ⟨current, free, rfl, rfl⟩ := call_named called
  apply Change.prepared temporary free
  · rw [current]
    rfl
  · rw [current]
    rfl
  · rfl
  · rw [current]
    rfl

theorem built_change {summary : Summary}
    (called : invocation.call present (.built summary) = some (effect, stage)) :
    Change invocation present stage effect := by
  obtain ⟨rfl, temporary, current, rfl | rfl⟩ := call_built called
  · apply Change.unchanged <;> rw [current] <;> rfl
  · apply Change.unchanged <;> rw [current] <;> rfl

theorem returned_change (called : invocation.call present .returned = some (effect, stage)) :
    Change invocation present stage effect := by
  obtain ⟨target, version, current⟩ := invocation
  cases current with
  | lock =>
    simp only [call] at called
    split at called
    · cases called
      exact .unchanged rfl rfl rfl
    · next free =>
      cases called
      exact .acquired (Bool.eq_false_iff.mpr free) rfl rfl rfl
  | requireAbsent part =>
    simp only [call] at called
    split at called
    · cases called
      exact .unchanged rfl rfl rfl
    · cases part <;> cases called <;> exact .unchanged rfl rfl rfl
  | requireAbsentAgain part work =>
    simp only [call] at called
    split at called
    · cases called
      exact .unchanged rfl rfl rfl
    · cases part with
      | archive =>
        cases called
        exact .unchanged rfl rfl rfl
      | sidecar =>
        cases called
        exact .unchanged rfl rfl (funext fun other => by cases other <;> rfl)
  | openSource _ _ | flush _ _ | sync _ _ | closeLock _ =>
    cases called
    exact .unchanged rfl rfl rfl
  | create part work =>
    simp only [call] at called
    split at called
    · cases called
      exact .unchanged rfl rfl rfl
    · next free =>
      cases called
      refine .created part (Bool.eq_false_iff.mpr free) rfl rfl ?_ ?_
      · exact fun other different => copying_other work part other _ _ different
      · simp [Stage.copies, copying_self]
  | copy part work written =>
    simp only [call] at called
    split at called
    · next through =>
      cases called
      refine .unchanged rfl rfl ?_
      simp only [Stage.copies, List.take_of_length_le through]
    · cases called
      refine .wrote part _ ?_ rfl rfl ?_ ?_
      · simp [Stage.copies, copying_self]
      · exact fun other different => copying_other work part other _ _ different
      · simp [Stage.copies, copying_self]
  | closeDestination part work failure =>
    cases failure <;> cases called <;> exact .unchanged rfl rfl rfl
  | closeSource part work failure =>
    cases failure with
    | none =>
      cases called
      obtain ⟨locked, temporary, copies⟩ := copied_account part work
      exact .unchanged locked temporary copies
    | some _ =>
      cases called
      exact .unchanged rfl rfl rfl
  | handle part work created exception =>
    cases created with
    | none =>
      cases called
      obtain ⟨locked, temporary, copies⟩ := failedCopy_account part work none
      exact .unchanged locked temporary copies
    | some written =>
      cases exception with
      | fileExists =>
        cases called
        obtain ⟨locked, temporary, copies⟩ :=
          failedCopy_account part work (some ((work.summary.bytes part).take written))
        exact .unchanged locked temporary copies
      | other =>
        cases called
        obtain ⟨locked, temporary, copies⟩ := failedCopy_account part work none
        refine .removed part ?_ locked temporary ?_ ?_
        · simp [Stage.copies, copying_self]
        · rw [copies]
          exact fun other different => copying_other work part other _ _ different
        · rw [copies, copying_self]
  | rollBack work left =>
    cases called
    refine .removed .archive rfl rfl rfl ?_ ?_
    · rintro (_ | _) different
      · exact absurd rfl different
      · cases left <;> rfl
    · cases left <;> rfl
  | removeTemporary temporary outcome =>
    cases called
    exact .cleared temporary rfl rfl rfl rfl
  | unlinkLock outcome =>
    cases called
    exact .released rfl rfl rfl rfl
  | makeTemporary | build _ | finished _ => cases called

theorem call_change (called : invocation.call present event = some (effect, stage)) :
    Change invocation present stage effect := by
  cases event with
  | returned => exact returned_change called
  | raised _ => exact raised_change called
  | named _ => exact named_change called
  | built _ => exact built_change called

theorem Change.accounts (change : Change invocation present stage effect) :
    effect.Sound present invocation.holding ∧
      holding { invocation with stage } = effect.view invocation.holding := by
  cases change with
  | unchanged locked temporary copies => exact ⟨trivial, holding_unchanged locked temporary copies⟩
  | acquired absent locked temporary copies =>
    refine ⟨absent, ?_⟩
    rw [holding_lock copies temporary, locked]
    rfl
  | released before locked temporary copies =>
    refine ⟨?_, ?_⟩
    · simp [Effect.Sound, holding_lockName, before]
    · rw [holding_lock copies temporary, locked]
      rfl
  | prepared temporary absent locked copies made before =>
    refine ⟨absent, ?_⟩
    rw [holding_temporary temporary locked copies (.inl ⟨made, before⟩), made]
    rfl
  | cleared temporary locked copies gone before =>
    refine ⟨?_, ?_⟩
    · simp [Effect.Sound, holding_temporaryName before]
    · rw [holding_temporary temporary locked copies (.inr ⟨gone, before⟩), gone]
      rfl
  | created part absent locked temporary others made =>
    refine ⟨absent, ?_⟩
    rw [holding_copy part locked temporary others, made]
    rfl
  | wrote part content there locked temporary others made =>
    refine ⟨?_, ?_⟩
    · simpa [Effect.Sound, holding_name] using there
    · rw [holding_copy part locked temporary others, made]
      rfl
  | removed part there locked temporary others gone =>
    refine ⟨?_, ?_⟩
    · simpa [Effect.Sound, holding_name] using there
    · rw [holding_copy part locked temporary others, gone]
      rfl

theorem move_eq_some {next : Invocation} (moved : invocation.move present event = some (effect, next)) :
    ∃ stage, invocation.call present event = some (effect, stage) ∧ next = { invocation with stage } := by
  simp only [move, Option.map_eq_some_iff, Prod.exists, Prod.mk.injEq] at moved
  obtain ⟨_, stage, called, rfl, rfl⟩ := moved
  exact ⟨stage, called, rfl⟩

theorem move_accounts : Accounts move holding := by
  intro invocation present event effect next moved
  obtain ⟨stage, called, rfl⟩ := move_eq_some moved
  exact (call_change called).accounts

end Invocation

end ElectrumPrivateRelay.Release

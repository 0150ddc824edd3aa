import ElectrumPrivateRelay.Release.Account
import Mathlib.Data.Prod.Lex

/-! Create-once and all or nothing, in every interleaving of invocations.

What the account of an invocation says is true of the directory after every
turn, so the promises can be read off the stages. One clause of the copy breaks
them: it takes any `FileExistsError` for a refusal to overwrite.
-/

set_option autoImplicit false

namespace ElectrumPrivateRelay.Release
open Semantics

def Outcome.clean : Outcome → Bool
  | .failed left => left.isNone
  | .published _ => true

def Stage.clean : Stage → Bool
  | .rollBack _ left => left.isNone
  | .removeTemporary _ outcome | .closeLock outcome | .unlinkLock outcome | .finished outcome => outcome.clean
  | _ => true

/-- The exception of another call is taken for that of the exclusive creation:
the file is there because this invocation has created it. -/
def Stage.mistaken : Stage → Bool
  | .handle _ _ (some _) .fileExists => true
  | _ => false

def Outcome.summary : Outcome → Option Summary
  | .published summary => some summary
  | .failed _ => none

def Stage.summary : Stage → Option Summary
  | .lock | .requireAbsent _ | .makeTemporary | .build _ => none
  | .requireAbsentAgain _ work | .openSource _ work | .create _ work | .copy _ work _ | .flush _ work
  | .sync _ work | .closeDestination _ work _ | .closeSource _ work _ | .handle _ work _ _
  | .rollBack work _ => some work.summary
  | .removeTemporary _ outcome | .closeLock outcome | .unlinkLock outcome | .finished outcome => outcome.summary

structure Leads (before : Stage) (event : Event) (after : Stage) : Prop where
  clean : before.clean = true → before.mistaken = false → after.clean = true
  summary : ∀ summary, after.summary = some summary → before.summary = some summary ∨ event = .built summary

theorem Leads.on {before after : Stage} {event : Event} (clean : after.clean = true)
    (summary : after.summary = before.summary) : Leads before event after :=
  ⟨fun _ _ => clean, fun _ about => .inl (summary ▸ about)⟩

theorem Leads.failed {before after : Stage} {event : Event} (clean : after.clean = true)
    (summary : after.summary = none) : Leads before event after :=
  ⟨fun _ _ => clean, fun _ about => absurd (about.symm.trans summary) (Option.some_ne_none _)⟩

namespace Invocation

variable {invocation : Invocation} {present : String → Bool} {event : Event} {effect : Effect String Node}
  {stage : Stage}

theorem failedCopy_leads (part : Part) (work : Work) (created : Option Nat) (exception : Exception)
    (left : Option (List UInt8))
    (given : left.isNone = true ∨ Stage.mistaken (.handle part work created exception) = true) :
    Leads (.handle part work created exception) event (failedCopy part work left) := by
  have clean (right : Stage.mistaken (.handle part work created exception) = false) : left.isNone = true := by
    rw [right] at given
    simpa using given
  cases part with
  | archive =>
    refine ⟨fun _ right => ?_, fun _ about => absurd about.symm (Option.some_ne_none _)⟩
    simpa [failedCopy, Stage.clean, Outcome.clean] using clean right
  | sidecar => exact ⟨fun _ right => clean right, fun _ about => .inl about⟩

theorem raised_leads {exception : Exception}
    (called : invocation.call present (.raised exception) = some (effect, stage)) :
    Leads invocation.stage (.raised exception) stage := by
  obtain ⟨target, version, current⟩ := invocation
  cases current with
  | lock | requireAbsent _ | makeTemporary | build _ | requireAbsentAgain _ _ =>
    cases called
    exact .failed rfl rfl
  | openSource _ _ | create _ _ | copy _ _ _ | flush _ _ | sync _ _ =>
    cases called
    exact .on rfl rfl
  | closeDestination _ _ failure | closeSource _ _ failure =>
    cases failure <;> cases called <;> exact .on rfl rfl
  | handle _ _ created caught => cases created <;> cases caught <;> cases called
  | rollBack _ _ | removeTemporary _ _ | closeLock _ | unlinkLock _ | finished _ => cases called

theorem returned_leads (called : invocation.call present .returned = some (effect, stage)) :
    Leads invocation.stage .returned stage := by
  obtain ⟨target, version, current⟩ := invocation
  cases current with
  | lock =>
    simp only [call] at called
    split at called <;> cases called <;> exact .failed rfl rfl
  | requireAbsent part =>
    simp only [call] at called
    split at called
    · cases called
      exact .failed rfl rfl
    · cases part <;> cases called <;> exact .failed rfl rfl
  | requireAbsentAgain part work =>
    simp only [call] at called
    split at called
    · cases called
      exact .failed rfl rfl
    · cases part <;> cases called <;> exact .on rfl rfl
  | openSource _ _ | flush _ _ | sync _ _ =>
    cases called
    exact .on rfl rfl
  | create _ _ | copy _ _ _ =>
    simp only [call] at called
    split at called <;> cases called <;> exact .on rfl rfl
  | closeDestination _ _ failure => cases failure <;> cases called <;> exact .on rfl rfl
  | closeSource part _ failure =>
    cases failure with
    | none =>
      cases called
      cases part <;> exact .on rfl rfl
    | some _ =>
      cases called
      exact .on rfl rfl
  | handle part work created exception =>
    cases created with
    | none =>
      cases called
      exact failedCopy_leads part work none exception none (.inl rfl)
    | some written =>
      cases exception with
      | fileExists =>
        cases called
        exact failedCopy_leads part work (some written) .fileExists _ (.inr rfl)
      | other =>
        cases called
        exact failedCopy_leads part work (some written) .other none (.inl rfl)
  | rollBack work left =>
    cases called
    refine ⟨fun clean _ => ?_, fun _ about => absurd about.symm (Option.some_ne_none _)⟩
    simpa [Stage.clean, Outcome.clean] using clean
  | removeTemporary _ _ | closeLock _ | unlinkLock _ =>
    cases called
    exact ⟨fun clean _ => clean, fun _ about => .inl about⟩
  | makeTemporary | build _ | finished _ => cases called

theorem call_leads (called : invocation.call present event = some (effect, stage)) :
    Leads invocation.stage event stage := by
  cases event with
  | returned => exact returned_leads called
  | raised _ => exact raised_leads called
  | named _ =>
    obtain ⟨-, -, -, rfl⟩ := call_named called
    exact .failed rfl rfl
  | built _ =>
    obtain ⟨-, temporary, -, rfl | rfl⟩ := call_built called
    · exact .failed rfl rfl
    · exact ⟨fun _ _ => rfl, fun _ about => .inr (congrArg Event.built (Option.some.inj about))⟩

end Invocation

def Part.behind : Part → Nat
  | .archive => 1
  | .sidecar => 0

def Stage.rank : Stage → Nat
  | .finished _ => 0
  | .unlinkLock _ => 1
  | .closeLock _ => 2
  | .removeTemporary _ _ => 3
  | .rollBack _ _ => 4
  | .handle part _ _ _ => 5 + 8 * part.behind
  | .closeSource part _ _ => 6 + 8 * part.behind
  | .closeDestination part _ _ => 7 + 8 * part.behind
  | .sync part _ => 8 + 8 * part.behind
  | .flush part _ => 9 + 8 * part.behind
  | .copy part _ _ => 10 + 8 * part.behind
  | .create part _ => 11 + 8 * part.behind
  | .openSource part _ => 12 + 8 * part.behind
  | .requireAbsentAgain part _ => 21 + part.behind
  | .build _ => 23
  | .makeTemporary => 24
  | .requireAbsent part => 25 + part.behind
  | .lock => 27

def Stage.unwritten : Stage → Nat
  | .copy part work written => (work.summary.bytes part).length - written
  | _ => 0

namespace Invocation

variable {invocation : Invocation} {present : String → Bool} {event : Event} {effect : Effect String Node}
  {stage : Stage}

theorem failedCopy_rank (part : Part) (work : Work) (left : Option (List UInt8)) :
    (failedCopy part work left).rank < 5 + 8 * part.behind := by
  cases part <;> simp [failedCopy, Stage.rank, Part.behind]

theorem copied_rank (part : Part) (work : Work) : (copied part work).rank < 6 + 8 * part.behind := by
  cases part <;> simp [copied, Stage.rank, Part.behind]

theorem call_descends (called : invocation.call present event = some (effect, stage)) :
    stage.rank < invocation.stage.rank ∨
      stage.rank = invocation.stage.rank ∧ stage.unwritten < invocation.stage.unwritten := by
  obtain ⟨target, version, current⟩ := invocation
  cases current with
  | copy part work written =>
    cases event with
    | returned =>
      simp only [call] at called
      split at called
      · cases called
        exact .inl (by simp [Stage.rank])
      · cases called
        refine .inr ⟨rfl, ?_⟩
        simp only [Stage.unwritten, chunkLength]
        omega
    | raised _ =>
      cases called
      exact .inl (by simp [Stage.rank])
    | named _ | built _ => cases called
  | requireAbsent part | requireAbsentAgain part _ =>
    left
    cases part <;> cases event <;> simp only [call] at called <;> (try split at called) <;> cases called <;>
      simp [Stage.rank, Part.behind]
  | lock | makeTemporary | build _ | openSource _ _ | create _ _ | flush _ _ | sync _ _ =>
    left
    cases event <;> simp only [call] at called <;> (try split at called) <;> cases called <;>
      simp [Stage.rank, Part.behind]
  | closeDestination part work failure =>
    left
    cases event <;> cases failure <;> cases called <;> simp [Stage.rank]
  | closeSource part work failure =>
    left
    cases event <;> cases failure <;> cases called <;> first | exact copied_rank part work | simp [Stage.rank]
  | handle part work created exception =>
    left
    cases event <;> cases created <;> cases exception <;> cases called <;> exact failedCopy_rank part work _
  | rollBack _ _ | removeTemporary _ _ | closeLock _ | unlinkLock _ =>
    left
    cases event <;> cases called
    simp [Stage.rank]
  | finished _ => cases event <;> cases called

theorem calls_wellFounded : WellFounded fun next invocation : Invocation =>
    ∃ present event effect, invocation.move present event = some (effect, next) := by
  apply Subrelation.wf (r := InvImage (Prod.Lex (· < ·) (· < ·)) fun invocation : Invocation =>
    (invocation.stage.rank, invocation.stage.unwritten))
  · rintro next invocation ⟨present, event, effect, moved⟩
    obtain ⟨stage, called, rfl⟩ := move_eq_some moved
    exact Prod.lex_def.mpr (call_descends called)
  · exact InvImage.wf _ (WellFoundedRelation.wf)

theorem unfinished_calls (unfinished : ∀ outcome, invocation.stage ≠ .finished outcome)
    (present : String → Bool) : ∃ event, (invocation.call present event).isSome = true := by
  obtain ⟨target, version, current⟩ := invocation
  cases current with
  | lock | requireAbsent _ | makeTemporary | build _ | requireAbsentAgain _ _ | openSource _ _ | create _ _
  | copy _ _ _ | flush _ _ | sync _ _ => exact ⟨.raised .other, rfl⟩
  | closeDestination _ _ failure | closeSource _ _ failure => exact ⟨.returned, by cases failure <;> rfl⟩
  | handle _ _ created exception => exact ⟨.returned, by cases created <;> cases exception <;> rfl⟩
  | rollBack _ _ | removeTemporary _ _ | closeLock _ | unlinkLock _ => exact ⟨.returned, rfl⟩
  | finished outcome => exact absurd rfl (unfinished outcome)

end Invocation

/-- An invocation that is left alone comes to its end. -/
theorem invocation_ends {invocation : Invocation} : ∀ (state : Shared Invocation String Node) (index : Nat),
    state.parties[index]? = some invocation → ∃ turns final last outcome,
      (∀ turn ∈ turns, turn.party = index) ∧ publication.run state turns = some final ∧
        final.parties[index]? = some last ∧ last.stage = .finished outcome := by
  induction invocation using Invocation.calls_wellFounded.induction with
  | h invocation ih =>
    intro state index found
    by_cases ended : ∃ outcome, invocation.stage = .finished outcome
    · obtain ⟨outcome, ended⟩ := ended
      exact ⟨[], state, invocation, outcome, nofun, rfl, found, ended⟩
    · obtain ⟨event, can⟩ := Invocation.unfinished_calls (not_exists.mp ended) state.store.present
      obtain ⟨⟨effect, stage⟩, called⟩ := Option.isSome_iff_exists.mp can
      have moved : invocation.move state.store.present event = some (effect, { invocation with stage }) := by
        rw [Invocation.move, called]
        rfl
      have taken : publication.step state ⟨index, event⟩ =
          some ⟨effect.apply index state.store, state.parties.set index { invocation with stage }⟩ :=
        sharing_step_eq_some.mpr ⟨invocation, effect, _, found, moved, rfl⟩
      have bound := (List.getElem?_eq_some_iff.mp found).1
      obtain ⟨turns, final, last, outcome, own, execution, there, ended⟩ :=
        ih _ ⟨_, _, _, moved⟩ ⟨_, _⟩ index (List.getElem?_set_self bound)
      refine ⟨⟨index, event⟩ :: turns, final, last, outcome, ?_, ?_, there, ended⟩
      · exact List.forall_mem_cons.mpr ⟨rfl, own⟩
      · exact publication.run_cons.mpr ⟨_, taken, execution⟩

/-- The clause for a file that was there before is not entered behind a file
that was created. -/
def Unmistaken (state : Shared Invocation String Node) (turn : Turn Event) : Prop :=
  ∀ invocation ∈ state.parties[turn.party]?, invocation.stage.mistaken = false

instance : DecidableRel Unmistaken :=
  fun state turn => inferInstanceAs (Decidable (∀ invocation ∈ state.parties[turn.party]?, _))

/-- What create-once publication promises of a state and the turns before it. -/
structure CreateOnce (directory : String → Option Node) (past : List (Turn Event))
    (state : Shared Invocation String Node) : Prop where
  kept : ∀ name node, directory name = some node → state.store name = some ⟨node, none⟩
  untouched : ∀ turn next, publication.step state turn = some next →
    ∀ name entry, state.store name = some entry → entry.owner ≠ some turn.party → next.store name = some entry
  exclusive : ∀ (first second : Nat) (one other : Invocation), state.parties[first]? = some one →
    state.parties[second]? = some other → one.target = other.target →
    one.stage.locked = true → other.stage.locked = true → first = second
  published : ∀ (index : Nat) (invocation : Invocation) (summary : Summary),
    state.parties[index]? = some invocation → invocation.stage = .finished (.published summary) →
      ⟨index, .built summary⟩ ∈ past ∧
      ∀ part, state.store (invocation.name part) = some ⟨.file (summary.bytes part), some index⟩
  failed : ∀ (index : Nat) (invocation : Invocation) (left : Option (Part × List UInt8)),
    state.parties[index]? = some invocation → invocation.stage = .finished (.failed left) →
      ∀ name entry, state.store name = some entry → entry.owner ≠ some index
  lock : ∀ (index : Nat) (invocation : Invocation), state.parties[index]? = some invocation →
    (invocation.stage.locked = true ↔
      state.store (lockName invocation.target) = some ⟨.file [], some index⟩)

structure Orderly (directory : String → Option Node) (past : List (Turn Event))
    (state : Shared Invocation String Node) : Prop where
  accounted : Accounted Invocation.holding state
  kept : ∀ name node, directory name = some node → state.store name = some ⟨node, none⟩
  clean : ∀ (index : Nat) (invocation : Invocation),
    state.parties[index]? = some invocation → invocation.stage.clean = true
  built : ∀ (index : Nat) (invocation : Invocation) (summary : Summary), state.parties[index]? = some invocation →
    invocation.stage.summary = some summary → ⟨index, .built summary⟩ ∈ past

theorem Invocation.holding_lock_stage (target : Target) (version : String) :
    Invocation.holding ⟨target, version, .lock⟩ = fun _ => none := by
  funext name
  simp [Invocation.holding, Stage.locked, Stage.copies, Stage.temporary]

theorem Invocation.holding_failed {invocation : Invocation}
    (ended : invocation.stage = .finished (.failed none)) : invocation.holding = fun _ => none := by
  funext name
  simp [Invocation.holding, ended, Stage.locked, Stage.copies, Stage.temporary, Outcome.copy]

section
variable {directory : String → Option Node} {past : List (Turn Event)}
  {state next : Shared Invocation String Node} {turn : Turn Event}

theorem start_party {invocations : List (Target × String)} {index : Nat} {invocation : Invocation}
    (found : (start directory invocations).parties[index]? = some invocation) : invocation.stage = .lock := by
  simp only [start, List.getElem?_map, Option.map_eq_some_iff] at found
  obtain ⟨_, -, rfl⟩ := found
  rfl

theorem start_orderly (directory : String → Option Node) (invocations : List (Target × String)) :
    Orderly directory [] (start directory invocations) where
  accounted index invocation found := by
    obtain ⟨target, version, stage⟩ := invocation
    cases start_party found
    rw [Invocation.holding_lock_stage]
    funext name
    cases there : directory name with
    | none => simp [Store.owned, start, there]
    | some node => simp [Store.owned, start, there]
  kept name node there := by simp [start, there]
  clean index invocation found := by
    rw [start_party found]
    rfl
  built index invocation summary found about := by
    rw [start_party found] at about
    cases about

theorem Orderly.step (orderly : Orderly directory past state) (right : Unmistaken state turn)
    (taken : publication.step state turn = some next) : Orderly directory (past ++ [turn]) next where
  accounted := Invocation.move_accounts.step orderly.accounted taken
  kept name node there :=
    Invocation.move_accounts.step_foreign orderly.accounted taken (orderly.kept name node there) nofun
  clean index invocation found := by
    rcases sharing_step_party taken found with ⟨-, there⟩ | ⟨rfl, before, effect, there, moved⟩
    · exact orderly.clean index invocation there
    · obtain ⟨stage, called, rfl⟩ := Invocation.move_eq_some moved
      exact (Invocation.call_leads called).clean (orderly.clean _ _ there) (right _ there)
  built index invocation summary found about := by
    rcases sharing_step_party taken found with ⟨-, there⟩ | ⟨rfl, before, effect, there, moved⟩
    · exact List.mem_append_left _ (orderly.built _ _ _ there about)
    · obtain ⟨stage, called, rfl⟩ := Invocation.move_eq_some moved
      rcases (Invocation.call_leads called).summary summary about with earlier | now
      · exact List.mem_append_left _ (orderly.built _ _ _ there earlier)
      · refine List.mem_append_right _ (List.mem_singleton.mpr ?_)
        rw [← now]

theorem Orderly.holds (orderly : Orderly directory past state) {index : Nat} {invocation : Invocation}
    (found : state.parties[index]? = some invocation) {name : String} {node : Node} :
    invocation.holding name = some node ↔ state.store name = some ⟨node, some index⟩ := by
  rw [← orderly.accounted index invocation found]
  exact owned_eq_some

theorem Orderly.lock (orderly : Orderly directory past state) {index : Nat} {invocation : Invocation}
    (found : state.parties[index]? = some invocation) : invocation.stage.locked = true ↔
      state.store (lockName invocation.target) = some ⟨.file [], some index⟩ := by
  rw [← orderly.holds found, Invocation.holding_lockName]
  simp

theorem Orderly.createOnce (orderly : Orderly directory past state) : CreateOnce directory past state where
  kept := orderly.kept
  untouched turn next taken name entry there foreign :=
    Invocation.move_accounts.step_foreign orderly.accounted taken there foreign
  exclusive first second one other atFirst atSecond same held alsoHeld := by
    have mine := (orderly.lock atFirst).mp held
    have theirs := (orderly.lock atSecond).mp alsoHeld
    rw [same, theirs] at mine
    cases mine
    rfl
  published index invocation summary found ended := by
    refine ⟨orderly.built index invocation summary found (by rw [ended]; rfl), fun part => ?_⟩
    rw [← orderly.holds found, Invocation.holding_name, ended]
    rfl
  failed index invocation left found ended name entry there owned := by
    have clean := orderly.clean index invocation found
    rw [ended] at clean
    cases left with
    | some _ => cases clean
    | none =>
      obtain ⟨node, owner⟩ := entry
      cases owned
      have held := (orderly.holds found).mpr there
      rw [Invocation.holding_failed ended] at held
      cases held
  lock index invocation found := orderly.lock found

end

/-- Publication is create-once and all or nothing in every interleaving in which
no copy that was created ends with a `FileExistsError`. -/
theorem publication_createOnce (directory : String → Option Node) (invocations : List (Target × String))
    (turns : List (Turn Event)) (final : Shared Invocation String Node)
    (execution : publication.RunsWhere Unmistaken (start directory invocations) turns final) :
    CreateOnce directory turns final := by
  have orderly : Orderly directory ([] ++ turns) final :=
    execution.preserves_history (fun _ _ _ _ orderly right taken => orderly.step right taken)
      (start_orderly directory invocations)
  exact orderly.createOnce

def macosCandidate : Summary where
  archive := "electrum-private-relay-v1-aarch64-apple-darwin.zip"
  checksumFile := "electrum-private-relay-v1-aarch64-apple-darwin.zip.sha256"
  archiveBytes := [80, 75]
  sidecarBytes := [102]

def untilSync : List Event :=
  [.returned, .returned, .returned, .named ⟨".electrum-private-relay-candidate-1", by decide⟩,
    .built macosCandidate, .returned, .returned, .returned, .returned, .returned, .returned, .returned]

def contended : List (Turn Event) :=
  ⟨0, .returned⟩ :: ⟨1, .returned⟩ :: (untilSync.tail ++ List.replicate 14 Event.returned).map (⟨0, ·⟩)

theorem second_invocation_refused : ∃ final,
    publication.RunsWhere Unmistaken (start (fun _ => none) [(.macos, "1"), (.macos, "1")]) contended final ∧
      CreateOnce (fun _ => none) contended final ∧
      final.parties.map Invocation.stage = [.finished (.published macosCandidate), .finished (.failed none)] := by
  have observed : ((publication.runWhere Unmistaken
      (start (fun _ => none) [(.macos, "1"), (.macos, "1")]) contended).map
        fun final => final.parties.map Invocation.stage) =
      some [.finished (.published macosCandidate), .finished (.failed none)] := by
    decide +kernel
  obtain ⟨final, execution, ended⟩ := Option.map_eq_some_iff.mp observed
  have allowed := Machine.RunsWhere.of_runWhere execution
  exact ⟨final, allowed, publication_createOnce _ _ _ final allowed, ended⟩

def interrupted : List (Turn Event) :=
  (untilSync ++ Event.raised .fileExists :: List.replicate 6 Event.returned).map (⟨0, ·⟩)

theorem failed_archive_stays : ¬ ∀ directory invocations turns final,
    publication.run (start directory invocations) turns = some final → CreateOnce directory turns final := by
  intro promised
  have observed : ((publication.run (start (fun _ => none) [(.macos, "1")]) interrupted).map
      fun final => (final.parties[0]?, final.store macosCandidate.archive)) =
      some (some ⟨.macos, "1", .finished (.failed (some (.archive, [80, 75])))⟩,
        some ⟨.file [80, 75], some 0⟩) := by
    decide +kernel
  obtain ⟨final, execution, seen⟩ := Option.map_eq_some_iff.mp observed
  obtain ⟨found, there⟩ := Prod.mk.inj seen
  exact (promised _ _ _ final execution).failed 0 _ _ found rfl _ _ there rfl

end ElectrumPrivateRelay.Release

import VpnHide.Lib.Crash
import VpnHide.Native.Journal

/-!
# Revoking a grant to Zygisk

`revoke` removes the file of a grant (`core-daemon/src/native_boot/transition.rs`). It writes
the journal before, with the revocation in state `running`, and after, with how it ended. Where
an older repair holds native delivery for the same grant, its hold goes over to the new
revocation in the first of these writes.

Each write may fail before or after the file is renamed, and the process may crash at every
point. `revocation_exact` says what is on disk then, and what a restart makes of it.
-/

namespace VpnHide.Native

open Lib Daemon

/-! ## The device -/

/-- The recipient of a grant, as it is found. -/
structure Recipient where
  identity : Option (ℕ × ℕ)
  bundled : Option Bool
  /-- The file has the grant that is expected. -/
  authorized : Bool

/-- The answers of the environment. -/
inductive Answer
  /-- The recipient, if it can be opened. -/
  | recipient (found : Option Recipient)
  | renamed (ok : Bool)
  | synced (ok : Bool)
  | canDispatch (ok : Bool)
  | revoked (ok : Bool)

/-- What a revocation does. -/
inductive Action
  /-- The journal is on disk. -/
  | renamed (j : Journal)
  /-- Writing it succeeded. -/
  | written (j : Journal)
  /-- The file of the grant is removed, which may fail. -/
  | unlink (authority : ZygiskAuthorityRecord)
  | unlinked (authority : ZygiskAuthorityRecord)

/-- The journal in memory and on disk, and what was done, in order. -/
structure Store where
  journal : Journal
  disk : Journal
  log : List Action

/-- Core's code, as a program that asks its environment. -/
abbrev Io := Prog Answer Store

/-- How a write ends; it may fail after the file was renamed. -/
inductive PersistResult
  | ok
  | failed (renamed : Bool)
  deriving DecidableEq

/-- An action is noted. -/
def note (action : Action) : Io Unit := .modify fun s => { s with log := s.log ++ [action] }

/-- The journal in memory is changed. -/
def setJournal (f : Journal → Journal) : Io Unit :=
  .modify fun s => { s with journal := f s.journal }

/-- Once the file is renamed, the journal is on disk. -/
def rename : Io Unit :=
  .modify fun s => { s with disk := s.journal, log := s.log ++ [.renamed s.journal] }

/-- The write is good. -/
def confirmWrite : Io Unit := .modify fun s => { s with log := s.log ++ [.written s.journal] }

/-- `persist`: the journal is written beside the old one and renamed. -/
def persist : Io PersistResult := do
  let renamed ← .ask fun | .renamed ok => some ok | _ => none
  if renamed then do
    rename
    let synced ← .ask fun | .synced ok => some ok | _ => none
    if synced then do
      confirmWrite
      pure .ok
    else pure (.failed true)
  else pure (.failed false)

/-- `revoke_expected`: whether the grant was removed. -/
def revokeExpected (expected : ZygiskAuthorityRecord) : Io Bool := do
  note (.unlink expected)
  let ok ← .ask fun | .revoked ok => some ok | _ => none
  if ok then do
    note (.unlinked expected)
    pure true
  else pure false

/-- The effect, unless another writer has taken over. -/
def dispatchRevocation (expected : ZygiskAuthorityRecord) : Io Bool := do
  let dispatch ← .ask fun | .canDispatch ok => some ok | _ => none
  if dispatch then revokeExpected expected else pure false

/-! ## The transition -/

namespace Journal

/-- Retained identities, for exact readback and revocation only. -/
def retainedZygiskAuthorities (j : Journal) : List ZygiskAuthorityRecord :=
  j.zygiskAuthority.toList ++ j.priorZygiskAuthority.toList ++ j.bootstrapAuthority.toList ++
    j.bootstrapPrevious.toList

/-- What is checked of the journal before anything is done. -/
def canRevoke (encodes : Str → ℕ → Str → Bool) (j : Journal) (expected : ZygiskAuthorityRecord)
    (boot : Str) : Bool :=
  expected.hasReference encodes && j.retainedZygiskAuthorities.contains expected &&
    validBoot boot && j.zygiskRevocation.all fun r => !(r.uncertain && r.authority ≠ expected)

/-- The operation of the last revocation of the same grant. -/
def previousRevocation (j : Journal) (expected : ZygiskAuthorityRecord) : Option OperationId :=
  (j.zygiskRevocation.filter (·.authority = expected)).bind (·.operation)

/-- The hold of an older repair goes over to the new operation. -/
def transferHold (j : Journal) (expected : ZygiskAuthorityRecord) (operation : Option OperationId) :
    Journal :=
  match j.previousRevocation expected, operation with
  | some previous, some next =>
    match j.base.get previous with
    | some entry =>
      if previous ≠ next && entry.isRevocationOnlyRepair && .native ∈ entry.heldPhases then
        { j with base := { j.base with
            operations := Daemon.Journal.withEntry j.base.operations
              { entry with supersededPhases := entry.supersededPhases ++
                [.native], supersededBy := some next } } }
      else j
    | none => j
  | _, _ => j

/-- A grant of this boot may have been consumed. -/
def noteGrant (j : Journal) (expected : ZygiskAuthorityRecord) (boot : Str) : Journal :=
  if expected.bootId = some boot then j.noteZygiskExposure boot else j

/-- The journal with the intent to revoke. -/
def intendRevocation (j : Journal) (expected : ZygiskAuthorityRecord)
    (operation : Option OperationId) (boot : Str) :
    Journal :=
  noteGrant { j.transferHold expected operation with
    zygiskRevocation := some ⟨operation, boot, expected, .running⟩ } expected boot

/-- `settle_revocation`: how the revocation has ended. -/
def settleRevocation (j : Journal) (ok : Bool) : Journal :=
  { j with zygiskRevocation := j.zygiskRevocation.map fun r =>
    { r with state := if ok then .confirmed else .unknown } }

end Journal

/-- The recipient is the one that the grant was for, and has it. -/
def Recipient.isFor (recipient : Recipient) (expected : ZygiskAuthorityRecord) : Bool :=
  recipient.identity = (expected.intent.zygiskAuthorization.map fun a => a.2.2) &&
    recipient.bundled = some true && recipient.authorized

/-- From the intent on. -/
def dispatchIntent (expected : ZygiskAuthorityRecord) (operation : Option OperationId)
    (boot : Str) :
    Io (Except PhaseOutcome Unit) := do
  setJournal (·.intendRevocation expected operation boot)
  match ← persist with
  | .failed renamed => pure (.error (if renamed then .unknown else .failedKnown))
  | .ok =>
    let ok ← dispatchRevocation expected
    setJournal (·.settleRevocation ok)
    match ← persist with
    | .failed _ => pure (.error .unknown)
    | .ok => pure (if ok then .ok () else .error .unknown)

/-- `revoke`: the grant is withdrawn, with the journal written before and after it. -/
def revoke (encodes : Str → ℕ → Str → Bool) (expected : ZygiskAuthorityRecord)
    (operation : Option OperationId) (boot : Str) : Io (Except PhaseOutcome Unit) := do
  let s ← .get
  if s.journal.canRevoke encodes expected boot then do
    let found ← .ask fun | .recipient found => some found | _ => none
    if found.any (·.isFor expected) then dispatchIntent expected operation boot
    else pure (.error .failedKnown)
  else pure (.error .failedKnown)

/-! ## Where a call can be -/

namespace Store

/-- The journal in memory is on disk. -/
def rename (s : Store) : Store := { s with disk := s.journal, log := s.log ++ [.renamed s.journal] }

/-- The write is good. -/
def confirmWrite (s : Store) : Store := { s with log := s.log ++ [.written s.journal] }

end Store

/-- A write leaves the disk as it was, or with the journal on it. -/
theorem persist_safe (s : Store) :
    persist.Safe
      (fun r s' => r = .failed false ∧ s' = s ∨ r = .failed true ∧ s' = s.rename ∨
        r = .ok ∧ s' = s.rename.confirmWrite)
      (fun s' => s' = s ∨ s' = s.rename) s := by
  refine .ask_bind (.inl rfl) fun _ renamed _ => ?_
  cases renamed with
  | false => exact .pure (.inl ⟨rfl, rfl⟩)
  | true =>
    refine .modify_bind (.ask_bind (.inr rfl) fun _ synced _ => ?_)
    cases synced with
    | false => exact .pure (.inr (.inl ⟨rfl, rfl⟩))
    | true => exact .modify_bind (.pure (.inr (.inr ⟨rfl, rfl⟩)))

/-- What the effect leaves in the log, where it succeeds and where it does not. -/
def Effect (expected : ZygiskAuthorityRecord) : Bool → List Action → Prop
  | true, actions => actions = [.unlink expected, .unlinked expected]
  | false, actions => actions = [] ∨ actions = [.unlink expected]

/-- What a dispatch can have done, and that it answers true only after it has unlinked. -/
theorem dispatchRevocation_safe (expected : ZygiskAuthorityRecord) (s : Store) :
    (dispatchRevocation expected).Safe
      (fun ok s' => ∃ actions, Effect expected ok actions ∧ s' = { s with log := s.log ++ actions })
      (fun s' => ∃ ok actions, Effect expected ok actions ∧ s' = { s with log := s.log ++ actions })
        s := by
  have hnone : s = { s with log := s.log ++ [] } := by rw [List.append_nil]
  refine .ask_bind ⟨false, [], .inl rfl, hnone⟩ fun _ dispatch _ => ?_
  cases dispatch with
  | false => exact .pure ⟨[], .inl rfl, hnone⟩
  | true =>
    refine .modify_bind (.ask_bind ⟨false, _, .inr rfl, rfl⟩ fun _ ok _ => ?_)
    cases ok with
    | false => exact .pure ⟨_, .inr rfl, rfl⟩
    | true => exact .modify_bind (.pure ⟨_, rfl, by rw [List.append_assoc]; rfl⟩)

section Reached

variable (expected : ZygiskAuthorityRecord) (operation : Option OperationId) (boot : Str)
  (journal disk : Journal)

/-- The log once the intent is written. -/
def opening (intent : Journal) : List Action := [.renamed intent, .written intent]

/-- The states that a call from `journal` and `disk` can be in at its end, or where it crashes. -/
inductive Reached : Store → Prop
  | untouched (j : Journal)
      (h : j = journal ∨ j = journal.intendRevocation expected operation boot) :
      Reached ⟨j, disk, []⟩
  | intended (intent : Journal) (h : intent = journal.intendRevocation expected operation boot) :
      Reached ⟨intent, intent, [.renamed intent]⟩
  | pending (intent : Journal) (h : intent = journal.intendRevocation expected operation boot)
      (j : Journal) (ok : Bool)
      (actions : List Action) (heffect : Effect expected ok actions)
      (hj : j = intent ∨ j = intent.settleRevocation ok) :
        Reached ⟨j, intent, opening intent ++ actions⟩
  | settled (intent : Journal) (h : intent = journal.intendRevocation expected operation boot)
      (ok : Bool) (actions : List Action) (heffect : Effect expected ok actions)
      (rest : List Action)
      (hrest : rest = [] ∨ rest = [.written (intent.settleRevocation ok)]) :
      Reached ⟨intent.settleRevocation ok, intent.settleRevocation ok,
        opening intent ++ actions ++ .renamed (intent.settleRevocation ok) :: rest⟩

/-- Wherever the write of the intent and the dispatch crash, the store is one of those that
    `Reached` names. -/
theorem dispatchIntent_safe :
    (dispatchIntent expected operation boot).Safe
      (fun _ s => Reached expected operation boot journal disk s)
    (Reached expected operation boot journal disk) ⟨journal, disk, []⟩ := by
  refine .modify_bind (.seq (persist_safe _) ?_ fun result s hs => ?_)
  · rintro s (rfl | rfl)
    · exact .untouched _ (.inr rfl)
    · exact .intended _ rfl
  obtain ⟨rfl, rfl⟩ | ⟨rfl, rfl⟩ | ⟨rfl, rfl⟩ := hs
  · exact .pure (.untouched _ (.inr rfl))
  · exact .pure (.intended _ rfl)
  refine .seq (dispatchRevocation_safe expected _) ?_ fun ok s hs => ?_
  · rintro s ⟨ok, actions, heffect, rfl⟩
    exact .pending _ rfl _ ok actions heffect (.inl rfl)
  obtain ⟨actions, heffect, rfl⟩ := hs
  refine .modify_bind (.seq (persist_safe _) ?_ fun result s hs => ?_)
  · rintro s (rfl | rfl)
    · exact .pending _ rfl _ ok actions heffect (.inr rfl)
    · exact .settled _ rfl ok actions heffect [] (.inl rfl)
  obtain ⟨rfl, rfl⟩ | ⟨rfl, rfl⟩ | ⟨rfl, rfl⟩ := hs
  · exact .pure (.pending _ rfl _ ok actions heffect (.inr rfl))
  · exact .pure (.settled _ rfl ok actions heffect [] (.inl rfl))
  · refine .pure ?_
    have hsettled : Reached expected operation boot journal disk _ :=
      .settled _ rfl ok actions heffect _ (.inr rfl)
    simpa only [Store.confirmWrite, Store.rename, opening, List.append_assoc, List.cons_append,
      List.nil_append] using hsettled

/-- The same of the whole revocation, which does nothing at all unless the journal allows it. -/
theorem revoke_safe (encodes : Str → ℕ → Str → Bool) :
    (revoke encodes expected operation boot).Safe
      (fun _ s => Reached expected operation boot journal disk s ∧
        (s.log ≠ [] → journal.canRevoke encodes expected boot))
      (fun s => Reached expected operation boot journal disk s ∧
        (s.log ≠ [] → journal.canRevoke encodes expected boot)) ⟨journal, disk, []⟩ := by
  have hrefused : Reached expected operation boot journal disk ⟨journal, disk, []⟩ :=
    .untouched _ (.inl rfl)
  refine .get_bind ?_
  dsimp only
  split_ifs with hcan
  · refine .ask_bind ⟨hrefused, fun _ => hcan⟩ fun _ found _ => ?_
    split_ifs
    · exact (dispatchIntent_safe expected operation boot journal disk).mono
        (fun _ _ h => ⟨h, fun _ => hcan⟩)
        fun _ h => ⟨h, fun _ => hcan⟩
    · exact .pure ⟨hrefused, fun _ => hcan⟩
  · exact .pure ⟨hrefused, fun h => absurd rfl h⟩

end Reached

/-! ## What is on record -/

namespace Journal

variable {encodes : Str → ℕ → Str → Bool} {others : Journal → Bool} {j j' : Journal}
  {expected : ZygiskAuthorityRecord} {operation : Option OperationId} {boot : Str}

/-- A revocation in doubt holds the native resource. -/
theorem native_mem_heldResources (h : j.revocationUncertain) : .native ∈ j.heldResources := by
  obtain ⟨r, hr, huncertain⟩ := Option.any_eq_true _ _ |>.1 h
  have hview : j.view.nativeLifecycleUncertain := by
    have hrevocation : j.view.revocationUncertain := by
      simp only [Daemon.Journal.revocationUncertain, view, hr, Option.map_some, Option.any_some]
      exact huncertain
    simp only [Daemon.Journal.nativeLifecycleUncertain, hrevocation, Bool.or_true]
  rw [heldResources, Daemon.Journal.heldResources, List.mem_filter]
  refine ⟨ConfigPhase.mem_all _, ?_⟩
  simp [Daemon.Journal.holds, hview]

theorem intendRevocation_eq :
    (j.intendRevocation expected operation boot).zygiskRevocation =
      some ⟨operation, boot, expected, .running⟩ ∧
        (j.intendRevocation expected operation boot).base =
          (j.transferHold expected operation).base := by
  rw [intendRevocation, noteGrant]
  split_ifs
  · exact ⟨rfl, rfl⟩
  · exact ⟨rfl, rfl⟩

theorem settleRevocation_intend (ok : Bool) :
    ((j.intendRevocation expected operation boot).settleRevocation ok).zygiskRevocation =
      some ⟨operation, boot, expected, if ok then .confirmed else .unknown⟩ := by
  rw [settleRevocation, intendRevocation_eq.1]
  rfl

/-- The record of the revocation is read back as it was written. -/
theorem read_zygiskRevocation (h : j.read encodes others = some j') :
    j'.zygiskRevocation = j.zygiskRevocation := by
  rw [read] at h
  split_ifs at h
  cases h
  rfl

end Journal

/-- A repair that was superseded holds nothing. -/
theorem heldPhases_of_superseded {e : JournalEntry} (h : e.supersededBy.isSome) :
    e.heldPhases = [] := by
  rw [JournalEntry.heldPhases, if_pos (.inl h)]

/-- The receipt that takes the slot of another is found in its place. -/
theorem find?_withEntry {entries : List JournalEntry} {e e' : JournalEntry}
    (h : entries.find? (·.record.op = e'.record.op) = some e) :
    (Daemon.Journal.withEntry entries e').find? (·.record.op = e'.record.op) = some e' := by
  obtain ⟨-, before, after, rfl, hbefore⟩ := List.find?_eq_some_iff_append.1 h
  have he : e.record.op = e'.record.op := by simpa using List.find?_some h
  have hidx : (before ++ e :: after).findIdx? (fun x => x.record.op = e'.record.op) =
      some before.length := by
    rw [List.findIdx?_append, List.findIdx?_eq_none_iff.2 fun x hx => by simpa using hbefore x hx]
    simp [List.findIdx?_cons, he]
  have hslot : Daemon.Journal.withEntry (before ++ e :: after) e' = before ++ e' :: after := by
    simp only [Daemon.Journal.withEntry, hidx]
    rw [List.set_append_right _ _ (le_refl _), Nat.sub_self, List.set_cons_zero]
  rw [hslot, List.find?_append, List.find?_eq_none.2 fun x hx => by simpa using hbefore x hx,
    Option.none_or, List.find?_cons_of_pos (by simp)]

namespace Journal

variable {j : Journal} {expected : ZygiskAuthorityRecord} {previous next : OperationId}
  {entry : JournalEntry}

/-- The newer operation takes over from the repair that it follows. -/
structure TakesOver (j : Journal) (expected : ZygiskAuthorityRecord) (previous next : OperationId)
    (entry : JournalEntry) : Prop where
  follows : j.previousRevocation expected = some previous
  newer : previous ≠ next
  found : j.base.get previous = some entry
  repair : entry.isRevocationOnlyRepair
  held : ConfigPhase.native ∈ entry.heldPhases

/-- Then the older repair holds nothing any more. -/
theorem get_transferHold (h : j.TakesOver expected previous next entry) :
    ∃ e, (j.transferHold expected (some next)).base.get previous = some e ∧
      e.supersededBy = some next ∧ e.heldPhases = [] := by
  have hop : entry.record.op = previous := by simpa using List.find?_some h.found
  let e : JournalEntry :=
    { entry with supersededPhases := entry.supersededPhases ++
      [.native], supersededBy := some next }
  refine ⟨e, ?_, rfl, heldPhases_of_superseded rfl⟩
  have hcond :
      (previous ≠ next && entry.isRevocationOnlyRepair && .native ∈ entry.heldPhases) = true := by
    simp [h.newer, h.repair, h.held]
  simp only [transferHold, h.follows, h.found]
  rw [if_pos hcond]
  subst hop
  have hfound :
      (Daemon.Journal.withEntry j.base.operations e).find? (·.record.op = e.record.op) = some e :=
    find?_withEntry h.found
  exact hfound

end Journal

/-! ## Main result -/

section Exact

variable {expected : ZygiskAuthorityRecord} {operation : Option OperationId} {boot : Str}
  {journal disk : Journal} {s : Store}

/-- The effect is dispatched after the intent was written, for this grant. -/
theorem Reached.unlink (h : Reached expected operation boot journal disk s)
    {before after : List Action} {a : ZygiskAuthorityRecord}
    (hlog : s.log = before ++ .unlink a :: after) :
    a = expected ∧ ∃ j, .written j ∈ before ∧
      j.zygiskRevocation = some ⟨operation, boot, expected, .running⟩ := by
  -- An effect comes after the two records of the opening,
  have hopening (rest : List Action)
      (heq : opening (journal.intendRevocation expected operation boot) ++ rest =
        before ++ .unlink a :: after) :
      .unlink a ∈ rest ∧ .written (journal.intendRevocation expected operation boot) ∈ before := by
    rw [opening] at heq
    match before with
    | [] => cases heq
    | [_] => cases heq
    | x :: y :: before =>
      simp only [List.cons_append, List.nil_append, List.cons.injEq] at heq
      obtain ⟨-, rfl, rfl⟩ := heq
      exact ⟨List.mem_append_right _ List.mem_cons_self, List.mem_cons_of_mem _ List.mem_cons_self⟩
  -- and is for the grant that was expected.
  have heffect {ok : Bool} {actions : List Action} (heffect : Effect expected ok actions)
      (hmem : .unlink a ∈ actions) :
      a = expected := by
    cases ok with
    | true =>
      rw [heffect] at hmem
      simpa using hmem
    | false =>
      obtain rfl | rfl := heffect
      · exact absurd hmem List.not_mem_nil
      · simpa using hmem
  -- By how far the revocation has come.
  cases h with
  | untouched j h => simp at hlog
  | intended intent h => cases before with
    | nil => cases hlog
    | cons x before => simp at hlog
  | pending intent h j ok actions hactions hj =>
    subst h
    obtain ⟨hmem, hwritten⟩ := hopening actions hlog
    exact ⟨heffect hactions hmem, _, hwritten, Journal.intendRevocation_eq.1⟩
  | settled intent h ok actions hactions rest hrest =>
    subst h
    rw [List.append_assoc] at hlog
    obtain ⟨hmem, hwritten⟩ := hopening _ hlog
    refine ⟨?_, _, hwritten, Journal.intendRevocation_eq.1⟩
    obtain hmem | hmem := List.mem_append.1 hmem
    · exact heffect hactions hmem
    · obtain rfl | rfl := hrest <;> simp at hmem

/-- An effect that reports success has unlinked the authority. -/
theorem Effect.unlinked {actions : List Action} (h : Effect expected true actions) :
    .unlinked expected ∈ actions := by
  rw [h]
  exact List.mem_cons_of_mem _ List.mem_cons_self

/-- An effect writes no journal. -/
theorem Effect.renamed_notMem {ok : Bool} {actions : List Action} (h : Effect expected ok actions)
    (j : Journal) :
    .renamed j ∉ actions := by
  cases ok with
  | true =>
    rw [h]
    simp
  | false =>
    obtain rfl | rfl := h
    · exact List.not_mem_nil
    · simp

/-- A journal with a revocation of this grant that is not confirmed holds native delivery. -/
theorem native_held {j : Journal} {state : RevocationState}
    (h : j.zygiskRevocation = some ⟨operation, boot, expected, state⟩)
    (hstate : state ≠ .confirmed) :
    .native ∈ j.heldResources :=
  Journal.native_mem_heldResources
    (by simp [Journal.revocationUncertain, h, Revocation.uncertain, hstate])

/-- The journal has the revocation of this grant on record, and the hold that it took over. -/
def Recorded (expected : ZygiskAuthorityRecord) (operation : Option OperationId) (boot : Str)
    (journal : Journal) (log : List Action) (j : Journal) : Prop :=
  ∃ state, j.zygiskRevocation = some ⟨operation, boot, expected, state⟩ ∧
    (state = .confirmed → .unlinked expected ∈ log) ∧
    j.base = (journal.transferHold expected operation).base

/-- After the intent the record stands at its running state. -/
theorem recorded_intent (log : List Action) :
    Recorded expected operation boot journal log
      (journal.intendRevocation expected operation boot) :=
  ⟨.running, Journal.intendRevocation_eq.1, fun hcon => (by cases hcon),
    Journal.intendRevocation_eq.2⟩

/-- After the effect it stands at what the effect answered. -/
theorem recorded_settled {ok : Bool} {log : List Action}
    (hok : ok = true → .unlinked expected ∈ log) :
    Recorded expected operation boot journal log
      ((journal.intendRevocation expected operation boot).settleRevocation ok) := by
  refine ⟨_, Journal.settleRevocation_intend ok, fun hcon => hok ?_, Journal.intendRevocation_eq.2⟩
  cases ok with
  | true => rfl
  | false => cases hcon

/-- What is in memory and what is on disk was there, or is on record. -/
theorem Reached.recorded (h : Reached expected operation boot journal disk s) :
    (s.journal = journal ∨ Recorded expected operation boot journal s.log s.journal) ∧
      (s.disk = disk ∨ Recorded expected operation boot journal s.log s.disk) := by
  cases h with
  | untouched j h =>
    obtain rfl | rfl := h
    · exact ⟨.inl rfl, .inl rfl⟩
    · exact ⟨.inr (recorded_intent _), .inl rfl⟩
  | intended intent h =>
    subst h
    exact ⟨.inr (recorded_intent _), .inr (recorded_intent _)⟩
  | pending intent h j ok actions heffect hj =>
    subst h
    refine ⟨.inr ?_, .inr (recorded_intent _)⟩
    obtain rfl | rfl := hj
    · exact recorded_intent _
    · refine recorded_settled ?_
      rintro rfl
      exact List.mem_append_right _ heffect.unlinked
  | settled intent h ok actions heffect rest hrest =>
    subst h
    have hsettled : Recorded expected operation boot journal
        (opening (journal.intendRevocation expected operation boot) ++ actions ++
          .renamed ((journal.intendRevocation expected operation boot).settleRevocation ok) :: rest)
        ((journal.intendRevocation expected operation boot).settleRevocation ok) := by
      refine recorded_settled ?_
      rintro rfl
      exact List.mem_append_left _ (List.mem_append_right _ heffect.unlinked)
    exact ⟨.inr hsettled, .inr hsettled⟩

/-- So is all that ever came on disk. -/
theorem Reached.renamed (h : Reached expected operation boot journal disk s) {d : Journal}
    (hd : .renamed d ∈ s.log) :
    Recorded expected operation boot journal s.log d := by
  cases h with
  | untouched j h => exact absurd hd List.not_mem_nil
  | intended intent h =>
    subst h
    cases List.mem_singleton.1 hd
    exact recorded_intent _
  | pending intent h j ok actions heffect hj =>
    subst h
    obtain hopening | hactions := List.mem_append.1 hd
    · have heq : d = journal.intendRevocation expected operation boot := by
        simpa [opening] using hopening
      rw [heq]
      exact recorded_intent _
    · exact absurd hactions (heffect.renamed_notMem d)
  | settled intent h ok actions heffect rest hrest =>
    subst h
    obtain hbefore | hlast := List.mem_append.1 hd
    · obtain hopening | hactions := List.mem_append.1 hbefore
      · have heq : d = journal.intendRevocation expected operation boot := by
          simpa [opening] using hopening
        rw [heq]
        exact recorded_intent _
      · exact absurd hactions (heffect.renamed_notMem d)
    · have heq : d = (journal.intendRevocation expected operation boot).settleRevocation ok := by
        obtain rfl | rfl := hrest
        · simpa using hlast
        · simpa using hlast
      subst heq
      refine recorded_settled ?_
      rintro rfl
      exact List.mem_append_left _ (List.mem_append_right _ heffect.unlinked)

/-- What a restart makes of a revocation on record. -/
theorem Recorded.restart {encodes : Str → ℕ → Str → Bool} {others : Journal → Bool}
    {log : List Action} {d j : Journal} (h : Recorded expected operation boot journal log d)
    (hread : d.read encodes others = some j) :
    ∃ r, j.fenceUnresolved.zygiskRevocation = some r ∧ r.authority = expected ∧
      (r.state = .confirmed ∧ .unlinked expected ∈ log ∨
        r.state = .unknown ∧ .native ∈ j.fenceUnresolved.heldResources) := by
  obtain ⟨state, hstate, hconfirmed, -⟩ := h
  have hfence : j.fenceUnresolved.zygiskRevocation =
      some ⟨operation, boot, expected, if state = .running then .unknown else state⟩ := by
    simp only [Journal.fenceUnresolved, Journal.read_zygiskRevocation hread,
      hstate, Option.map_some]
    split_ifs <;> rfl
  refine ⟨_, hfence, rfl, ?_⟩
  cases state with
  | running => exact .inr ⟨rfl, native_held hfence (by decide)⟩
  | confirmed => exact .inl ⟨rfl, hconfirmed rfl⟩
  | unknown => exact .inr ⟨rfl, native_held hfence (by decide)⟩

end Exact

/-- While a revocation is in doubt, only the same authority can be revoked again. -/
theorem Journal.authority_of_canRevoke {encodes : Str → ℕ → Str → Bool} {journal : Journal}
    {expected : ZygiskAuthorityRecord} {boot : Str} (h : journal.canRevoke encodes expected boot)
    {r : Revocation}
    (hr : journal.zygiskRevocation = some r) (huncertain : r.uncertain) :
    r.authority = expected := by
  simp only [canRevoke, hr, Option.all_some, huncertain, Bool.true_and, Bool.and_eq_true,
    Bool.not_eq_true', decide_eq_false_iff_not, not_not] at h
  exact h.2

/-- Revoking a grant, whatever becomes of its writes, and wherever it crashes. The file is
    removed only after the intent was written, and while no revocation of another grant is
    uncertain; what is recorded as confirmed was removed. After a restart the revocation is
    untouched, or confirmed and done, or unknown and held. Whatever comes on disk has the new
    intent on record, in the place of the hold of an older repair that it takes over; so
    native delivery is held on disk, until the revocation is confirmed. -/
theorem revocation_exact (encodes : Str → ℕ → Str → Bool) (others : Journal → Bool)
    (expected : ZygiskAuthorityRecord) (operation : Option OperationId) (boot : Str)
    (journal disk : Journal) (tape : List Answer) :
    let s := (revoke encodes expected operation boot tape ⟨journal, disk, []⟩).state
    (∀ before a after, s.log = before ++ .unlink a :: after → a = expected ∧
      (∃ j, .written j ∈ before ∧ j.zygiskRevocation = some ⟨operation, boot, expected, .running⟩) ∧
      ∀ r, journal.zygiskRevocation = some r → r.uncertain → r.authority = expected) ∧
    (s.journal = journal ∨ ∃ state, s.journal.zygiskRevocation =
      some ⟨operation, boot, expected, state⟩ ∧ (state = .confirmed → .unlinked expected ∈ s.log)) ∧
    (s.disk = disk ∨ ∀ j, s.disk.read encodes others = some j →
      ∃ r, j.fenceUnresolved.zygiskRevocation = some r ∧ r.authority = expected ∧
        (r.state = .confirmed ∧ .unlinked expected ∈ s.log ∨
          r.state = .unknown ∧ .native ∈ j.fenceUnresolved.heldResources)) ∧
    (disk.revocationUncertain → .native ∈ disk.heldResources) ∧
    ∀ d, .renamed d ∈ s.log →
      (∃ state, d.zygiskRevocation = some ⟨operation, boot, expected, state⟩ ∧
        (state = .confirmed ∧ .unlinked expected ∈ s.log ∨ .native ∈ d.heldResources)) ∧
      ∀ previous next entry, operation = some next →
        journal.TakesOver expected previous next entry → ∃ e, d.base.get previous = some e ∧
          e.supersededBy = some next ∧ e.heldPhases = [] := by
  intro s
  -- Whether the tape lets the program end or cuts it off, the store is one that can be reached.
  obtain ⟨hreached, hcan⟩ : Reached expected operation boot journal disk s ∧
      (s.log ≠ [] → journal.canRevoke encodes expected boot) := by
    obtain ⟨a, tape', s', heq, hs⟩ | ⟨s', heq, hs⟩ :=
      (revoke_safe expected operation boot journal disk encodes).run tape
    · simp only [s, heq]
      exact hs
    · simp only [s, heq]
      exact hs
  refine ⟨fun before a after hlog => ?_, ?_, ?_, Journal.native_mem_heldResources, fun d hd => ?_⟩
  · -- An unlink comes after the intent was written, and is of the authority that was asked for.
    obtain ⟨ha, hwritten⟩ := hreached.unlink hlog
    refine ⟨ha, hwritten, fun r hr huncertain => ?_⟩
    exact Journal.authority_of_canRevoke (hcan (by simp [hlog])) hr huncertain
  · obtain hsame | ⟨state, hstate, hconfirmed, -⟩ := hreached.recorded.1
    · exact .inl hsame
    · exact .inr ⟨state, hstate, hconfirmed⟩
  · obtain hsame | hrecorded := hreached.recorded.2
    · exact .inl hsame
    · exact .inr fun j hread => hrecorded.restart hread
  · obtain ⟨state, hstate, hconfirmed, hbase⟩ := hreached.renamed hd
    refine ⟨⟨state, hstate, ?_⟩, ?_⟩
    · -- A record that is not confirmed holds the native resource until it is settled.
      by_cases hcon : state = .confirmed
      · exact .inl ⟨hcon, hconfirmed hcon⟩
      · exact .inr (native_held hstate hcon)
    · -- The hold of the operation before is handed on.
      rintro previous next entry rfl htakes
      rw [hbase]
      exact Journal.get_transferHold htakes

/-- A grant for the boot `a`. -/
def bootGrant : ZygiskAuthorityRecord := ⟨7, ⟨.zygisk, [], some ['/'], some (['a'], 7, 1, 2)⟩⟩

/-- A repair by which it is not certain that the grant was revoked. -/
def uncertainRepair : JournalEntry :=
  ⟨some ⟨0, 0, []⟩, some .edit, none, [], false, 0, .repairActivation, none, none,
    ⟨1, [⟨.native, .unknown⟩], some .unknown⟩⟩

/-- A journal with a repair whose revocation is of unknown end. -/
def uncertainJournal : Journal :=
  { Journal.empty with
    base := { Daemon.Journal.empty with operations := [uncertainRepair], issuedThrough := 2 }
    zygiskAuthority := some bootGrant
    zygiskRevocation := some ⟨some 1, ['a'], bootGrant, .unknown⟩ }

/-- The next repair finds the grant, and all that it does succeeds. -/
def allSucceeds : List Answer :=
  [.recipient (some ⟨some (1, 2), some true, true⟩), .renamed true, .synced true, .canDispatch true,
    .revoked true, .renamed true, .synced true]

theorem revocation_exact_repairedAgain :
    let s := (revoke (fun _ _ _ => true) bootGrant (some 2) ['a'] allSucceeds
      ⟨uncertainJournal, uncertainJournal, []⟩).state
    (∃ before after, s.log = before ++ .unlink bootGrant :: after ∧
      ∃ j, .written j ∈ before ∧ j.zygiskRevocation = some ⟨some 2, ['a'], bootGrant, .running⟩) ∧
    ∀ d, .renamed d ∈ s.log → ∃ e, d.base.get 1 = some e ∧ e.supersededBy = some 2 ∧
    e.heldPhases = [] := by
  intro s
  have hlog : s.log = [.renamed (uncertainJournal.intendRevocation bootGrant (some 2) ['a']),
      .written (uncertainJournal.intendRevocation bootGrant (some 2) ['a'])] ++ .unlink bootGrant ::
      [.unlinked bootGrant,
        .renamed ((uncertainJournal.intendRevocation bootGrant (some 2) ['a']).settleRevocation
          true),
        .written ((uncertainJournal.intendRevocation bootGrant (some 2) ['a']).settleRevocation
          true)] := rfl
  have htakes : uncertainJournal.TakesOver bootGrant 1 2 uncertainRepair :=
    ⟨rfl, by decide, rfl, by decide, by decide⟩
  obtain ⟨hunlink, -, -, -, hrenamed⟩ :=
    revocation_exact (fun _ _ _ => true) (fun _ => true) bootGrant (some 2) ['a']
    uncertainJournal uncertainJournal allSucceeds
  exact ⟨⟨_, _, hlog, (hunlink _ _ _ hlog).2.1⟩, fun d hd =>
    (hrenamed d hd).2 1 2 uncertainRepair rfl htakes⟩

end VpnHide.Native

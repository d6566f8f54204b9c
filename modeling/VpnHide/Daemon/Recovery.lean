import VpnHide.Daemon.Execute

/-!
# Recovery

What a restart makes of the journal (`load_with_journal` in `core-daemon/src/server.rs`).
Work in flight becomes uncertain (`Journal::fence_unresolved`), and what the config file and
the files of Zygisk say may resolve it (`core-daemon/src/recovery.rs`); no effect is
dispatched. The revision of the config advances to that of the last write that is known to
have landed.
-/

namespace VpnHide.Daemon

open Lib Config

/-! ## Fencing -/

/-- What was under way ends: unknown if it was dispatched, else failed. -/
def fenceRunning (outcome : PhaseOutcome) (dispatched : Bool) : PhaseOutcome :=
  if outcome = .running then if dispatched then .unknown else .failedKnown else outcome

/-- A publication at boot that was under way. -/
def ProjectionBootstrap.fenceRestart (w : ProjectionBootstrap) : ProjectionBootstrap :=
  { w with outcome := fenceRunning w.outcome w.publicationIntent }

/-- A projection that was under way. -/
def ProjectionWork.fenceRestart (w : ProjectionWork) : ProjectionWork :=
  { w with outcome := fenceRunning w.outcome w.dispatchIntent }

/-- A replacement that was under way. -/
def ReplacementWork.fenceRestart (w : ReplacementWork) : ReplacementWork :=
  match w.stage with
  | .accepted => { w with stage := .unknown }
  | .dispatching => { w with stage := .unknown }
  | .verifyingStaged => { w with stage := .unknown }
  | .retiringLegacy => { w with stage := .unknown }
  | _ => w

namespace JournalEntry

/-- A receipt of one phase that is settled by what else is on record. -/
def settleFirst (e : JournalEntry) (outcome : PhaseOutcome) : JournalEntry :=
  if !e.finalizedUnknown && e.record.settled.isNone then
    { e with record := { e.record with
        phases := e.record.phases.modifyHead fun p => { p with outcome }, settled :=
          some outcome } }
  else e

/-- Work in flight is uncertain. -/
def fence (e : JournalEntry) : JournalEntry :=
  let phases :=
    e.record.phases.map fun p => if p.outcome = .running then { p with outcome := .unknown } else p
  let uncertain := e.record.settled = some .unknown || e.record.settled.isNone ||
    e.record.phases.any fun p => p.outcome = .running
  { e with
    finalizedUnknown := e.finalizedUnknown || e.record.settled = some .unknown
    record := { e.record with phases, settled := if uncertain then some .unknown
      else e.record.settled } }

end JournalEntry

namespace Journal

/-- A projection that was never dispatched has failed. -/
def fenceProjection (j : Journal) : Journal :=
  match j.zygiskProjection.map (·.fenceRestart) with
  | none => j
  | some work =>
    { j with
      zygiskProjection := some work
      operations := j.operations.map fun e =>
        if work.outcome = .failedKnown && e.record.op = work.operation then
          e.settleFirst .failedKnown else e }

/-- The completion of a revocation is durable before that of its repair. -/
def fenceRevocation (j : Journal) : Journal :=
  match j.zygiskRevocation with
  | none => j
  | some r =>
    { j with
      zygiskRevocation := some (if r.state = .running then { r with state := .unknown } else r)
      operations := j.operations.map fun e =>
        if r.state = .confirmed && r.operation = some e.record.op && e.isRevocationOnlyRepair then
          e.settleFirst .confirmed
        else e }

/-- `fence_unresolved`: nothing is under way any more after a restart. -/
def fenceUnresolved (j : Journal) : Journal :=
  let j := fenceProjection { j with zygiskBootstrap := j.zygiskBootstrap.map (·.fenceRestart) }
  let j := fenceRevocation { j with replacement := j.replacement.map (·.fenceRestart) }
  { j with operations := j.operations.map (·.fence) }

end Journal

/-! ## Evidence -/

/-- What can be read of a file. -/
inductive FileRead
  | content (text : Str)
  | absent
  | error
  deriving DecidableEq

/-- A Zygisk module, as it is found. -/
structure ModuleView where
  /-- Whether it is the bundled one, where this can be told. -/
  bundled : Option Bool
  targets : FileRead
  identity : Option (ℕ × ℕ)
  /-- The generation and the policy that are authorised for this boot. -/
  authorized : Option (ℕ × Str)

/-- The device at a restart. -/
structure Device where
  bootId : Str
  modules : Str → Option ModuleView

/-- What is published to a Zygisk module; no kernel backend shows what was applied. -/
def reconcileNative (device : Device) (intent : Option NativeIntent) : PhaseOutcome :=
  match intent with
  | none => .unknown
  | some intent =>
    match intent.backend, intent.zygiskModule.bind device.modules with
    | .zygisk, some view =>
      match intent.zygiskAuthorization with
      | some (boot, generation, directory) =>
        if device.bootId = boot && view.identity = some directory &&
          view.authorized = some (generation, intent.wire) then .confirmed
        else .unknown
      | none =>
        if view.bundled ≠ some false then .unknown
        else match view.targets with
          | .content text => if intent.wire = text then .confirmed else .failedKnown
          | .absent => .failedKnown
          | .error => .unknown
    | _, _ => .unknown

/-- What the evidence says of a phase. -/
def resolvePhase (device : Device) (file : Option CanonicalConfig) (e : JournalEntry)
    (candidate : CanonicalConfig) :
    ConfigPhase → PhaseOutcome
  | .persist =>
    let target := if e.command = some .fullReset then none else some candidate
    if file = target then .confirmed else .failedKnown
  | .native => reconcileNative device e.nativeIntent
  | _ => .unknown

/-- `settle_from_phases`: how an operation is settled, by how its phases ended. -/
def settleFromPhases (phases : List PhaseRecord) : PhaseOutcome :=
  if phases.isEmpty then .unknown
  else if phases.any fun p => p.outcome = .unknown || p.outcome = .running then .unknown
  else if phases.any fun p => p.outcome = .failedKnown then .failedKnown
  else if phases.any fun p => p.outcome = .notAttempted then .unknown
  else .confirmed

/-- Whether a receipt is settled for good. -/
def JournalEntry.isComplete (e : JournalEntry) : Bool :=
  (e.record.settled = some .confirmed || e.record.settled = some .failedKnown) &&
    !e.record.phases.any fun p => p.outcome = .unknown || p.outcome = .running

/-- `reconcile_entry`: what is still open is looked up on the device. -/
def reconcileEntry (device : Device) (file : Option CanonicalConfig) (e : JournalEntry) :
    JournalEntry :=
  if e.supersededBy.isSome || e.finalizedUnknown || e.isComplete then e
  else match e.candidate with
    | none => e
    | some candidate =>
      let phases := e.record.phases.map fun p =>
        if p.outcome ≠ .unknown || p.phase ∈ e.supersededPhases then p
        else { p with outcome := resolvePhase device file e candidate p.phase }
      { e with record := { e.record with phases, settled := some (settleFromPhases phases) } }

/-- What stays uncertain after this is so for good. -/
def recoverEntry (device : Device) (file : Option CanonicalConfig) (e : JournalEntry) :
    JournalEntry :=
  let e := reconcileEntry device file e
  { e with finalizedUnknown := e.finalizedUnknown || e.record.settled = some .unknown }

/-! ## The revision -/

/-- The write is known to have landed. -/
def persistCommitObserved (e : JournalEntry) (durable : Option CanonicalConfig) : Bool :=
  e.record.phases.any fun p => p.phase = .persist &&
    (p.outcome = .confirmed || (p.outcome = .unknown &&
      if e.command = some .fullReset then durable.isNone else e.candidate.isSome &&
        e.candidate = durable))

/-- The revision after a receipt is looked at. -/
def revisionAfterReconcile (durable : Option CanonicalConfig) (revision : ℕ)
    (e : JournalEntry) : ℕ :=
  match e.admission with
  | none => revision
  | some a => if persistCommitObserved e durable then max revision a.commitRevision else revision

/-- The revision and the writes of the proof that outlived its receipt. -/
def observedPending (j : Journal) (durable : Option CanonicalConfig) : Option Admission :=
  (j.pendingPersist.filter (·.matches durable)).bind (·.admission)

/-- The revision that the evidence gives. -/
def observedRevision (j : Journal) (durable : Option CanonicalConfig) : ℕ :=
  let revision := j.operations.foldl (revisionAfterReconcile durable) j.configRevision
  match observedPending j durable with
  | none => revision
  | some a => max revision a.commitRevision

/-- The fields that a write which landed has committed. -/
def noteObserved (durable : Option CanonicalConfig) (fieldRevisions : StrMap ℕ) (e : JournalEntry) :
    StrMap ℕ :=
  match e.admission with
  | none => fieldRevisions
  | some a =>
    if persistCommitObserved e durable then noteWrites fieldRevisions a.writes a.commitRevision
      else fieldRevisions

/-- The fields that all receipts have committed. -/
def observedFields (j : Journal) (durable : Option CanonicalConfig) : StrMap ℕ :=
  let fieldRevisions := match observedPending j durable with
    | none => j.fieldRevisions
    | some a => noteWrites j.fieldRevisions a.writes a.commitRevision
  j.operations.foldl (noteObserved durable) fieldRevisions

/-! ## Restart -/

/-- The journal that a restart continues with, from what was read. -/
def recoverJournal (device : Device) (file : Option CanonicalConfig) (j : Journal) : Journal :=
  let j := j.fenceUnresolved
  let j := { j with debugLeases := [], operations := j.operations.map (recoverEntry device file) }
  { j with configRevision := observedRevision j file, fieldRevisions := observedFields j file }

/-- The revision that is published; a config without a journal has the first one. -/
def loadedRevision (file : Option CanonicalConfig) (j : Journal) : ℕ :=
  match file with
  | some _ => if 0 < j.configRevision then j.configRevision else 1
  | none => j.configRevision

/-- What reading the journal does to it, before retention. -/
def Journal.upgrade (j : Journal) : Journal :=
  let expiredThrough := max ((j.retiredIds.max?).getD 0) j.expiredThrough
  { j with
    conflictFloor := min j.conflictFloor j.configRevision
    retainSettled := min j.retainSettled defaultRetainSettled
    expiredThrough := expiredThrough
    issuedThrough :=
      max (max (((j.operations.map (·.record.op)).max?).getD 0) j.issuedThrough) expiredThrough
    retiredIds := [] }

/-- A migration is an upgrade, and then a prune. -/
theorem Journal.prune_upgrade (j : Journal) : j.upgrade.prune = j.migrate := rfl

/-- Starting Core; it may fail, and be started again. -/
def loadWithJournal (env : Env) (device : Device) : Core Bool := do
  let w ← .get
  match w.file.map env.validate with
  | some (.error _) => pure false
  | _ =>
    let j ← prune w.disk.upgrade
    let j := recoverJournal device w.file j
    if (← writeAtomic j) ≠ .written then pure false
    else do
      .modify fun w => { w with fault := false, live := [] }
      installStore ⟨w.file, loadedRevision w.file j, j, j.fieldRevisions⟩
      pure true

end VpnHide.Daemon

import VpnHide.Daemon.Recovery

/-!
# Staging the managed Zygisk module

The work of staging the managed module, with its receipt and the choice of a backend that it
confirms, in one journal (`maintenance/zygisk_projection/work.rs`, `journal/backend_choice.rs`).
`Journal.recordProjection` records the work and its receipt together; `Journal.reconcileUnfinished`
and `Journal.fenceUnresolved` settle what a restart finds.

Each of these keeps the journal sound (`Journal.Sound`): the work has its receipt, which says the
same of its outcome, and the choice of a backend is that of a confirmed work.
-/

namespace VpnHide.Staging

open Lib Daemon

/-! ## Work -/

/-- Why a projection has failed, or is of unknown end. -/
inductive ProjectionFailure
  | interruptedBeforeDispatch
  | sourcesChangedBeforeSpawn
  | managerOutcomeUnknown
  | readbackUnknown
  deriving DecidableEq

/-- The descriptor, the source image and the manager that a work is bound to are `E`, what
    was found staged is `G`. This is what the work needs to know of them. -/
structure Checks (E G : Type) where
  /-- The operation in the descriptor. -/
  operation : E → OperationId
  /-- The descriptor, the source and the manager are valid. -/
  evidence : E → Bool
  /-- What is staged is valid for the descriptor. -/
  staging : G → E → Bool
  boot : Str → Bool

variable {E G : Type} [DecidableEq E] [DecidableEq G]

/-- A projection of the choice of a backend, and how far it has got. -/
structure ProjectionWork (E G : Type) where
  operation : OperationId
  request : BackendChoiceRequest
  bootId : Str
  evidence : E
  dispatchIntent : Bool
  outcome : PhaseOutcome
  failure : Option ProjectionFailure
  staging : Option G
  deriving DecidableEq

/-- The warning is acknowledged just where there is one. -/
def validateRequest (r : BackendChoiceRequest) : Bool :=
  r.acknowledgedWarning = decide (r.choice = .fixed .zygisk)

namespace ProjectionWork

/-- The outcome, the failure and the result belong together. -/
def stateValid (c : Checks E G) (w : ProjectionWork E G) : Bool :=
  match w.outcome, w.failure, w.staging with
  | .running, none, none => true
  | .failedKnown, some .sourcesChangedBeforeSpawn, none => true
  | .failedKnown, some .interruptedBeforeDispatch, none => !w.dispatchIntent
  | .unknown, some .managerOutcomeUnknown, none => w.dispatchIntent
  | .unknown, some .readbackUnknown, none => w.dispatchIntent
  | .confirmed, none, some staging => w.dispatchIntent && c.staging staging w.evidence
  | _, _, _ => false

/-- `valid`: a work may be in a journal. -/
def valid (c : Checks E G) (w : ProjectionWork E G) (issued : ℕ) : Bool :=
  0 < w.operation && w.operation ≤ issued && w.operation = c.operation w.evidence &&
    w.request.expectedRevision < 2 ^ 64 - 1 && validateRequest w.request &&
      w.request.choice = .fixed .zygisk &&
    c.evidence w.evidence && c.boot w.bootId && w.stateValid c

/-- `permits_successor`: a work may become another one. -/
def permitsSuccessor (w next : ProjectionWork E G) : Bool :=
  w = next ||
    w.operation = next.operation && w.request = next.request && w.bootId = next.bootId &&
      w.evidence = next.evidence && !(w.dispatchIntent && !next.dispatchIntent) &&
        w.outcome = .running &&
      if w.dispatchIntent then next.outcome = .confirmed || next.outcome = .unknown ||
        next.outcome = .failedKnown
      else (next.outcome = .running && next.dispatchIntent) ||
        (next.outcome = .failedKnown && !next.dispatchIntent)

/-- The work is kept. -/
def retained (w : ProjectionWork E G) : Bool := w.outcome ≠ .failedKnown

/-- Nothing else may touch the runtime meanwhile. -/
def blocksRuntime (w : ProjectionWork E G) : Bool := w.outcome = .running || w.outcome = .unknown

/-- `fence_restart`: after a restart nothing is under way. -/
def fenceRestart (w : ProjectionWork E G) : ProjectionWork E G :=
  if w.outcome = .running then
    if w.dispatchIntent then { w with outcome := .unknown, failure := some .managerOutcomeUnknown }
    else { w with outcome := .failedKnown, failure := some .interruptedBeforeDispatch }
  else w

/-- What the journal's other parts know of the work. -/
def summary (w : ProjectionWork E G) : Daemon.ProjectionWork :=
  ⟨w.operation, w.dispatchIntent, w.outcome⟩

/-- How a receipt is settled. -/
def settled (w : ProjectionWork E G) : Option PhaseOutcome :=
  if w.outcome = .running then none else some w.outcome

end ProjectionWork

/-! ## The journal -/

/-- The choice that was made last, and by which operation. -/
structure BackendChoiceRecord where
  revision : ℕ
  request : BackendChoiceRequest
  operation : OperationId
  requestedInBoot : Str
  deriving DecidableEq

/-- The journal with its work and the choice of a backend. Its version is the current one. -/
structure Journal (E G : Type) where
  base : Daemon.Journal
  zygiskProjection : Option (ProjectionWork E G)
  backendChoice : Option BackendChoiceRecord

/-- The receipt of a work. -/
def receipt (base : ℕ) (w : ProjectionWork E G) : JournalEntry where
  admission := some ⟨base, base, []⟩
  command := some (.stageBackendChoice w.request)
  supersededBy := none
  supersededPhases := []
  finalizedUnknown := w.outcome = .unknown
  base := base
  edit := .repairActivation
  candidate := none
  nativeIntent := none
  record := ⟨w.operation, [⟨.maintenance, w.outcome⟩], w.settled⟩

namespace Journal

/-- The journal without the details of the work. -/
def view (j : Journal E G) : Daemon.Journal :=
  { j.base with zygiskProjection := j.zygiskProjection.map (·.summary) }

/-- The receipt says what the work does. -/
def receiptMatches (e : JournalEntry) (w : ProjectionWork E G) : Bool :=
  e.command = some (.stageBackendChoice w.request) &&
    e.record.phases = [⟨.maintenance, w.outcome⟩] && e.record.settled = w.settled &&
      e.supersededPhases.isEmpty

/-- The choice is that of the work, if it is confirmed, and of another one else. -/
def choiceMatches (choice : Option BackendChoiceRecord) (w : ProjectionWork E G) : Bool :=
  let choice := choice.filter (·.operation = w.operation)
  if w.outcome = .confirmed then choice.any fun c => c.request = w.request &&
    c.requestedInBoot = w.bootId
  else choice.isNone

/-- The work of a journal has its receipt. -/
def validateJournal (c : Checks E G) (j : Journal E G) : Bool :=
  j.zygiskProjection.all fun w =>
    w.valid c j.base.issuedThrough && (j.base.get w.operation).any (receiptMatches · w) &&
      choiceMatches j.backendChoice w

/-- An edit that asks for no change of the config. -/
def isRepairActivation : Config.ConfigEdit → Bool
  | .repairActivation => true
  | _ => false

/-- A receipt of a choice is a receipt of nothing else. -/
def validateEntry (e : JournalEntry) : Bool :=
  match e.command with
  | some (.stageBackendChoice request) =>
    validateRequest request &&
      e.admission.any (fun a => a.fromRevision = e.base && a.commitRevision = e.base &&
        a.writes.isEmpty) &&
      isRepairActivation e.edit && e.candidate.isNone && e.nativeIntent.isNone &&
      e.record.phases.map (·.phase) = [.maintenance]
  | _ => true

/-- The receipts of a journal are as they should be, and the choice has one. -/
def validateEntries (j : Journal E G) : Bool :=
  j.base.operations.all validateEntry &&
    j.backendChoice.all fun choice =>
      (j.base.get choice.operation).all fun e =>
        e.command = some (.stageBackendChoice choice.request) &&
          e.record.settled = some .confirmed && e.record.phases.all fun p => p.outcome = .confirmed

/-- The revision of the choice. -/
def choiceRevision (j : Journal E G) : ℕ := (j.backendChoice.map (·.revision)).getD 0

/-- The work replaces what is on record: as its successor, or as that of another operation. -/
def mayRecord (c : Checks E G) (j : Journal E G) (base : ℕ) (work : ProjectionWork E G) : Bool :=
  match j.zygiskProjection.filter (·.operation = work.operation) with
  | some previous =>
    j.validateJournal c && (j.base.get work.operation).any (·.base = base) &&
      previous.permitsSuccessor work
  | none =>
    !(j.zygiskProjection.any (·.retained) || (j.base.get work.operation).isSome ||
      j.base.isRetired work.operation || work.dispatchIntent || work.outcome ≠ .running)

/-- The work, its receipt and the choice that it confirms, in one document. -/
def withWork (j : Journal E G) (base : ℕ) (work : ProjectionWork E G) : Journal E G :=
  let recorded : Journal E G := { j with
    zygiskProjection := some work
    backendChoice :=
      if work.outcome = .confirmed then
        some ⟨work.request.expectedRevision + 1, work.request, work.operation, work.bootId⟩
      else j.backendChoice }
  { recorded with base := recorded.view.upsert (receipt base work) }

/-- `record_projection`: a work is taken down, if it follows the one that is there. -/
def recordProjection (c : Checks E G) (j : Journal E G) (base : ℕ) (work : ProjectionWork E G) :
    Except String (Journal E G) :=
  if !work.valid c j.base.issuedThrough || base ≠ j.base.configRevision ||
    !j.mayRecord c base work then
    .error "projection intent cannot replace retained work"
  else if j.zygiskProjection = some work then .ok j
  else if j.choiceRevision ≠ work.request.expectedRevision then
    .error "projection intent cannot replace retained work"
  else .ok (j.withWork base work)

/-- The journal with older receipts expired. -/
def prune (j : Journal E G) : Journal E G := { j with base := j.view.prune }

/-! ### Restarts -/

/-- What becomes of a choice that was admitted, and not finished. -/
def reconcileEntry (j : Journal E G) (e : JournalEntry) : JournalEntry :=
  if (match e.command with
      | some (.stageBackendChoice _) => false
      | _ => true) ||
      j.zygiskProjection.any (·.operation = e.record.op) || e.finalizedUnknown ||
        e.record.settled.isSome ||
      e.record.phases.map (·.phase) ≠ [.maintenance] then e
  else
    let outcome :=
      if j.backendChoice.map (·.operation) = some e.record.op then .unknown else .failedKnown
    { e with
      finalizedUnknown := outcome = .unknown
      record := { e.record
        with phases := e.record.phases.map ({ · with outcome }), settled := some outcome } }

/-- What a restart makes of the receipts. -/
def reconcileUnfinished (j : Journal E G) : Journal E G :=
  { j with base := { j.base with operations := j.base.operations.map j.reconcileEntry } }

/-- What a restart makes of what was under way. -/
def fenceUnresolved (j : Journal E G) : Journal E G :=
  { j with
    base := j.view.fenceUnresolved,
    zygiskProjection := j.zygiskProjection.map (·.fenceRestart) }

/-- A choice that can be on record. -/
def choiceValid (choice : BackendChoiceRecord) (issued : ℕ) : Bool :=
  0 < choice.revision && choice.request.expectedRevision + 1 = choice.revision &&
    validateRequest choice.request && 0 < choice.operation && choice.operation ≤ issued &&
      !choice.requestedInBoot.isEmpty &&
    choice.requestedInBoot.toUtf8.length ≤ 128 &&
    !choice.requestedInBoot.any fun c => c.toNat < 0x20 || (0x7f ≤ c.toNat && c.toNat < 0xa0)

/-- Reading the journal. The checks of other records are `others`. -/
def read (c : Checks E G) (others : Journal E G → Bool) (j : Journal E G) : Option (Journal E G) :=
  if others j && j.validateJournal c && j.validateEntries &&
      j.backendChoice.all (choiceValid · j.base.issuedThrough) then
    some { j with base := j.view.migrate }
  else none

end Journal

end VpnHide.Staging

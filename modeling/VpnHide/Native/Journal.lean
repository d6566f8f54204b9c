import VpnHide.Daemon.Recovery
import VpnHide.Native.Ledger

/-!
# The native records of the journal

What the journal keeps of kernel backends (`core-daemon/src/journal.rs`): the attempt to
start one, the attempts before it, the budget of loads in a boot, the payloads that were
loaded and not confirmed, the boots in which a grant to Zygisk may have been consumed, and
the receipts of the loader experiments.

`Journal.checkNativeAttempt` reads them before an attempt, `Journal.replaceNativeStartup` and
`Journal.completeNativeStartup` update them, and `Journal.read` rebuilds the exposure from
the attempts that are retained.
-/

namespace VpnHide.Native

open Lib Config Daemon

/-! ## Attempts -/

/-- What an attempt is to do with a backend. -/
inductive TransitionAction
  | observe
  | adopt (backend : NativeBackend)
  | load (backend : NativeBackend)
  deriving DecidableEq

/-- A payload, as a file with its digest. -/
structure PayloadIdentity where
  source : Str
  sha256 : Str
  bytes : ℕ
  initContract : Option ℕ
  deriving DecidableEq

/-- Evidence for the choice of a kernel interface, with the verdicts of `valid` and
    `corroborates_record` on it. -/
structure NativeSelectionEvidence where
  bootId : Str
  manifestSha256 : Str
  manifestFileSha256 : Str
  sourceCommit : Str
  moduleHint : Option Str
  conflictingHints : Bool
  valid : Bool
  corroborates : Bool
  deriving DecidableEq

/-- Evidence that lifts a conflict of an earlier one: it is of another boot, or says more. -/
def supersedesConflict (current previous : NativeSelectionEvidence) : Bool :=
  previous.bootId ≠ current.bootId || !previous.conflictingHints ||
    (!current.conflictingHints && current.corroborates)

/-- The bundle that an attempt is bound to. -/
structure BundleIdentity where
  manifestSha256 : Str
  manifestFileSha256 : Option Str
  sourceCommit : Str
  deriving DecidableEq

/-- What an attempt is going to do. -/
structure TransitionIntent where
  selectionEvidence : Option NativeSelectionEvidence
  bootId : Str
  action : TransitionAction
  payload : Option PayloadIdentity
  bundle : Option BundleIdentity
  retireZygisk : Option Str
  deriving DecidableEq

namespace TransitionIntent

/-- The evidence of the selection is valid, and belongs to the attempt. -/
def validSelectionEvidence (i : TransitionIntent) : Bool :=
  i.selectionEvidence.all fun e =>
    e.valid && (e.moduleHint.isNone || e.corroborates) && e.bootId = i.bootId &&
      i.bundle.any fun bundle =>
        bundle.manifestSha256 = e.manifestSha256 &&
          bundle.manifestFileSha256 = some e.manifestFileSha256 &&
            bundle.sourceCommit = e.sourceCommit

/-- Zygisk may come to run by this attempt. -/
def possibleZygiskExposure (i : TransitionIntent) : Bool :=
  i.action = .adopt .zygisk || i.action = .load .zygisk || i.retireZygisk.isSome

/-- A backend in the kernel is loaded or adopted. -/
def activatesKernel (i : TransitionIntent) : Bool :=
  match i.action with
  | .load b => b ≠ .zygisk
  | .adopt b => b ≠ .zygisk
  | .observe => false

/-- The payload that is loaded, with the backend it is for. -/
def loads (i : TransitionIntent) : Option (NativeBackend × PayloadIdentity) :=
  match i.action, i.payload with
  | .load backend, some payload => some (backend, payload)
  | _, _ => none

end TransitionIntent

/-- How a startup ended; the outcomes that are not looked at are one. -/
inductive NativeBootOutcome
  | missingArtifact (backend : NativeBackend)
  | loadFailed (backend : NativeBackend) (exit : Option ℤ)
  | other
  deriving DecidableEq

/-- What an attempt has come to, in which boot. -/
structure NativeBootStatus where
  bootId : Str
  outcome : NativeBootOutcome
  /-- Whether retiring the targets of Zygisk failed. -/
  retireFailed : Bool
  deriving DecidableEq

/-- Why a payload did not get into the kernel. -/
inductive RejectionCause
  | kmodBeforeDispatch (code : ℤ)
  | kpmBeforeDispatch
  | artifactAbsent
  | androidSignatureRejected (errno : ℤ)
  deriving DecidableEq

/-- Evidence that a load had no effect. -/
structure RejectionProof where
  bootId : Str
  payload : PayloadIdentity
  manifestSha256 : Str
  sourceCommit : Str
  cause : RejectionCause
  ownershipCheckedBootMs : ℕ
  deriving DecidableEq

/-- The result of an attempt. -/
structure NativeStartupResult where
  status : NativeBootStatus
  /-- The backend that was selected. -/
  selection : Option NativeBackend
  rejection : Option RejectionProof
  deriving DecidableEq

/-- An attempt, completed or not. -/
structure NativeStartup where
  bootId : Str
  intent : Option TransitionIntent
  repairOp : Option OperationId
  completed : Option NativeStartupResult
  deriving DecidableEq

/-- Whether the cause explains how this load ended. -/
def RejectionProof.explains (p : RejectionProof) : TransitionAction → NativeBootOutcome → Bool
  | .load .kmod, .loadFailed .kmod (some code) =>
    match p.cause with
    | .kmodBeforeDispatch expected => code = expected
    | .androidSignatureRejected errno =>
      code = errno && (errno = 126 || errno = 129) && p.payload.initContract = some 1
    | _ => false
  | .load .kpm, .loadFailed .kpm _ => p.cause = .kpmBeforeDispatch
  | .load backend, .missingArtifact observed => p.cause = .artifactAbsent && backend = observed
  | _, _ => false

/-- The proof is about this attempt, and about a payload that it tried. -/
def RejectionProof.validFor (p : RejectionProof) (attempt : NativeStartup) : Bool :=
  match attempt.intent, attempt.completed with
  | some intent, some result =>
    intent.bundle.any (fun bundle =>
      p.manifestSha256 = bundle.manifestSha256 && p.sourceCommit = bundle.sourceCommit) &&
      p.bootId = attempt.bootId && intent.payload = some p.payload &&
        p.ownershipCheckedBootMs ≠ 0 &&
      result.selection.isNone && !result.status.retireFailed &&
        p.explains intent.action result.status.outcome
  | _, _ => false

namespace NativeStartup

/-- It is not known what an attempt has done. -/
def uncertain (a : NativeStartup) : Bool :=
  match a.completed with
  | none => true
  | some result =>
    (match result.status.outcome with
      | .loadFailed _ _ => !result.rejection.any (·.validFor a)
      | _ => false) || result.status.retireFailed

/-- What is retained of an attempt shows that a grant to Zygisk may have been consumed. -/
def showsExposure (a : NativeStartup) : Bool :=
  a.intent.any (·.possibleZygiskExposure) ||
    (a.completed.bind (·.selection)) = some .zygisk

end NativeStartup

/-- An attempt that another one has followed. -/
structure NativeAttemptHistory where
  attempt : NativeStartup
  supersededBy : Option OperationId
  deriving DecidableEq

/-- The attempts that are kept. -/
def maxNativeAttempts : ℕ := 16

/-- The exposures that are kept. -/
def maxZygiskExposureBoots : ℕ := 32

/-- What has been loaded in a boot. -/
structure NativeLoadBudget where
  bootId : Str
  attempted : List NativeBackend
  deriving DecidableEq

/-- A payload that must not be loaded again by itself. -/
structure NativeQuarantine where
  backend : NativeBackend
  sha256 : Str
  deriving DecidableEq

/-! ## Grants to Zygisk -/

/-- Who may read the targets of Zygisk. -/
structure ZygiskAuthorityRecord where
  operation : OperationId
  intent : NativeIntent
  deriving DecidableEq

/-- The boot that a grant is for. -/
def ZygiskAuthorityRecord.bootId (a : ZygiskAuthorityRecord) : Option Str :=
  a.intent.zygiskAuthorization.map (·.1)

/-- Whether it has a reference; `encodes` tells which envelopes can be encoded. -/
def ZygiskAuthorityRecord.hasReference (encodes : Str → ℕ → Str → Bool)
    (a : ZygiskAuthorityRecord) : Bool :=
  a.intent.zygiskAuthorization.any fun (boot, generation, _, inode) =>
    a.intent.backend = .zygisk && a.intent.zygiskModule.any (fun path => path.head? = some '/') &&
      inode ≠ 0 && a.operation = generation && encodes boot generation a.intent.wire

/-- The revocation of a grant. -/
structure Revocation where
  operation : Option OperationId
  currentBoot : Str
  authority : ZygiskAuthorityRecord
  state : RevocationState
  deriving DecidableEq

/-- It is not known that the grant is gone. -/
def Revocation.uncertain (r : Revocation) : Bool := r.state ≠ .confirmed

/-! ## The journal -/

/-- The journal with its native records. What these say about the startup, the preflights and
    the revocation is in `base` as well: `Journal.view` brings it up to date. -/
structure Journal where
  base : Daemon.Journal
  nativeSelectionEvidence : Option NativeSelectionEvidence
  nativeSelectionConflict : Option NativeSelectionEvidence
  zygiskAuthority : Option ZygiskAuthorityRecord
  priorZygiskAuthority : Option ZygiskAuthorityRecord
  /-- The grant of the bootstrap of the managed module, and the one before it. -/
  bootstrapAuthority : Option ZygiskAuthorityRecord
  bootstrapPrevious : Option ZygiskAuthorityRecord
  zygiskRevocation : Option Revocation
  kmodPreflights : Option PreflightLedger
  nativeStartup : Option NativeStartup
  nativeAttempts : List NativeAttemptHistory
  nativeLoadBudget : Option NativeLoadBudget
  nativeQuarantine : List NativeQuarantine
  zygiskExposureBoot : Option Str
  zygiskExposureBoots : List Str

namespace Journal

/-- The journal of a first installation. -/
def empty : Journal where
  base := .empty
  nativeSelectionEvidence := none
  nativeSelectionConflict := none
  zygiskAuthority := none
  priorZygiskAuthority := none
  bootstrapAuthority := none
  bootstrapPrevious := none
  zygiskRevocation := none
  kmodPreflights := none
  nativeStartup := none
  nativeAttempts := []
  nativeLoadBudget := none
  nativeQuarantine := []
  zygiskExposureBoot := none
  zygiskExposureBoots := []

/-- The last attempt is of unknown end. -/
def nativeStartupUncertain (j : Journal) : Bool := j.nativeStartup.any (·.uncertain)

/-- A preflight is of unknown end. -/
def preflightUncertain (j : Journal) : Bool := j.kmodPreflights.any (·.uncertain)

/-- A revocation is under way or of unknown end. -/
def revocationUncertain (j : Journal) : Bool := j.zygiskRevocation.any (·.uncertain)

/-- The publication at boot may have been made. -/
def bootstrapUncertain (j : Journal) : Bool := j.base.bootstrapUncertain

/-- The journal without the native records, which knows what they hold. -/
def view (j : Journal) : Daemon.Journal :=
  { j.base with
    zygiskRevocation := j.zygiskRevocation.map fun r => ⟨r.operation, r.state⟩
    nativeStartupUncertain := j.nativeStartupUncertain
    preflightUncertain := j.preflightUncertain }

/-- The phases that are held. -/
def heldResources (j : Journal) : List ConfigPhase := j.view.heldResources

/-! ### Evidence and exposure -/

/-- `record_selection_evidence`: a conflict is put down, or lifted. -/
def recordSelectionEvidence (j : Journal) (evidence : NativeSelectionEvidence) : Journal :=
  if evidence.valid then
    { j with
      nativeSelectionConflict :=
        if evidence.conflictingHints then some evidence
        else if j.nativeSelectionConflict.any (supersedesConflict evidence) then none
        else j.nativeSelectionConflict
      nativeSelectionEvidence := some evidence }
  else j

/-- The last elements of a list that is too long. -/
def drainTo {α : Type} (bound : ℕ) (l : List α) : List α := l.drop (l.length - bound)

/-- `note_zygisk_exposure`: Zygisk may have run in a boot. -/
def noteZygiskExposure (j : Journal) (boot : Str) : Journal :=
  { j with
    zygiskExposureBoot := some boot
    zygiskExposureBoots :=
      if j.zygiskExposureBoots.contains boot then j.zygiskExposureBoots
      else drainTo maxZygiskExposureBoots (j.zygiskExposureBoots ++ [boot]) }

/-- `zygisk_exposed_in`: Zygisk may have run in a boot. -/
def zygiskExposedIn (j : Journal) (boot : Str) : Bool :=
  j.zygiskExposureBoot = some boot || j.zygiskExposureBoots.contains boot

/-! ### Attempts -/

/-- A conflict of this boot is on record, and the evidence does not supersede it. -/
def conflictHolds (j : Journal) (intent : TransitionIntent) : Bool :=
  j.nativeSelectionConflict.any fun previous =>
    previous.bootId = intent.bootId && previous.conflictingHints &&
      intent.selectionEvidence.all fun e => !supersedesConflict e previous

/-- The preflights of this boot do not say that this payload is the one to load. -/
def preflightForbids (j : Journal) (intent : TransitionIntent) : Bool :=
  j.kmodPreflights.any fun ledger =>
    ledger.plan.bootId = intent.bootId &&
      !(intent.payload.any fun p => ledger.evidence = .oneSentinel p.sha256)

/-- `check_native_safety`: the reasons that hold for attempts of every kind. -/
def checkNativeSafety (j : Journal) (intent : TransitionIntent) : Except String Unit :=
  if !intent.validSelectionEvidence then .error "invalid selection evidence binding"
  else if intent.action = .load .kmod && j.conflictHolds intent then
    .error "retained current-boot KMI conflict requires fresh corroborated evidence before loading"
  else if j.bootstrapUncertain then .error "managed bootstrap publication is uncertain"
  else if j.revocationUncertain then
    .error "Zygisk authorization revocation is unresolved; reconcile it before native activation"
  else if j.preflightUncertain then
    .error "loader preflight outcome is unknown; native activation remains held"
  else if intent.action = .load .kmod && j.preflightForbids intent then
    .error "current preflight evidence does not identify one matching real-load payload"
  else if intent.activatesKernel &&
    (j.zygiskExposedIn intent.bootId || intent.retireZygisk.isSome) then
    .error "Zygisk authorization may have been consumed in this boot; reboot before kernel backend activation"
  else .ok ()

/-- A load of this backend was attempted in this boot. -/
def budgetSpent (j : Journal) (boot : Str) (backend : NativeBackend) : Bool :=
  j.nativeLoadBudget.any fun budget => budget.bootId = boot && budget.attempted.contains backend

/-- The payload was loaded for this backend, and not confirmed. -/
def quarantined (j : Journal) (backend : NativeBackend) (sha256 : Str) : Bool :=
  j.nativeQuarantine.any fun q => q.backend = backend && q.sha256 = sha256

/-- `check_native_attempt`: also the budget of the boot, and the quarantine. -/
def checkNativeAttempt (j : Journal) (intent : TransitionIntent) (explicit : Bool) :
    Except String Unit := do
  j.checkNativeSafety intent
  match intent.loads with
  | none => .ok ()
  | some (backend, payload) =>
    if j.budgetSpent intent.bootId backend then
      .error "this backend was already attempted in this boot; reboot before retrying"
    else if !explicit && j.quarantined backend payload.sha256 then
      .error "previous payload activation was not confirmed; explicit RepairActivation is required"
    else .ok ()

/-- What is known where an attempt is safe. -/
theorem checkNativeSafety_eq_ok {j : Journal} {intent : TransitionIntent}
    (h : j.checkNativeSafety intent = .ok ()) :
    j.preflightUncertain = false ∧
      (intent.action = .load .kmod → j.preflightForbids intent = false) ∧
      (intent.activatesKernel → j.zygiskExposedIn intent.bootId = false ∧
        intent.retireZygisk = none) := by
  rw [checkNativeSafety] at h
  split_ifs at h with _ _ _ _ hpreflight hforbids hexposed
  refine ⟨by simpa using hpreflight, fun hkmod => ?_, fun hkernel => ?_⟩
  · simpa [hkmod] using hforbids
  · simpa [hkernel] using hexposed

theorem checkNativeAttempt_eq_ok {j : Journal} {intent : TransitionIntent} {explicit : Bool}
    (h : j.checkNativeAttempt intent explicit = .ok ()) :
    j.checkNativeSafety intent = .ok () ∧
      ∀ backend payload, intent.loads = some (backend, payload) →
        j.budgetSpent intent.bootId backend = false ∧
          (explicit = false → j.quarantined backend payload.sha256 = false) := by
  rw [checkNativeAttempt] at h
  cases hsafety : j.checkNativeSafety intent with
  | error e => rw [hsafety] at h; cases h
  | ok u =>
    refine ⟨rfl, fun backend payload hloads => ?_⟩
    rw [hsafety, hloads] at h
    simp only [bind, Except.bind] at h
    split_ifs at h with hbudget hquarantine
    exact ⟨by simpa using hbudget, fun hexplicit => by simpa [hexplicit] using hquarantine⟩

/-- `complete_native_startup`: the result of an attempt is put down. -/
def completeNativeStartup (j : Journal) (result : NativeStartupResult) : Journal :=
  match j.nativeStartup with
  | none => j
  | some attempt =>
    { j with
      nativeQuarantine :=
        match attempt.intent.map TransitionIntent.action with
        | some (.load backend) =>
          if result.selection = some backend then j.nativeQuarantine.filter (·.backend ≠ backend)
          else j.nativeQuarantine
        | _ => j.nativeQuarantine
      nativeStartup := some { attempt with completed := some result } }

/-- The budget of a boot, once a load of the backend is attempted. -/
def spend (budget : Option NativeLoadBudget) (boot : Str) (backend : NativeBackend) :
    NativeLoadBudget :=
  let attempted := match budget with
    | some b => if b.bootId = boot then b.attempted else []
    | none => []
  ⟨boot, if attempted.contains backend then attempted else attempted ++ [backend]⟩

/-- The records of an attempt that loads a payload. -/
def chargeLoad (j : Journal) (boot : Str) (backend : NativeBackend) (sha256 : Str) : Journal :=
  { j with
    nativeLoadBudget := some (spend j.nativeLoadBudget boot backend)
    nativeQuarantine := j.nativeQuarantine.filter (·.backend ≠ backend) ++ [⟨backend, sha256⟩] }

/-- The attempt is the current one, the one before it goes to the history. -/
def supersede (j : Journal) (attempt : NativeStartup) : Journal :=
  { j with
    nativeStartup := some attempt
    nativeAttempts := match j.nativeStartup with
      | none => j.nativeAttempts
      | some previous =>
        drainTo maxNativeAttempts (j.nativeAttempts ++ [⟨previous, attempt.repairOp⟩]) }

/-- The evidence that an attempt was chosen by. -/
def recordEvidenceOf (j : Journal) (attempt : NativeStartup) : Journal :=
  match attempt.intent.bind (·.selectionEvidence) with
  | some evidence => j.recordSelectionEvidence evidence
  | none => j

/-- The exposure that an attempt may bring. -/
def noteExposureOf (j : Journal) (attempt : NativeStartup) : Journal :=
  if attempt.intent.any (·.possibleZygiskExposure) then j.noteZygiskExposure attempt.bootId else j

/-- The load that an attempt makes is charged to its boot. -/
def chargeLoadOf (j : Journal) (attempt : NativeStartup) : Journal :=
  match attempt.intent with
  | none => j
  | some intent =>
    match intent.loads with
    | some (backend, payload) => j.chargeLoad intent.bootId backend payload.sha256
    | none => j

/-- `replace_native_startup`: an attempt becomes the present one, with all that it may do on
    record. -/
def replaceNativeStartup (j : Journal) (attempt : NativeStartup) : Journal :=
  (((j.recordEvidenceOf attempt).noteExposureOf attempt).chargeLoadOf attempt).supersede attempt

/-! ### Restarts -/

/-- Work in flight is uncertain. -/
def fenceUnresolved (j : Journal) : Journal :=
  { j with
    base := j.view.fenceUnresolved
    zygiskRevocation := j.zygiskRevocation.map fun r =>
      if r.state = .running then { r with state := .unknown } else r
    kmodPreflights := j.kmodPreflights.map (·.fenceUnresolved) }

/-- The journal with older receipts expired. -/
def prune (j : Journal) : Journal := { j with base := j.view.prune }

section Read

variable (encodes : Str → ℕ → Str → Bool) (others : Journal → Bool)

/-- The grant on record; older journals have it in their receipts only. -/
def authorityOnRecord (j : Journal) : Option ZygiskAuthorityRecord :=
  j.zygiskAuthority.or <|
    ((j.base.operations.filter fun e =>
        e.record.phases.any fun p =>
          p.phase = .native && p.outcome ≠ .notAttempted).filterMap fun e =>
      e.nativeIntent.map fun intent => ⟨e.record.op, intent⟩).reverse.find? fun a =>
        a.hasReference encodes

/-- The boots of the attempts that show an exposure. -/
def attemptExposures (j : Journal) : List Str :=
  ((j.nativeAttempts.map (·.attempt) ++ j.nativeStartup.toList).filter (·.showsExposure)).map
  (·.bootId)

/-- The boot of a grant that the managed module may have been given. -/
def bootstrapExposure (j : Journal) : Option Str :=
  if j.base.zygiskBootstrap.any (·.publicationIntent) then
    j.bootstrapAuthority.bind (·.bootId) else none

/-- The boots of which something retained shows an exposure. -/
def discovered (j : Journal) : List Str :=
  j.zygiskExposureBoot.toList ++ j.attemptExposures ++
    ((j.authorityOnRecord encodes).bind (·.bootId)).toList ++ j.bootstrapExposure.toList

/-- The boots with one more, unless it is there. -/
def withBoot (boots : List Str) (boot : Str) : List Str :=
  if boots.contains boot then boots else boots ++ [boot]

/-- The journal with the exposures that are discovered in it. -/
def rebuildExposure (j : Journal) : Journal :=
  let boots := (j.discovered encodes).foldl withBoot j.zygiskExposureBoots
  { j with
    zygiskAuthority := j.authorityOnRecord encodes
    zygiskExposureBoot := j.zygiskExposureBoot.or boots.getLast?
    zygiskExposureBoots := drainTo maxZygiskExposureBoots boots }

/-- The records are within their bounds. -/
def withinBudget (j : Journal) : Bool :=
  j.zygiskExposureBoot.all validBoot && j.zygiskExposureBoots.length ≤ maxZygiskExposureBoots &&
    j.zygiskExposureBoots.all validBoot && j.nativeAttempts.length ≤ maxNativeAttempts &&
    j.nativeQuarantine.length ≤ 4 && j.nativeQuarantine.all (fun q => validSha256 q.sha256) &&
    j.nativeLoadBudget.all fun b => b.attempted.length ≤ 4 && validBoot b.bootId

/-- Reading the journal. The checks of records other than these are `others`. -/
def read (j : Journal) : Option Journal :=
  if others j && j.kmodPreflights.all (·.valid) && j.withinBudget then
    let j := j.rebuildExposure encodes
    some { j with base := j.view.migrate }
  else none

end Read

end Journal

end VpnHide.Native

import VpnHide.Daemon.Dispatch

/-!
# Executing a command

`execute_edit_opts` of `core-daemon/src/server.rs`: the checks that admit a command, its
plan, the revision that is reserved for it, and the settlement of its receipt. A command that
repairs or resets takes over the resources that earlier ones hold.
-/

namespace VpnHide.Daemon

open Lib Config

/-- How Core is configured. -/
structure Env where
  /-- There is a native backend to control. -/
  native : Bool
  ports : Bool
  /-- Effects on the credentials and on legacy files are enabled. -/
  rootEffects : Bool
  /-- `validate_candidate`. -/
  validate : CanonicalConfig → Except Str Unit

/-- A submission, with its options and the specification of its command. -/
structure Request where
  op : OperationId
  base : ℕ
  edit : ConfigEdit
  intent : CommandIntent
  /-- The phase of an effect of the command's own. -/
  effect : Option ConfigPhase
  /-- The plan, when it is fixed. -/
  forced : Option (List ConfigPhase)
  kind : Option PlanKind
  automaticRepair : Bool
  reset : Bool
  lease : Bool

/-- An edit without options. -/
def Request.ofEdit (op : OperationId) (base : ℕ) (edit : ConfigEdit) : Request :=
  ⟨op, base, edit, .edit, none, none, none, false, false, false⟩

/-! ## Evidence of a write -/

/-- The config on file is the one that an uncertain write may have left. -/
def PendingPersist.matches (proof : PendingPersist) (durable : Option CanonicalConfig) : Bool :=
  if proof.reset then durable.isNone else proof.candidate.isSome && proof.candidate = durable

/-- What is known of the write of an operation. -/
def JournalEntry.proof (e : JournalEntry) : PendingPersist :=
  ⟨e.admission, e.candidate, e.command = some .fullReset⟩

namespace Journal

/-- The receipts that hold the config. -/
def persistHolders (j : Journal) : List JournalEntry :=
  j.operations.filter (ConfigPhase.persist ∈ ·.heldPhases)

/-- The config is held by some receipt, or by one that has expired. -/
def persistHeld (j : Journal) : Bool :=
  ConfigPhase.persist ∈ j.expiredHolds || !j.persistHolders.isEmpty

/-- What is known of the uncertain writes, the newest first. -/
def proofs (j : Journal) : List PendingPersist :=
  j.persistHolders.reverse.map (·.proof) ++ j.pendingPersist.toList

/-- What a readback of the config file finds. -/
def readback (j : Journal) (durable : Option CanonicalConfig) : Option PendingPersist :=
  j.proofs.find? (·.matches durable)

/-- `has_unknown`: something that was done is still uncertain. -/
def hasUnknown (j : Journal) : Bool :=
  j.bootstrapUncertain || j.nativeLifecycleUncertain || j.zygiskProjection.any (·.blocksRuntime) ||
    !j.expiredHolds.isEmpty || j.operations.any fun e => !e.heldPhases.isEmpty

end Journal

/-- The replacement is not over, so that it is kept. -/
def ReplacementWork.retained (w : ReplacementWork) : Bool :=
  w.stage ≠ .verified && w.stage ≠ .failedKnown

/-- The projection is not over, so that it is kept. -/
def ProjectionWork.retained (w : ProjectionWork) : Bool := w.outcome ≠ .failedKnown

/-- Taking over what the config file says of the uncertain writes. -/
def reconcileHeldPersist (s : ConfigStore) : Core (Except SubmitError (Bool × ConfigStore)) :=
  if !s.journal.persistHeld then pure (.ok (false, s))
  else do
    let ok ← .ask fun | .readable ok => some ok | _ => none
    if !ok then pure (.error .unavailable)
    else do
      let w ← .get
      match s.journal.readback w.file with
      | some proof =>
        match proof.admission with
        | none => pure (.error .unavailable)
        | some a =>
          let configRevision := max s.configRevision a.commitRevision
          let fieldRevisions := noteWrites s.fieldRevisions a.writes a.commitRevision
          pure (.ok (true, {
            config := w.file, configRevision, fieldRevisions
            journal := { s.journal with fieldRevisions, configRevision } }))
      | none => if w.file ≠ s.config then pure (.error .unavailable) else pure (.ok (true, s))

/-! ## Admission -/

/-- What a user may still do while something is held. -/
inductive RecoveryAction
  | repair
  | setSuperkey
  | clearSuperkey
  | fullReset
  | cleanup
  deriving DecidableEq

/-- The recovery that a request is, if it is one. -/
def recoveryAction (r : Request) : Option RecoveryAction :=
  match r.intent with
  | .setSuperkey _ => some .setSuperkey
  | .clearSuperkey => some .clearSuperkey
  | .fullReset => some .fullReset
  | .cleanupLegacy => some .cleanup
  | _ => if isRepair r.edit then some .repair else none

/-- A change of the superkey has to wait for the config. -/
def permitsHeld (action : RecoveryAction) (held : List ConfigPhase) : Bool :=
  !(action = .setSuperkey || action = .clearSuperkey) || ConfigPhase.persist ∉ held

/-- A phase that may run at boot while others are held. -/
def permitsBootPhase (phase : ConfigPhase) (held : List ConfigPhase) : Bool :=
  !(ConfigPhase.maintenance ∈ held || ConfigPhase.persist ∈ held || phase ∈ held) &&
    match phase with
    | .native => ConfigPhase.secret ∉ held
    | .ports => true
    | .persist => true
    | _ => false

/-- The plan that applies the config again. -/
def repairKind (env : Env) : PlanKind :=
  match env.native, env.ports with
  | true, true => .nativeThenPorts
  | true, false => .nativeOnly
  | false, true => .portsOnly
  | false, false => .persistOnly

/-- The plan of an edit that is written, by what there is to tell. -/
def persistKind (env : Env) : PlanKind :=
  match env.native, env.ports with
  | true, true => .persistThenNativeThenPorts
  | true, false => .persistThenNative
  | false, true => .persistThenPorts
  | false, false => .persistOnly

/-- The checks before the config file is read back. -/
def checkResources (env : Env) (r : Request) (j : Journal) : Except SubmitError Unit := do
  let removes := r.intent = .fullReset || r.intent = .cleanupLegacy
  if removes && j.replacement.any (·.retained) then throw .busy
  if removes && j.zygiskProjection.any (·.retained) then throw .busy
  let held := if j.persistHeld then [ConfigPhase.persist] else []
  if (recoveryAction r).any fun action => !permitsHeld action held then throw .unavailable
  if r.automaticRepair && (!isRepair r.edit ||
      (planKind (r.kind.getD (repairKind env))).any fun phase =>
        !permitsBootPhase phase j.heldResources) then
    throw .unavailable

/-- Without a config, one may be imported while only the first activation is uncertain. -/
def bootstrapWithStartupHold (r : Request) (s : ConfigStore) : Bool :=
  s.config.isNone && (r.edit matches .replace _) && s.journal.nativeStartupUncertain &&
    s.journal.expiredHolds.isEmpty && s.journal.operations.all fun e => e.heldPhases.isEmpty

/-- The checks after it: what is uncertain, and conflicts. -/
def checkConflicts (r : Request) (s : ConfigStore) : Except SubmitError Unit := do
  if s.journal.hasUnknown && !r.lease && !isRepair r.edit && (recoveryAction r).isNone &&
      !bootstrapWithStartupHold r s then
    throw .unavailable
  match s.conflictGate r.base r.edit r.lease r.reset with
  | some error => throw error
  | none => pure ()

/-- The config that a request is applied to. -/
def currentConfig (r : Request) (s : ConfigStore) : Except SubmitError CanonicalConfig :=
  match s.config with
  | some config => pure config
  | none =>
    match r.edit with
    | .replace _ => pure .default
    | .repairActivation => if r.intent = .cleanupLegacy then pure .default else throw .unavailable
    | _ => throw .unavailable

/-- The config that a request asks for. While there is a lease, debug logging stays on. -/
def candidateConfig (env : Env) (r : Request) (s : ConfigStore) (leaseHeld : Bool) :
    Except SubmitError CanonicalConfig := do
  let next := applyCanonicalEdit (← currentConfig r s) r.edit
  let next := if !isRepair r.edit && leaseHeld then { next with debug := true } else next
  match env.validate next with
  | .error reason => throw (.rejected reason)
  | .ok () => pure next

/-- A reset is a change in any case. -/
def isChange (r : Request) (s : ConfigStore) (next : CanonicalConfig) : Bool :=
  r.reset || s.config ≠ some next

/-- The plan of a request. -/
def planOf (env : Env) (r : Request) (changed readback : Bool) : List ConfigPhase :=
  let kind :=
    if isRepair r.edit then repairKind env
    else if changed || r.effect = some .secret then persistKind env
    else .persistOnly
  let plan := planKind (r.kind.getD kind)
  let plan := if readback && ConfigPhase.persist ∉ plan then .persist :: plan else plan
  match r.forced, r.effect with
  | some forced, _ => forced
  | none, none => plan
  | none, some .cleanup => plan ++ [.cleanup]
  | none, some phase =>
    if plan.head? = some .persist then .persist :: phase :: plan.tail else phase :: plan

/-- The largest revision that is taken, or may be. -/
def reserved (s : ConfigStore) : ℕ :=
  max s.configRevision
    (((s.journal.proofs.filterMap fun proof => proof.admission.map (·.commitRevision)).max?).getD
      s.configRevision)

/-- The reservation of a request: the revision it starts from and the one it may commit. -/
def admissionOf (r : Request) (s : ConfigStore) (plan : List ConfigPhase) (changed : Bool) :
    Except SubmitError Admission := do
  let writes := if changed then writeSet r.edit else []
  if changed && ConfigPhase.persist ∈ plan then
    if reserved s + 1 < 2 ^ 64 then pure ⟨s.configRevision, reserved s + 1, writes⟩
      else throw .unavailable
  else pure ⟨s.configRevision, s.configRevision, writes⟩

/-- Whether the backend has to accept the candidate first. -/
def needsCapacity (r : Request) (plan : List ConfigPhase) (changed : Bool) : Bool :=
  changed && !isRepair r.edit && r.effect ≠ some .secret && ConfigPhase.native ∈ plan

/-- The operation that a request becomes. -/
def operationOf (r : Request) (next : CanonicalConfig) (plan : List ConfigPhase) (changed : Bool)
    (admission : Admission) : Operation :=
  ⟨r.op, r.base, r.edit, r.intent, next, plan, changed, r.reset, admission⟩

/-- Admitting a request, after the config file has been read back. -/
def admitRequest (env : Env) (r : Request) (readback : Bool) (s : ConfigStore) :
    Core (Except SubmitError (ConfigStore × Operation)) := do
  let w ← .get
  match checkConflicts r s, candidateConfig env r s (!w.store.journal.debugLeases.isEmpty) with
  | .error error, _ => pure (.error error)
  | _, .error error => pure (.error error)
  | .ok (), .ok next =>
    let changed := isChange r s next
    let plan := planOf env r changed readback
    let refusal ← if needsCapacity r plan changed then
      .ask fun | .capacity refusal => some refusal | _ => none else pure none
    match refusal, admissionOf r s plan changed with
    | some error, _ => pure (.error error)
    | none, .error error => pure (.error error)
    | none, .ok admission => pure (.ok (s, operationOf r next plan changed admission))

/-! ## Settlement -/

namespace PlanOutcome

/-- A phase of the outcome is confirmed. -/
def confirmed (o : PlanOutcome) (phase : ConfigPhase) : Bool :=
  o.phases.any fun p => p.phase = phase && p.outcome = .confirmed

/-- What is certain again: a reset removes the credentials with its cleanup. -/
def replaces (o : PlanOutcome) (reset : Bool) (phase : ConfigPhase) : Bool :=
  o.confirmed phase || (reset && phase = .secret && o.confirmed .cleanup)

/-- Whether a phase that a receipt holds is superseded. -/
def supersedes (o : PlanOutcome) (reset : Bool) (e : JournalEntry) (held : ConfigPhase) : Bool :=
  (reset && held = .secret && o.replaces reset held) || o.phases.any fun p =>
    p.phase = held && (p.outcome = .confirmed || (p.outcome = .failedKnown &&
      e.record.phases.any fun old => old.phase = held && old.outcome = .notAttempted))

end PlanOutcome

/-- The receipt of another operation, after one that takes over what it holds. -/
def supersedeEntry (c : Operation) (o : PlanOutcome) (e : JournalEntry) : JournalEntry :=
  if e.record.op = c.op then e
  else
    let e := { e with supersededPhases := e.supersededPhases ++
      e.heldPhases.filter (o.supersedes c.reset e) }
    if e.record.settled = some .unknown && e.heldPhases.isEmpty then
      { e with supersededBy := some c.op } else e

/-- The commands that take over what earlier ones hold. -/
def takesOver (r : Request) : Bool :=
  r.lease || (r.intent = .edit && isRepair r.edit) || r.intent = .fullReset ||
    r.intent = .cleanupLegacy || r.intent = .clearSuperkey || (r.intent matches .setSuperkey _)

/-- What a reset that went well takes over from older receipts. -/
def supersede (r : Request) (c : Operation) (o : PlanOutcome) (j : Journal) : Journal :=
  if takesOver r then
    let expiredHolds := j.expiredHolds.filter fun phase => !o.replaces c.reset phase
    { j with
      expiredHolds
      pendingPersist := if ConfigPhase.persist ∈ expiredHolds then j.pendingPersist else none
      operations := j.operations.map (supersedeEntry c o) }
  else j

/-- The store after the plan. -/
def commitOutcome (c : Operation) (s : ConfigStore) (o : PlanOutcome) : ConfigStore :=
  if o.persisted then s.commit c.target c.edit c.admission.commitRevision else s

/-- `record_settled`, before retention: the revision goes with the receipt. -/
def settledJournal (c : Operation) (s : ConfigStore) (o : PlanOutcome) : Journal :=
  let j := { s.journal with configRevision := s.configRevision }
  let prior := j.get c.op
  j.insert (c.entry prior (o.settled = .unknown) (prior.bind (·.nativeIntent))
    o.phases (some o.settled))

/-- Settling the receipt of an operation whose plan has run. -/
def settle (r : Request) (c : Operation) (s : ConfigStore) (o : PlanOutcome) :
    Core (Except SubmitError OperationId) := do
  let s := commitOutcome c s o
  let settled ← prune (settledJournal c s o)
  if (← writeAtomic settled) ≠ .written then do
    -- the receipt is not durable, so that the intent stays
    freezeStorageFault s
    pure (.error .unavailable)
  else do
    let j ← prune (supersede r c o settled)
    let s := { s with journal := j, fieldRevisions := j.fieldRevisions }
    if (← writeAtomic j) ≠ .written then do
      freezeStorageFault { s with journal := settled }
      pure (.ok c.op)
    else do
      installStore s
      pure (.ok c.op)

/-- The receipt at admission. -/
def admittedEntry (c : Operation) : JournalEntry where
  admission := some c.admission
  command := some c.command
  supersededBy := none
  supersededPhases := []
  finalizedUnknown := false
  base := c.base
  edit := c.edit
  candidate := some c.candidate
  nativeIntent := none
  record := ⟨c.op, c.plan.map (⟨·, .notAttempted⟩), none⟩

/-- Running an operation that is admitted. -/
def dispatch (r : Request) (c : Operation) (s : ConfigStore) :
    Core (Except SubmitError OperationId) := do
  let j ← upsert s.journal (admittedEntry c)
  let s := { s with journal := j }
  installStore s
  let (h, o) ← runPlan c c.plan ⟨j, []⟩ .empty
  settle r c { s with journal := h.journal } o

/-! ## Repair without a config -/

/-- The receipt of a repair that only finishes a revocation. -/
def revocationEntry (r : Request) (s : ConfigStore) (outcome : PhaseOutcome)
    (settled : Option PhaseOutcome) :
    JournalEntry where
  admission := some ⟨s.configRevision, s.configRevision, []⟩
  command := some .edit
  supersededBy := none
  supersededPhases := []
  finalizedUnknown := false
  base := r.base
  edit := .repairActivation
  candidate := none
  nativeIntent := none
  record := ⟨r.op, [⟨.native, outcome⟩], settled⟩

/-- `execute_revocation_repair`. -/
def executeRevocationRepair (r : Request) (s : ConfigStore) :
    Core (Except SubmitError OperationId) := do
  let j ← upsert s.journal (revocationEntry r s .running none)
  let revocation ← revoke r.op j
  let outcome := revocation.stop.getD .confirmed
  let j := revocation.journal.insert (revocationEntry r s outcome (some outcome))
  let w ← .get
  if w.fault then pure (if revocation.persisted then .ok r.op else .error .unavailable)
  else if (← writeAtomic j) ≠ .written then do
    freezeStorageFault w.store
    pure (if revocation.persisted then .ok r.op else .error .unavailable)
  else do
    installStore { s with journal := j }
    pure (.ok r.op)

/-- Whether a request repairs a revocation only. -/
def isRevocationRepair (r : Request) (s : ConfigStore) : Bool :=
  isRepair r.edit && r.intent = .edit && !r.automaticRepair && s.config.isNone &&
    s.journal.revocationUncertain

/-! ## Execution -/

/-- The checks of a new operation before anything else. -/
def checkEdit (r : Request) (j : Journal) : Except SubmitError Unit := do
  match validateEdit r.edit with
  | .error reason => throw (.rejected reason.toList)
  | .ok () => pure ()
  if j.zygiskProjection.any (·.blocksRuntime) then throw .busy
  if j.replacement.any (·.blocksRuntime) then throw .busy

/-- `execute_edit_opts`: a request is checked, admitted, run and settled. -/
def executeEditOpts (env : Env) (r : Request) : Core (Except SubmitError OperationId) := do
  let w ← .get
  let s := w.store
  match dedupe w.fault s.journal r.op r.base r.edit r.intent, checkEdit r s.journal with
  | some answer, _ => pure answer
  | none, .error error => pure (.error error)
  | none, .ok () =>
    if isRevocationRepair r s then executeRevocationRepair r s
    else
      match checkResources env r s.journal with
      | .error error => pure (.error error)
      | .ok () =>
        let reconciled ← if isRepair r.edit || r.lease then reconcileHeldPersist s
          else pure (.ok (false, s))
        match reconciled with
        | .error error => pure (.error error)
        | .ok (readback, s) =>
          match ← admitRequest env r readback s with
          | .error error => pure (.error error)
          | .ok (s, c) => dispatch r c s

end VpnHide.Daemon

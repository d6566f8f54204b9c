import VpnHide.Lib.Crash
import VpnHide.Daemon.Commits

/-!
# Dispatching the phases of an operation

The world that Core runs in: its memory, the config file, the journal on disk, and what the
device and the file system answer. An operation has a plan of phases (`run_plan_hooked` in
`core-daemon/src/operation.rs`). Before the effect of a phase is dispatched, the journal says
on disk that it is running, and the outcome of the first of them, which writes the config, is
there before the second is dispatched (`JournalPhaseHook` in `core-daemon/src/server.rs`).
-/

namespace VpnHide.Daemon

open Lib Config

/-! ## The world -/

/-- How the atomic write of a file ended. Before the rename it is refused; after it, the
    directory may not be in sync, and what a crash leaves is uncertain. -/
inductive WriteResult
  | written
  | refused
  | uncertain (landed : Bool)
  deriving DecidableEq

/-- The write has changed the file, whatever its writer is told. -/
def WriteResult.lands : WriteResult → Bool
  | written => true
  | refused => false
  | uncertain landed => landed

/-- How a native startup that was prepared goes on. -/
inductive Activation
  | none
  | refused
  | begun (intent : Option NativeIntent)

/-- The answers of the environment. -/
inductive Answer
  /-- The journal was written. -/
  | write (result : WriteResult)
  /-- The config file can be synced and read. -/
  | readable (ok : Bool)
  /-- The projection of a candidate to the backend, which may refuse it. -/
  | capacity (refusal : Option SubmitError)
  /-- The operation still is the last one that was admitted. -/
  | fence (valid : Bool)
  /-- The effect of a phase. -/
  | effect (outcome : PhaseOutcome) (landed : Bool)
  /-- Preparing the startup: there is evidence to record, it is refused, its recipient. -/
  | prepared (evidence refused : Bool) (intent : Option NativeIntent)
  | activation (activation : Activation)
  /-- Retiring a grant before a startup: not needed, or whether it may be revoked. -/
  | retirement (needed : Option Bool)
  | dispatchable (ok : Bool)
  | started (uncertain : Bool)
  /-- A revocation is refused, or goes on, and is for the grant on record or another. -/
  | revocable (sameGrant : Option Bool)
  | revoked (ok : Bool)
  /-- A clock gives a time that is before the deadline. -/
  | clock (ok : Bool)

/-- What is done to the device: a phase is dispatched and has no outcome until it completes;
    a grant is revoked, or a backend started, before the phase that needs it. -/
inductive Effect
  | phase (op : OperationId) (phase : ConfigPhase) (outcome : Option PhaseOutcome)
  | revocation (op : OperationId) (ok : Option Bool)
  | startup (op : OperationId)
  deriving DecidableEq

/-- The operation that an effect is done for. -/
def Effect.op : Effect → OperationId
  | phase op _ _ => op
  | revocation op _ => op
  | startup op => op

/-- What a run works on: the files, the memory of Core, and what the run has done. -/
structure World where
  /-- The config file. -/
  file : Option CanonicalConfig
  /-- The journal file. -/
  disk : Journal
  /-- The memory of Core. -/
  store : ConfigStore
  /-- Whether storage has failed; only a restart helps. -/
  fault : Bool
  /-- The leases that are live in this process, and whether they are active. -/
  live : List (ℕ × Bool)
  -- What follows is the history of the world, newest first; no program reads it.
  /-- The snapshots that were published. -/
  published : List (ℕ × Option CanonicalConfig)
  effects : List Effect
  /-- The revisions of the configs that reached the file. -/
  landed : List ℕ
  /-- The journals that were pruned, with the config file. -/
  pruned : List (Option CanonicalConfig × Journal)

/-- Core's code, as a program that asks its environment. -/
abbrev Core := Prog Answer World

/-- A state that clients can read from now on. -/
def publishStore (s : ConfigStore) : Core Unit :=
  .modify fun w => { w with published := (s.configRevision, s.config) :: w.published }

/-- Taking a store over into memory, and publishing it. -/
def installStore (s : ConfigStore) : Core Unit := do
  .modify fun w => { w with store := s }
  publishStore s

/-- A write of the journal file. -/
def writeAtomic (j : Journal) : Core WriteResult := do
  let result ← .ask fun | .write result => some result | _ => none
  .modify fun w => if result.lands then { w with disk := j } else w
  pure result

/-- Storage has failed: Core goes on in memory and takes no more commands. -/
def freezeStorageFault (s : ConfigStore) : Core Unit := do
  .modify fun w => { w with fault := true }
  installStore s

/-- The journal with a receipt, before retention. -/
def Journal.insert (j : Journal) (entry : JournalEntry) : Journal :=
  { j with
    issuedThrough := max j.issuedThrough entry.record.op
    operations := Journal.withEntry j.operations entry }

/-- `Journal.prune`, in a run. -/
def prune (j : Journal) : Core Journal := do
  .modify fun w => { w with pruned := (w.file, j) :: w.pruned }
  pure j.prune

/-- `Journal.upsert`, in a run. -/
def upsert (j : Journal) (entry : JournalEntry) : Core Journal := prune (j.insert entry)

/-! ## Plans -/

/-- The plans of edits. -/
inductive PlanKind
  | persistOnly
  | persistThenNative
  | persistThenPorts
  | persistThenNativeThenPorts
  | nativeOnly
  | portsOnly
  | nativeThenPorts
  deriving DecidableEq

/-- The phases of a plan. -/
def planKind : PlanKind → List ConfigPhase
  | .persistOnly => [.persist]
  | .persistThenNative => [.persist, .native]
  | .persistThenPorts => [.persist, .ports]
  | .persistThenNativeThenPorts => [.persist, .native, .ports]
  | .nativeOnly => [.native]
  | .portsOnly => [.ports]
  | .nativeThenPorts => [.native, .ports]

/-- What running a plan has produced. -/
structure PlanOutcome where
  phases : List PhaseRecord
  settled : PhaseOutcome
  /-- The config was written, and is to be taken over. -/
  persisted : Bool

/-- An operation that is admitted. -/
structure Operation where
  op : OperationId
  base : ℕ
  edit : ConfigEdit
  command : CommandIntent
  candidate : CanonicalConfig
  plan : List ConfigPhase
  /-- Whether the candidate differs from the config. -/
  changed : Bool
  reset : Bool
  admission : Admission

namespace Operation

/-- The config after the operation. -/
def target (c : Operation) : Option CanonicalConfig := if c.reset then none else some c.candidate

/-- The receipt of an operation; what it does not set is as in the one before. -/
def entry (c : Operation) (prior : Option JournalEntry) (finalizedUnknown : Bool)
    (nativeIntent : Option NativeIntent) (phases : List PhaseRecord)
    (settled : Option PhaseOutcome) : JournalEntry where
  admission := prior.bind (·.admission)
  command := prior.bind (·.command)
  supersededBy := prior.bind (·.supersededBy)
  supersededPhases := (prior.map (·.supersededPhases)).getD []
  finalizedUnknown := finalizedUnknown
  base := c.base
  edit := c.edit
  candidate := some c.candidate
  nativeIntent := nativeIntent
  record := ⟨c.op, phases, settled⟩

/-- The outcome of a phase, as far as it is completed. -/
def outcomeOf (completed : List (ConfigPhase × PhaseOutcome)) (p : ConfigPhase) : PhaseOutcome :=
  ((completed.find? (·.1 = p)).map (·.2)).getD .notAttempted

/-- The phases of a plan, with their outcomes. -/
def phasesDone (c : Operation) (completed : List (ConfigPhase × PhaseOutcome)) : List PhaseRecord :=
  c.plan.map fun p => ⟨p, outcomeOf completed p⟩

/-- The phases of a plan while one of them runs. -/
def phasesRunning (c : Operation) (completed : List (ConfigPhase × PhaseOutcome))
    (running : ConfigPhase) :
    List PhaseRecord :=
  c.plan.map fun p => ⟨p, if p = running then .running else outcomeOf completed p⟩

end Operation

/-- The state of `JournalPhaseHook`. -/
structure Hook where
  journal : Journal
  completed : List (ConfigPhase × PhaseOutcome)

/-! ## The journal at the boundaries of phases -/

namespace JournalEntry

/-- The receipt says that the config was written. -/
def persistConfirmed (e : JournalEntry) : Bool :=
  e.record.phases.any fun p => p.phase = .persist && p.outcome = .confirmed

end JournalEntry

/-- A config that is on record as written, but not taken over yet. -/
def takeOver (s : ConfigStore) (e : JournalEntry) : ConfigStore :=
  match e.admission with
  | none => s
  | some a =>
    if e.persistConfirmed && s.configRevision < a.commitRevision then
      { s with
        config := if e.command = some .fullReset then none else e.candidate
        configRevision := a.commitRevision }
    else s

/-- What is in the journal is what clients see. -/
def publishProgress (j : Journal) : Core Unit := do
  let w ← .get
  installStore (j.operations.foldl takeOver { w.store with journal := j })

/-- A transition is written, and shown if the write is good. -/
def persistTransitionJournal (j : Journal) : Core WriteResult := do
  let w ← .get
  let result ← writeAtomic j
  if result = .written then publishProgress j else freezeStorageFault w.store
  pure result

/-- `record_phase_running`: a phase is on record before it begins. -/
def recordPhaseRunning (c : Operation) (h : Hook) (running : ConfigPhase)
    (nativeIntent : Option NativeIntent) :
    Core (WriteResult × Hook) := do
  let prior := h.journal.get c.op
  let nativeIntent := nativeIntent <|> prior.bind (·.nativeIntent)
  let j ← upsert h.journal
    (c.entry prior false nativeIntent (c.phasesRunning h.completed running) none)
  let result ← writeAtomic j
  pure (result, { h with journal := j })

/-! ## Native transitions

They are known by what they do to the journal: whether a startup is uncertain, and the
revocation of a grant to bundled Zygisk. -/

/-- An effect is noted. -/
def note (e : Effect) : Core Unit := .modify fun w => { w with effects := e :: w.effects }

/-- The hold of a revocation that failed goes over to the operation that tries it again. -/
def Journal.transferRevocation (j : Journal) (op : OperationId) (sameGrant : Bool) : Journal :=
  match j.zygiskRevocation.bind (·.operation) with
  | none => j
  | some previous =>
    if sameGrant && previous ≠ op then
      { j with
        operations := j.operations.map fun e =>
          if e.record.op = previous && e.isRevocationOnlyRepair &&
            ConfigPhase.native ∈ e.heldPhases then
            { e with supersededPhases := e.supersededPhases ++ [.native], supersededBy := some op }
          else e }
    else j

/-- How a revocation ends: with the outcome of the phase when that ends here too, and whether
    its intent was persisted. -/
structure Revocation where
  stop : Option PhaseOutcome
  persisted : Bool
  journal : Journal

/-- `revoke`: the old grant of Zygisk is withdrawn, and the journal told. -/
def revoke (op : OperationId) (j : Journal) : Core Revocation := do
  let sameGrant ← .ask fun | .revocable sameGrant => some sameGrant | _ => none
  match sameGrant with
  | none => pure ⟨some .failedKnown, false, j⟩
  | some sameGrant =>
    if !sameGrant && j.revocationUncertain then pure ⟨some .failedKnown, false, j⟩
    else do
      let j := { j.transferRevocation op sameGrant
        with zygiskRevocation := some ⟨some op, .running⟩ }
      match ← persistTransitionJournal j with
      | .refused => pure ⟨some .failedKnown, false, j⟩
      | .uncertain _ => pure ⟨some .unknown, false, j⟩
      | .written =>
        note (.revocation op none)
        let ok ← .ask fun | .revoked ok => some ok | _ => none
        note (.revocation op (some ok))
        let j := { j with zygiskRevocation := some ⟨some op, if ok then .confirmed else .unknown⟩ }
        let result ← persistTransitionJournal j
        pure ⟨if result = .written && ok then none else some .unknown, true, j⟩

/-- What preparing a startup has found, if it is to be on record. -/
def recordEvidence (h : Hook) (evidence : Bool) : Core WriteResult :=
  if evidence then persistTransitionJournal h.journal else pure .written

/-- Preparing a startup, with the recipient of the policy. -/
def prepareStartup (h : Hook) : Core (Option PhaseOutcome × Option NativeIntent) := do
  let (evidence, refused, intent) ← .ask fun
    | .prepared evidence refused intent => some (evidence, refused, intent)
    | _ => none
  let result ← recordEvidence h evidence
  if result ≠ .written then pure (some .unknown, none)
  else if refused then pure (some .failedKnown, none)
  else pure (none, intent)

/-- Retiring the grant that a startup replaces, or a reset removes. -/
def retire (c : Operation) (j : Journal) : Core (Option PhaseOutcome × Journal) := do
  let needed ← .ask fun | .retirement needed => some needed | _ => none
  match needed with
  | none => pure (none, j)
  | some false => pure (some .failedKnown, j)
  | some true =>
    let revocation ← revoke c.op j
    pure (revocation.stop, revocation.journal)

/-- The startup that was prepared, if there is one. -/
def activate (c : Operation) (h : Hook) : Core (Option PhaseOutcome × Hook) := do
  let activation ← .ask fun | .activation activation => some activation | _ => none
  match activation with
  | .none => pure (none, h)
  | .refused => pure (some .failedKnown, h)
  | .begun intent =>
    let h := { h with journal := { h.journal with nativeStartupUncertain := true } }
    let (result, h) ← recordPhaseRunning c h .native intent
    if result ≠ .written then pure (some .unknown, h)
    else do
      publishProgress h.journal
      let (stop, j) ← retire c h.journal
      let h := { h with journal := j }
      match stop with
      | some outcome => pure (some outcome, h)
      | none =>
        let ok ← .ask fun | .dispatchable ok => some ok | _ => none
        if !ok then pure (some .unknown, h)
        else do
          note (.startup c.op)
          let uncertain ← .ask fun | .started uncertain => some uncertain | _ => none
          let h := { h with journal := { h.journal with nativeStartupUncertain := uncertain } }
          let result ← persistTransitionJournal h.journal
          pure (if result = .written then none else some .unknown, h)

/-! ## Phases -/

/-- What is left of a revocation must be done before the native phase. -/
def finishRevocation (c : Operation) (h : Hook) : Core (Option PhaseOutcome × Hook) := do
  let (result, h) ← recordPhaseRunning c h .native none
  if result ≠ .written then pure (some .unknown, h)
  else do
    publishProgress h.journal
    let revocation ← revoke c.op h.journal
    pure (revocation.stop, { h with journal := revocation.journal })

/-- A revocation that is still open comes before the native phase. -/
def beforeRevocation (c : Operation) (h : Hook) (phase : ConfigPhase) :
    Core (Option PhaseOutcome × Hook) :=
  if phase = .native && h.journal.revocationUncertain then finishRevocation c h else pure (none, h)

/-- A start of a kernel backend is on record before it is made. -/
def beforeStartup (h : Hook) (phase : ConfigPhase) :
    Core (Option PhaseOutcome × Option NativeIntent) :=
  if phase = .native then prepareStartup h else pure (none, none)

/-- `JournalPhaseHook::before`, from the intent on. -/
def recordIntent (c : Operation) (h : Hook) (phase : ConfigPhase) (intent : Option NativeIntent) :
    Core (Option PhaseOutcome × Hook) := do
  let (result, h) ← recordPhaseRunning c h phase intent
  match result with
  | .refused => pure (some .failedKnown, h)
  | .uncertain _ => pure (some .unknown, h)
  | .written =>
    publishProgress h.journal
    let valid ← .ask fun | .fence valid => some valid | _ => none
    if !valid then pure (some .failedKnown, h)
    else if phase = .native then activate c h
    else if phase = .cleanup && c.command = .fullReset then do
      let (stop, j) ← retire c h.journal
      pure (stop, { h with journal := j })
    else pure (none, h)

/-- `JournalPhaseHook::before`; it gives the outcome of the phase when it is not dispatched. -/
def before (c : Operation) (h : Hook) (phase : ConfigPhase) :
    Core (Option PhaseOutcome × Hook) := do
  let (stop, h) ← beforeRevocation c h phase
  match stop with
  | some outcome => pure (some outcome, h)
  | none =>
    let (stop, intent) ← beforeStartup h phase
    match stop with
    | some outcome => pure (some outcome, h)
    | none => recordIntent c h phase intent

/-- The outcomes that a phase may have; the config is always attempted. -/
def possible (phase : ConfigPhase) (outcome : PhaseOutcome) : Bool :=
  outcome ≠ .running && !(phase = .persist && outcome = .notAttempted)

/-- Whether the config reached its file. -/
def lands (phase : ConfigPhase) (outcome : PhaseOutcome) (landed : Bool) : Bool :=
  phase = .persist && (outcome = .confirmed || (outcome = .unknown && landed))

/-- The effect of a phase, by the device. -/
def perform (c : Operation) (phase : ConfigPhase) : Core PhaseOutcome := do
  note (.phase c.op phase none)
  let (outcome, landed) ← .ask fun
    | .effect outcome landed => if possible phase outcome then some (outcome, landed) else none
    | _ => none
  .modify fun w =>
    if lands phase outcome landed then
      { w with file := c.target, landed := c.admission.commitRevision :: w.landed }
    else w
  note (.phase c.op phase (some outcome))
  pure outcome

/-- `JournalPhaseHook::after`: a crash before the next phase still finds the outcome of the
    write of the config. -/
def after (c : Operation) (h : Hook) (phase : ConfigPhase) (outcome : PhaseOutcome) :
    Core (PhaseOutcome × Hook) := do
  let h := { h with completed := h.completed ++ [(phase, outcome)] }
  if phase = .persist then do
    let prior := h.journal.get c.op
    let j ← upsert h.journal
      (c.entry prior ((prior.map (·.finalizedUnknown)).getD false) none
        (c.phasesDone h.completed) none)
    let h := { h with journal := j }
    let result ← writeAtomic j
    if result ≠ .written then pure (.unknown, h)
    else do
      publishProgress j
      pure (outcome, h)
  else pure (outcome, h)

/-- A phase with what comes before and after it. -/
def runPhase (c : Operation) (h : Hook) (phase : ConfigPhase) : Core (PhaseOutcome × Hook) := do
  let (blocked, h) ← before c h phase
  match blocked with
  | some fail => pure (fail, h)
  | none =>
    let outcome ← perform c phase
    after c h phase outcome

/-! ## Running a plan -/

namespace PlanOutcome

/-- Nothing has been run. -/
def empty : PlanOutcome := ⟨[], .confirmed, false⟩

/-- The outcome of the next phase. -/
def push (o : PlanOutcome) (changed : Bool) (phase : ConfigPhase) (outcome : PhaseOutcome) :
    PlanOutcome where
  phases := o.phases ++ [⟨phase, outcome⟩]
  persisted := if phase = .persist && outcome = .confirmed then changed else o.persisted
  settled :=
    if outcome ≠ .confirmed && (outcome = .unknown || o.settled = .confirmed ||
      (outcome = .failedKnown && o.settled ≠ .unknown)) then outcome
    else o.settled

/-- The rest of the plan is not reached. -/
def stop (o : PlanOutcome) (rest : List ConfigPhase) : PlanOutcome :=
  { o with phases := o.phases ++ rest.map (⟨·, .notAttempted⟩) }

end PlanOutcome

/-- Native and Ports are independent: a known failure of one of them permits the other. -/
def stops (phase : ConfigPhase) (outcome : PhaseOutcome) : Bool :=
  outcome ≠ .confirmed && !(outcome = .failedKnown && (phase = .native || phase = .ports))

/-- Without a change the config needs no write. -/
def stepPhase (c : Operation) (h : Hook) (phase : ConfigPhase) : Core (PhaseOutcome × Hook) :=
  if phase = .persist && !c.changed then pure (.confirmed, h) else runPhase c h phase

/-- `run_plan_hooked`: the phases that are left, after what has been done. -/
def runPlan (c : Operation) : List ConfigPhase → Hook → PlanOutcome → Core (Hook × PlanOutcome)
  | [], h, o => pure (h, o)
  | phase :: rest, h, o => do
    let (outcome, h) ← stepPhase c h phase
    let o := o.push c.changed phase outcome
    if stops phase outcome then pure (h, o.stop rest) else runPlan c rest h o

end VpnHide.Daemon

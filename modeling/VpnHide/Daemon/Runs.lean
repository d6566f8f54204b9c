import VpnHide.Daemon.Leases

/-!
# Runs of Core

Everything that the single writer of Core does is a job: a command, a step of a lease, or a
restart. A run is a sequence of jobs, each of which may crash wherever it asks its
environment for an answer; after a crash Core is down until it is started again.
-/

namespace VpnHide.Daemon

open Lib Config

/-! ## Commands -/

/-- The commands of clients. -/
inductive CoreCommand
  | edit (base : ℕ) (edit : ConfigEdit)
  /-- Core applies the config again at boot, with a plan of its own. -/
  | reapply (base : ℕ) (kind : Option PlanKind)
  | setSuperkey (base : ℕ) (remember : Bool) (superkey : Str)
  | clearSuperkey (base : ℕ)
  | importConfig (base : ℕ) (config : CanonicalConfig) (cleanupLegacy : Bool)
  /-- With what the migration policy makes of the config. -/
  | migrateLegacy (base : ℕ) (mode : LegacyImportMode)
      (apply : CanonicalConfig → Except SubmitError CanonicalConfig)
  | prepareSelfTargets (base : ℕ) (persistOnly : Bool)
      (prepare : Option CanonicalConfig → Except SubmitError ConfigEdit)
  | cleanupLegacy
  /-- With whether a capture is running. -/
  | fullReset (capturing : Bool)

/-- The longest superkey. -/
def maxSuperkeyBytes : ℕ := 4096

/-- The commands whose receipt answers them before anything else. -/
def answered (j : Journal) (op : OperationId) (command : CoreCommand) :
    Option (Except SubmitError OperationId) :=
  match j.get op, command with
  | none, _ => none
  | some e, .fullReset _ => if e.command = some .fullReset then some (.ok op) else none
  | some e, .cleanupLegacy => if e.command = some .cleanupLegacy then some (.ok op) else none
  | some e, .migrateLegacy base mode _ =>
    if e.base = base && e.command = some (.migrateLegacy mode) then some (.ok op)
      else some (.error .idReused)
  | some e, .prepareSelfTargets base _ _ =>
    if e.base = base && e.command = some .prepareSelfTargets then some (.ok op)
      else some (.error .idReused)
  | some _, _ => none

/-- The plan of a full reset. -/
def resetPlan (env : Env) : List ConfigPhase :=
  [.persist] ++ (if env.native then [.native] else []) ++ (if env.ports then [.ports] else []) ++
    [.cleanup]

/-- The request of a command. -/
def requestOf (env : Env) (op : OperationId) (command : CoreCommand) (s : ConfigStore) :
    Except SubmitError Request :=
  let base := ((s.journal.get op).map (·.base)).getD s.configRevision
  let checked (r : Request) : Except SubmitError Request :=
    if r.effect.isSome && !env.rootEffects then throw (.rejected "root effects disabled".toList)
      else pure r
  match command with
  | .edit base edit => pure (.ofEdit op base edit)
  | .reapply base kind =>
    pure { Request.ofEdit op base .repairActivation with kind, automaticRepair := true }
  | .setSuperkey base remember superkey =>
    let key := superkey.trim
    if key.isEmpty || maxSuperkeyBytes < (Str.toUtf8 key).length || key.contains '\n' ||
      key.contains '\x00' then
      throw (.rejected "invalid superkey".toList)
    else
      checked { Request.ofEdit op base (.toggle .rememberSuperkey remember) with
        intent := .setSuperkey remember, effect := some .secret }
  | .clearSuperkey base =>
    checked { Request.ofEdit op base (.toggle .rememberSuperkey false) with
      intent := .clearSuperkey, effect := some .secret }
  | .importConfig base config cleanupLegacy =>
    checked { Request.ofEdit op base (.replace config) with
      intent := .importConfig cleanupLegacy, effect :=
        if cleanupLegacy then some .cleanup else none }
  | .migrateLegacy base mode apply => do
    let config ← apply (s.config.getD .default)
    checked { Request.ofEdit op base (.replace config)
      with intent := .migrateLegacy mode, effect := some .cleanup }
  | .prepareSelfTargets base persistOnly prepare => do
    let edit ← prepare s.config
    pure { Request.ofEdit op base edit with
      intent := .prepareSelfTargets, kind := if persistOnly then some .persistOnly else none }
  | .cleanupLegacy =>
    checked { Request.ofEdit op base .repairActivation with
      intent := .cleanupLegacy, effect := some .cleanup, forced := some [.cleanup] }
  | .fullReset capturing =>
    if capturing || !s.journal.debugLeases.isEmpty then throw .busy
    else
      checked { Request.ofEdit op base (.replace .default) with
        intent := .fullReset, effect := some .cleanup, forced :=
          some (resetPlan env), reset := true }

/-- `execute_command`: a command becomes a request, and is executed. -/
def executeCommand (env : Env) (op : OperationId) (command : CoreCommand) :
    Core (Except SubmitError OperationId) := do
  let w ← .get
  if w.fault then pure (.error .unavailable)
  else
    match answered w.store.journal op command, requestOf env op command w.store with
    | some answer, _ => pure answer
    | none, .error error => pure (.error error)
    | none, .ok r => executeEditOpts env r

/-! ## Jobs -/

/-- What other parts of Core do to the journal: the native lifecycle and the replacement of
    Core. -/
structure Lifecycle where
  zygiskBootstrap : Option ProjectionBootstrap
  replacement : Option ReplacementWork
  zygiskRevocation : Option ZygiskRevocation
  nativeStartupUncertain : Bool
  preflightUncertain : Bool

/-- The journal with other records beside the receipts. -/
def Journal.withLifecycle (j : Journal) (l : Lifecycle) : Journal :=
  { j with
    zygiskBootstrap := l.zygiskBootstrap
    replacement := l.replacement
    zygiskRevocation := l.zygiskRevocation
    nativeStartupUncertain := l.nativeStartupUncertain
    preflightUncertain := l.preflightUncertain }

/-- What Core may be asked to do next. -/
inductive Job
  | load (device : Device)
  | issue
  | command (op : OperationId) (command : CoreCommand)
  | acquire (id owner : ℕ)
  | release (id : ℕ)
  | expire (elapsed : ℕ → Bool)
  | lifecycle (l : Lifecycle)

namespace Job

/-- Running a job; it tells whether it succeeds. -/
def run (env : Env) : Job → Core Bool
  | load device => loadWithJournal env device
  | issue => do pure (← issueOperationIdDirect).isOk
  | command op cmd => do pure (← executeCommand env op cmd).isOk
  | acquire id owner => do pure (← acquireDebugLease env id owner).isOk
  | release id => do pure (← releaseDebugLease env id).isOk
  | expire elapsed => do
    expireDebugLeases env elapsed
    pure true
  | lifecycle l => do
    let w ← .get
    pure (← persistStore { w.store with journal := w.store.journal.withLifecycle l }).isOk

/-- Whether Core is up after a job. -/
def isUp : Job → Bool → Bool
  | load _, ok => ok
  | _, _ => true

/-- The leases that were granted, and are neither released nor expired nor lost. -/
def grants (job : Job) (ok : Bool) (w : World) (granted : List ℕ) : List ℕ :=
  match job with
  | load _ => []
  | acquire id _ => if ok then id :: granted else granted
  | _ => granted.filter fun id => w.store.journal.debugLeases.any (·.1 = id)

end Job

/-- A first installation, perhaps with a config. -/
def World.initial (file : Option CanonicalConfig) : World where
  file := file
  disk := .empty
  store := .empty
  fault := false
  live := []
  published := []
  effects := []
  landed := []
  pruned := []

/-- The runs of Core: whether it is up, its world, and the leases it has granted. -/
inductive Run : Bool → World → List ℕ → Prop
  | start (file : Option CanonicalConfig) : Run false (.initial file) []
  | job {up : Bool} {w w' : World} {granted : List ℕ} (hrun : Run up w granted)
      (env : Env) (job : Job)
      (hup : (∃ device, job = .load device) ∨ up) {tape tape' : List Answer} {ok : Bool}
      (h : job.run env tape w = .done ok tape' w') : Run (job.isUp ok) w' (job.grants ok w' granted)
  | crash {up : Bool} {w w' : World} {granted : List ℕ} (hrun : Run up w granted)
      (env : Env) (job : Job)
      (hup : (∃ device, job = .load device) ∨ up) {tape : List Answer}
      (h : job.run env tape w = .crashed w') : Run false w' []

end VpnHide.Daemon

import VpnHide.Config.LegacyImport
import VpnHide.Daemon.Journal

/-!
# Autonomous diagnostics

The coordinator of the diagnostic runs (`core-daemon/src/autonomous/coordinator.rs`) and the
publisher of Core's state (`core-daemon/src/publisher.rs`). A run is in the coordinator, which
completes it, and in the published state, where every publication marks it stale once the
policy or the runtime is not what it was started for (`invalidate_published`).

A request reads the published state before it takes the lock of the coordinator, and a run
takes its last fingerprint before it does, so that anything may be published in between:
`World.step` has these as steps of their own.

What is measured, how it is assessed and how the state is hashed are parameters. What the
coordinator keeps for its workers and for its retries is left out; who asks for a run, and
when, is arbitrary.
-/

namespace VpnHide.Autonomous

open Lib Config Daemon

/-! ## Runs -/

/-- The checks that a plan may ask for. -/
inductive RequiredCheck
  | ioctlFlags
  | ioctlMtu
  | getifaddrs
  | netlinkLinks
  | ioctlAddresses
  | bindToDevice
  | netlinkAddresses
  | netlinkRoutes
  | netlinkRules
  | procRoutes
  | procInterfaces
  | sysInterfaces
  | frameworkNetworks
  | frameworkDefaultNetwork
  | frameworkCapabilities
  | frameworkLinkProperties
  | frameworkLegacyInfo
  | frameworkCallbacks
  | frameworkPendingIntent
  | packageVisibility
  | ports
  | filesystem
  deriving DecidableEq

/-- What a run has to prove, under which contract. -/
structure DiagnosticPlan where
  contract : ℕ
  required : List RequiredCheck
  deriving DecidableEq

/-- The number of the present contract. -/
def diagnosticContract : ℕ := 9

/-- The supported product contract, and the features that are enabled. The checks are in the
    order of their declaration. -/
def DiagnosticPlan.supported (filesystem packages ports : Bool) : DiagnosticPlan where
  contract := diagnosticContract
  required :=
    [.ioctlFlags, .ioctlMtu, .getifaddrs, .netlinkLinks, .ioctlAddresses, .bindToDevice,
      .netlinkAddresses, .netlinkRoutes, .netlinkRules, .procRoutes, .procInterfaces] ++
    (if filesystem then [.sysInterfaces] else []) ++
    [.frameworkNetworks, .frameworkDefaultNetwork, .frameworkCapabilities, .frameworkLinkProperties,
      .frameworkLegacyInfo, .frameworkCallbacks, .frameworkPendingIntent] ++
    (if packages then [.packageVisibility] else []) ++ (if ports then [.ports] else []) ++
    (if filesystem then [.filesystem] else [])

/-- What of a fingerprint does not change while Core runs. -/
structure Facts where
  bootId : Str
  platformSha256 : Option Str
  loadedGenerationsSha256 : Option Str
  deriving DecidableEq

/-- What a run depends on. Two runs with equal fingerprints were of the same policy and the same
    runtime. -/
structure DiagnosticFingerprint (D : Type) where
  facts : Facts
  coreEpoch : ℕ
  policySha256 : D
  runtimeSha256 : D
  loadedGenerationsComplete : Bool
  deriving DecidableEq

/-- How a run ends, if it has. -/
inductive DiagnosticOutcome (N : Type)
  | running
  | incomplete (native : N) (missing : List RequiredCheck)
  | infrastructure (detail : Str) (native : Option N) (cleanupConfirmed : Option Bool)

/-- The run is over. -/
def DiagnosticOutcome.completed {N : Type} : DiagnosticOutcome N → Bool
  | .running => false
  | _ => true

/-- A run, with the native result `N` and what else was measured, `V`. -/
structure DiagnosticRun (N V D : Type) where
  session : ℕ
  fingerprint : DiagnosticFingerprint D
  plan : DiagnosticPlan
  outcome : DiagnosticOutcome N
  evidence : Option V
  stale : Bool

/-- What a worker brings back. -/
inductive MeasureResult (N V : Type)
  | ok (native : N) (evidence : V)
  | failed (detail : Str) (native : Option N) (cleanupConfirmed : Option Bool) (evidence : V)

/-! ## The published state -/

/-- What the digest of the runtime is of. The rest of the backend's status, the evidence of
    what was applied, the revocation and the held resources are `rest`. -/
structure RuntimeState (R : Type) where
  selected : Option NativeBackend
  applied : Option NativeBackend
  rest : R
  mutationHeld : Bool
  startupError : Option Str
  storageFault : Option Str
  deriving DecidableEq

/-- What others publish. -/
structure Context (R : Type) where
  config : Option CanonicalConfig
  runtime : RuntimeState R
  operationsInFlight : List OperationId

/-- The state that clients see: the context, the last run and what it amounts to. -/
structure StateSnapshot (R N V D A : Type) where
  context : Context R
  autonomousDiagnostics : Option (DiagnosticRun N V D)
  autonomousAssessment : Option A

/-- The hashes and the assessment, and what is fixed while Core runs. -/
structure Env (R N V D A : Type) where
  epoch : ℕ
  facts : Facts
  /-- The hash of the encoded config. -/
  policy : Option CanonicalConfig → D
  /-- The hash of the encoded runtime. -/
  runtime : RuntimeState R → D
  assessment : DiagnosticRun N V D → A
  /-- The required checks that are not proven. -/
  unproven : A → List RequiredCheck

variable {R N V D A : Type} (env : Env R N V D A)

/-- The digests of a context, of its policy and its runtime. -/
def contextDigests (context : Context R) : D × D :=
  (env.policy context.config, env.runtime context.runtime)

/-- `diagnostic_fingerprint`: what a run in a context depends on. -/
def fingerprint (context : Context R) : DiagnosticFingerprint D where
  facts := env.facts
  coreEpoch := env.epoch
  policySha256 := (contextDigests env context).1
  runtimeSha256 := (contextDigests env context).2
  loadedGenerationsComplete := false

/-- What a run in a context has to prove. -/
def plan (context : Context R) : DiagnosticPlan :=
  let config := context.config.getD .default
  .supported (config.settings.optionalFeatures.contains "filesystem_iface_paths".toList)
    (config.apps.values.any (·.appHiding)) (config.apps.values.any (·.ports))

section Equality

variable [DecidableEq D]

/-- The run was started for this policy and this runtime. -/
def matchesContext (context : Context R) (run : DiagnosticRun N V D) : Bool :=
  run.fingerprint.coreEpoch = env.epoch &&
    run.fingerprint.policySha256 = (contextDigests env context).1 &&
      run.fingerprint.runtimeSha256 = (contextDigests env context).2

/-- `invalidate_published`, a part of every publication. -/
def invalidatePublished (snapshot : StateSnapshot R N V D A) : StateSnapshot R N V D A :=
  match snapshot.autonomousDiagnostics with
  | none => { snapshot with autonomousAssessment := none }
  | some run =>
    let run := { run with stale := run.stale || !matchesContext env snapshot.context run }
    { snapshot with autonomousDiagnostics := some run, autonomousAssessment := some (env.assessment
      run) }

/-- `refresh_missing`. -/
def refreshMissing (run : DiagnosticRun N V D) : DiagnosticRun N V D :=
  match run.outcome with
  | .incomplete native _ =>
    { run with outcome := .incomplete native (env.unproven (env.assessment run)) }
  | _ => run

/-- The run with what was measured. It is stale if the fingerprint is not its own any more. -/
def finishRun (run : DiagnosticRun N V D) (result : MeasureResult N V)
    (current : DiagnosticFingerprint D) :
    DiagnosticRun N V D :=
  let run := match result with
    | .ok native evidence =>
      refreshMissing env { run with evidence := some evidence, outcome := .incomplete native [] }
    | .failed detail native cleanupConfirmed evidence =>
      { run with
        evidence := some evidence, outcome := .infrastructure detail native cleanupConfirmed }
  if run.fingerprint ≠ current then { run with stale := true } else run

/-! ## The coordinator -/

/-- Why a request gets no run. -/
inductive DiagnosticError
  | disabled
  | busy
  | expired
  deriving DecidableEq

/-- The state of the coordinator. -/
structure Inner (N V D : Type) where
  /-- The directory of the app is known. -/
  configured : Bool
  next : ℕ
  /-- The session that is running. -/
  active : Option ℕ
  last : Option (DiagnosticRun N V D)
  cancelled : Bool
  lastCompleted : Option (DiagnosticRun N V D)

/-- A request that has read the published state. -/
structure Request (D : Type) where
  force : Bool
  fingerprint : DiagnosticFingerprint D
  plan : DiagnosticPlan

/-- What becomes of a request under the lock. -/
inductive Admission (N V D : Type)
  | answer (result : Except DiagnosticError (DiagnosticRun N V D))
  | start (run : DiagnosticRun N V D)

/-- The package of VPN Hide itself. -/
def appPackage : Str := "dev.okhsunrog.vpnhide".toList

/-- A run needs a state that is whole, and applied. -/
def requestable (context : Context R) : Bool :=
  context.runtime.startupError.isNone && context.runtime.storageFault.isNone &&
    !context.runtime.mutationHeld && context.operationsInFlight.isEmpty &&
    context.config.any (fun config => Legacy.withSelfTarget config appPackage = config) &&
    context.runtime.applied.isSome && context.runtime.applied = context.runtime.selected

/-- A new run, unless its session cannot be numbered or has no deadline. -/
def Inner.reserve (inner : Inner N V D) (request : Request D) (deadline : Bool) : Admission N V D :=
  if !deadline then .answer (.error .disabled)
  else if inner.next + 1 < 2 ^ 64 then
    .start ⟨inner.next + 1, request.fingerprint, request.plan, .running, none, false⟩
  else .answer (.error .expired)

/-- What becomes of a request: a run is started, one is waited for, or the answer is there at
    once. -/
def Inner.admission (inner : Inner N V D) (request : Request D) (deadline : Bool) :
    Admission N V D :=
  if !inner.configured || inner.cancelled then .answer (.error .disabled)
  else
    match inner.last with
    | none => inner.reserve request deadline
    | some last =>
      if inner.active.isSome then
        if last.fingerprint = request.fingerprint then .answer (.ok last)
          else .answer (.error .busy)
      else if !request.force && last.fingerprint = request.fingerprint &&
        last.plan = request.plan then
        .answer (.ok last)
      else inner.reserve request deadline

/-- The outcome of a run for which no thread could be started. -/
def threadUnavailable : DiagnosticOutcome N :=
  .infrastructure "diagnostic thread unavailable".toList none none

/-! ## Steps -/

/-- A thread that executes a run. It has a result once it has taken its last fingerprint. -/
structure Execution (N V D : Type) where
  session : ℕ
  measured : Option (MeasureResult N V × DiagnosticFingerprint D)

/-- The coordinator with the requests that are under way, and everything that was published. -/
structure World (R N V D A : Type) where
  snapshot : StateSnapshot R N V D A
  /-- All that was published, in order. -/
  history : List (StateSnapshot R N V D A)
  inner : Inner N V D
  /-- Requests that wait for the lock. -/
  requests : List (Request D)
  /-- A request that holds the lock, and starts the thread of its run. -/
  spawning : Option ℕ
  executions : List (Execution N V D)

/-- What may happen next. -/
inductive Step (R N V : Type)
  | update (context : Context R)
  | publish (context : Context R)
  | updateIfChanged (context : Context R) (changed : Bool)
  | configure
  | cancel
  /-- A request up to its lock, if the cleanup of earlier runs is done. -/
  | readSnapshot (force clean : Bool)
  /-- The `i`th request gets the lock. -/
  | reserve (i : ℕ) (deadline : Bool)
  | spawn (ok : Bool)
  /-- The `i`th thread is done with its worker. -/
  | measured (i : ℕ) (result : MeasureResult N V)
  /-- The `i`th thread gets the lock. -/
  | complete (i : ℕ)

namespace World

variable (w : World R N V D A)

/-- A snapshot is published, with its run marked stale if it no longer fits. -/
def publishSnapshot (snapshot : StateSnapshot R N V D A) : World R N V D A :=
  let snapshot := invalidatePublished env snapshot
  { w with snapshot, history := w.history ++ [snapshot] }

/-- A publication that leaves the diagnostics alone. -/
def publishContext (context : Context R) : World R N V D A :=
  w.publishSnapshot env { w.snapshot with context }

/-- A publication of a run. -/
def publishRun (run : DiagnosticRun N V D) : World R N V D A :=
  w.publishSnapshot env { w.snapshot with autonomousDiagnostics := some run }

/-- The lock of the coordinator is free. -/
def unlocked : Bool := w.spawning.isNone

/-- A run begins. -/
def startRun (run : DiagnosticRun N V D) : World R N V D A :=
  { w.publishRun env run with
    inner := { w.inner with next := run.session, active := some run.session, last := some run }
    spawning := some run.session }

/-- No thread could be started. -/
def abandonRun (run : DiagnosticRun N V D) : World R N V D A :=
  { w.publishRun env run with
    inner := { w.inner with active := none, last := some run }
    spawning := none }

/-- A run ends. -/
def completeRun (run : DiagnosticRun N V D) : World R N V D A :=
  { w.publishRun env run with
    inner := { w.inner with
      active := none
      last := some run
      lastCompleted := match run.outcome with
        | .incomplete _ _ => some run
        | _ => w.inner.lastCompleted } }

/-- The run that a thread completes, if it is the active one. -/
def completion (execution : Execution N V D) : Option (DiagnosticRun N V D) :=
  if w.inner.active = some execution.session then
    match execution.measured, w.inner.last with
    | some (result, current), some run => some (finishRun env run result current)
    | _, _ => none
  else none

/-- One step of the coordinator. -/
def step : Step R N V → World R N V D A
  | .update context => w.publishContext env context
  | .publish context => w.publishContext env context
  | .updateIfChanged context changed => if changed then w.publishContext env context else w
  | .configure => { w with inner := { w.inner with configured := true } }
  | .cancel => { w with inner := { w.inner with cancelled := true } }
  | .readSnapshot force clean =>
    if clean && requestable w.snapshot.context then
      let request := ⟨force, fingerprint env w.snapshot.context, plan w.snapshot.context⟩
      { w with requests := w.requests ++ [request] }
    else w
  | .reserve i deadline =>
    match w.requests[i]? with
    | none => w
    | some request =>
      if w.unlocked then
        let w := { w with requests := w.requests.eraseIdx i }
        match w.inner.admission request deadline with
        | .answer _ => w
        | .start run => w.startRun env run
      else w
  | .spawn ok =>
    match w.spawning, w.inner.last with
    | some session, some run =>
      if ok then { w with spawning := none, executions := w.executions ++ [⟨session, none⟩] }
      else w.abandonRun env { run with outcome := threadUnavailable }
    | _, _ => w
  | .measured i result =>
    match w.executions[i]? with
    | some ⟨session, none⟩ =>
      { w with executions := w.executions.set i ⟨session,
        some (result, fingerprint env w.snapshot.context)⟩ }
    | _ => w
  | .complete i =>
    match w.executions[i]? with
    | none => w
    | some execution =>
      if w.unlocked && execution.measured.isSome then
        let w := { w with executions := w.executions.eraseIdx i }
        match w.completion env execution with
        | none => w
        | some run => w.completeRun env run
      else w

/-- The coordinator after several steps. -/
def run (steps : List (Step R N V)) : World R N V D A := steps.foldl (step env) w

end World

/-- Core as it starts, with no run yet. -/
def World.start (context : Context R) : World R N V D A :=
  let snapshot := ⟨context, none, none⟩
  ⟨snapshot, [snapshot], ⟨false, 0, none, none, false, none⟩, [], none, []⟩

end Equality

end VpnHide.Autonomous

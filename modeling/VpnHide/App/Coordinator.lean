import VpnHide.Daemon.Journal

/-!
# The coordinator of the app

The app's owner of config intents (`ConfigCoordinator.kt`): an actor that queues intents, has
one of them active, and holds one whose outcome is not known until a readback tells it. What it
launches, reads of Core and the execution of an intent, runs beside it and ends with a message
(`Task`); `Coordinator.step` is the handling of one message.

The answers of Core are arbitrary, and so is the order in which tasks end. The view, the
observers and the refreshes they ask for are left out, and so are the waiters of `initialize`.
-/

namespace VpnHide.App

open Lib Config Daemon

/-! ## Intents -/

/-- Why the app could not bring an intent to its end. -/
inductive TransitionFailure
  | initializationPending
  | readFailed
  | validationFailed
  | executionFailed
  | deadlineExceeded
  | applicationUnknown
  | applicationFailed
  | contextChanged
  | contextUnknown
  | resourceUnavailable
  | cancelled
  | busy
  | uiEditConflict
  | mutationPaused
  deriving DecidableEq

/-- The segments of the path of a field. -/
abbrev ConfigField := List Str

/-- Of two paths, one begins with the other. -/
def configFieldsOverlap (first second : ConfigField) : Bool :=
  first.take second.length = second || second.take first.length = first

/-- The fields to be written that overlap one that is protected. -/
def conflictingFields (writes protectedFields : List ConfigField) : List ConfigField :=
  writes.filter fun field => protectedFields.any (configFieldsOverlap field)

/-- What a command may have done beside the config. -/
inductive CoreRootEffect
  | setSuperkey
  | clearSuperkey
  | migrateLegacy
  | stageBackendChoice
  | deleteLegacyConfig
  | prepareSelfTargets
  | fullReset
  deriving DecidableEq

/-- Who asks for an operation. -/
inductive OperationSource
  | ui
  | bridge
  | system
  deriving DecidableEq

/-- A mutation of the config. How it changes a config is `P`. -/
structure CanonicalMutation (P : Type) where
  change : P
  /-- It has no edits. -/
  editless : Bool
  source : OperationSource
  coupledEffects : List CoreRootEffect
  bootstrap : Bool
  removesCanonical : Bool
  protectAllDrafts : Bool
  forceActivation : Bool
  protectsDrafts : Bool
  writes : List ConfigField

/-- An intent. It is told from others by its id. -/
structure ConfigIntentRequest (P : Type) where
  id : ℕ
  mutation : CanonicalMutation P
  writes : List ConfigField
  conflicts : List ConfigField

/-- How an intent ended. -/
structure ConfigIntentOutcome where
  phases : List PhaseRecord
  failure : Option TransitionFailure
  /-- Only an operation of Core can be queried. -/
  uncertainOperation : Option ℕ

/-- What the user of the coordinator is told of an operation in the end. -/
structure ConfigOperationResult where
  id : ℕ
  phases : List PhaseRecord
  failure : Option TransitionFailure
  conflicts : List ConfigField
  draftPending : Bool

/-! ## Core -/

/-- What the app could read of the config on disk. -/
inductive RootCanonicalRead
  | available (config : CanonicalConfig)
  | missing
  | invalid
  | unavailable

/-- There is a config, and it was read. -/
def RootCanonicalRead.isAvailable : RootCanonicalRead → Bool
  | .available _ => true
  | _ => false

/-- Why each kind of recovery is refused, if it is. -/
structure CoreRecoveryAccess where
  repair : Option Str
  setSuperkey : Option Str
  clearSuperkey : Option Str
  cleanup : Option Str
  fullReset : Option Str

/-- The state of Core that is published to the app. -/
structure CoreStateView where
  canonical : RootCanonicalRead
  operationsInFlight : List ℕ
  activeCaptures : ℕ
  recovery : Option CoreRecoveryAccess
  mutationHeld : Bool

/-- A published state, and whether the session is still the current one. -/
structure CoreSessionUpdate where
  state : Option CoreStateView
  current : Bool

/-- What a query tells about an operation. -/
structure CoreOperationRecord where
  phases : List PhaseRecord
  settled : Option PhaseOutcome

/-- How a command ended, as its sender sees it. -/
inductive CoreReply
  | observed (record : Option CoreOperationRecord)
  | accepted (record : Option CoreOperationRecord)
  /-- Core refused the command, for a conflict or for another reason. -/
  | refused (conflict : Bool)
  | protocolSkew
  | unreachable
  | uncertain

variable {P : Type}

/-- `recoveryAllowed`: while Core is held, only what it offers for the recovery may run. -/
def recoveryAllowed (access : Option CoreRecoveryAccess) (mutation : CanonicalMutation P) : Bool :=
  match access with
  | none => false
  | some access =>
    match mutation.coupledEffects with
    | [.setSuperkey] => access.setSuperkey.isNone
    | [.clearSuperkey] => access.clearSuperkey.isNone
    | [.fullReset] => access.fullReset.isNone
    | [.migrateLegacy] => false
    | [.stageBackendChoice] => false
    | [.prepareSelfTargets] => false
    | [.deleteLegacyConfig] =>
      mutation.editless && !mutation.protectAllDrafts && access.cleanup.isNone
    -- without an effect of its own, or with more than one
    | _ => mutation.forceActivation && access.repair.isNone

/-! ### Outcomes -/

/-- The failure that a settled record stands for, if it does. -/
def coreRecordFailure (settled : PhaseOutcome) : Option TransitionFailure :=
  match settled with
  | .confirmed => none
  | .failedKnown => some .executionFailed
  | _ => some .applicationUnknown

/-- An operation of which nothing more is known. -/
def uncertainOutcome (op : ℕ) (phases : List PhaseRecord) : ConfigIntentOutcome :=
  ⟨phases, some .applicationUnknown, some op⟩

/-- `recordOutcome`: what a record says, if it is there and settled. -/
def recordOutcome (op : ℕ) (record : Option CoreOperationRecord) : ConfigIntentOutcome :=
  match record with
  | none => uncertainOutcome op []
  | some record =>
    match record.settled with
    | none => uncertainOutcome op record.phases
    | some settled =>
      ⟨record.phases, coreRecordFailure settled, if settled = .unknown then some op else none⟩

/-- Only an actual receipt resolves a dispatch that is uncertain. -/
def readbackOutcome (op : ℕ) (reply : CoreReply) : ConfigIntentOutcome :=
  match reply with
  | .observed record => recordOutcome op record
  | .accepted record => recordOutcome op record
  | _ => uncertainOutcome op []

/-- An operation that Core accepted is queried until its receipt is settled. The replies are
    those that came before the session was lost, if it was. -/
def awaitAcceptedOperation (op : ℕ) : List CoreReply → ConfigIntentOutcome
  | [] => uncertainOutcome op []
  | .observed (some record) :: replies =>
    if record.settled.isSome then recordOutcome op (some record)
      else awaitAcceptedOperation op replies
  | reply :: _ => readbackOutcome op reply

/-- `commandOutcome`: what the replies to a command and to the query after it amount to. -/
def commandOutcome (op : ℕ) (reply : CoreReply) (replies : List CoreReply) : ConfigIntentOutcome :=
  match reply with
  -- one query, and it is uncertain itself where it fails
  | .uncertain => readbackOutcome op (replies.headD .uncertain)
  | .accepted record =>
    if (record.bind (·.settled)).isSome then recordOutcome op record
      else awaitAcceptedOperation op replies
  | .observed record => recordOutcome op record
  | .refused conflict => ⟨[], some (if conflict then .uiEditConflict else .executionFailed), none⟩
  | .unreachable => ⟨[], some .readFailed, none⟩
  | .protocolSkew => ⟨[], some .readFailed, none⟩

/-- What happens while an intent is executed. -/
inductive Execution
  /-- There is nothing to tell Core. -/
  | noCommand
  /-- Core gave no id. -/
  | noOperationId
  | thrown
  | submitted (op : ℕ) (reply : CoreReply) (replies : List CoreReply)

/-- `executeIntent`: how an intent ends, by where its execution got to. -/
def executeIntent : Execution → ConfigIntentOutcome
  | .noCommand => ⟨[], none, none⟩
  | .noOperationId => ⟨[], some .readFailed, none⟩
  | .thrown => ⟨[], some .validationFailed, none⟩
  | .submitted op reply replies => commandOutcome op reply replies

/-! ## The actor -/

/-- Work that has been launched and has not come back. -/
inductive Task (P : Type)
  /-- The read of `initialize`. -/
  | initializeRead
  /-- The read before an intent is prepared. -/
  | prepare (request : ConfigIntentRequest P)
  | execute (request : ConfigIntentRequest P)
  /-- The first read of a readback, of what was held then. -/
  | recheck (pending : Option (ConfigIntentRequest P × Option ℕ))
  /-- The query of the operation that is held. -/
  | readback (pending : Option (ConfigIntentRequest P × Option ℕ))

/-- What the coordinator shows to the app. -/
inductive ConfigCoordinatorMode
  | initializing
  | opened
  | missing
  | invalid
  | unavailable
  | paused
  deriving DecidableEq

/-- Why an intent is not queued. -/
inductive Refusal
  | captureActive
  | mutationPaused
  | mode (mode : ConfigCoordinatorMode)
  deriving DecidableEq

/-- What happens to intents, as it is logged. -/
inductive Event
  | accepted (id : ℕ)
  /-- The completion of an intent that is not queued. -/
  | refused (id : ℕ) (reason : Refusal)
  /-- An intent becomes active, while another one is held or not, and is one that recovery allows or
      not. -/
  | started (id : ℕ) (held allowed : Bool)
  /-- The call of `session.submit`. -/
  | submitted (id : ℕ)
  /-- The completion of an intent that was queued. -/
  | completed (id : ℕ) (result : ConfigOperationResult)
  | recovered (result : ConfigOperationResult)
  /-- The end of an execution that is not noticed. -/
  | discarded (id : ℕ)

/-- The coordinator of the app, with the work it has launched and the log of what it did. -/
structure Coordinator (P : Type) where
  /-- There is a client. -/
  attached : Bool
  publication : CoreSessionUpdate
  queue : List (ConfigIntentRequest P)
  drafts : List (ℕ × List ConfigField)
  active : Option (ConfigIntentRequest P)
  held : Option (ConfigIntentRequest P × Option ℕ)
  initializing : Bool
  rechecking : Bool
  tasks : List (Task P)
  log : List Event
  /-- The ids below have been given. -/
  next : ℕ

namespace Coordinator

variable (c : Coordinator P)

/-- What Core offers for a recovery. -/
def access : Option CoreRecoveryAccess := c.publication.state.bind (·.recovery)

/-- The mode, of which the first that applies is shown. -/
def mode : ConfigCoordinatorMode :=
  if c.initializing then .initializing
  else if c.held.isSome || c.publication.state.any (·.mutationHeld) then .paused
  else if !c.publication.current then .unavailable
  else
    match c.publication.state with
    | none => .unavailable
    | some state =>
      match state.canonical with
      | .missing => .missing
      | .invalid => .invalid
      | .available _ => .opened
      | .unavailable => .unavailable

/-- What publishing the view does to the coordinator. -/
def publish : Coordinator P :=
  { c with rechecking := c.rechecking && (c.held.isSome || c.initializing) }

/-- The drafts that an intent would write over, if it has to mind them. -/
def conflicts (request : ConfigIntentRequest P) : List ConfigField :=
  if request.mutation.protectsDrafts || request.mutation.source = .bridge then
    conflictingFields request.writes (c.drafts.flatMap (·.2))
  else []

/-- A task is launched. -/
def launch (task : Task P) : Coordinator P := { c with tasks := c.tasks ++ [task] }

/-- What happened is logged. -/
def note (events : List Event) : Coordinator P := { c with log := c.log ++ events }

/-- A read after an operation of unknown end, one at a time. -/
def retryReadback : Coordinator P :=
  if !c.attached || c.rechecking then c
    else ({ c with rechecking := true } : Coordinator P).launch (.recheck c.held)

/-- `observeHeldOperation`: a pending operation that Core no longer has in flight is read again. -/
def observeHeldOperation (update : CoreSessionUpdate) : Coordinator P :=
  match c.held.bind (·.2), update.state with
  | some pending, some state =>
    if update.current && !state.operationsInFlight.contains pending && !state.mutationHeld then
      c.retryReadback else c
  | _, _ => c

/-- `startNext`: the first intent of the queue, if none is active and the session is current. -/
def startNext : Coordinator P :=
  match c.queue with
  | [] => c
  | request :: queue =>
    if c.active.isSome || !c.publication.current then c
    else if c.held.isSome && !recoveryAllowed c.access request.mutation then c
    else if !c.attached then c
    else
      let c := c.note
        [.started request.id c.held.isSome (recoveryAllowed c.access request.mutation)]
      ({ c with queue, active := some request } : Coordinator P).publish.launch (.prepare request)

/-- A state that is published is taken over. -/
def acceptPublication (update : CoreSessionUpdate) : Coordinator P :=
  (({ c with publication := update } : Coordinator P).publish.observeHeldOperation update).startNext

/-- The client's latest publication, if there is a client. -/
def updateFromReply (update : CoreSessionUpdate) : Coordinator P :=
  if c.attached then c.acceptPublication update else c

/-- The end of `initialize`. -/
def initialized (update : CoreSessionUpdate) : Coordinator P :=
  (({ c with initializing := false } : Coordinator P).updateFromReply update).publish.startNext

/-- `initialize`. Whether there is a session is `prepareCore`. -/
def initializeCore (prepareCore : Bool) (update : CoreSessionUpdate) : Coordinator P :=
  if c.attached && c.publication.current || c.initializing then c
  else if c.attached || prepareCore then
    ({ c with attached := true, initializing := true } : Coordinator P).publish.launch
      .initializeRead
  else c.initialized update

/-- Why an intent is refused at once. -/
def refusal (mutation : CanonicalMutation P) : Option Refusal :=
  let state := c.publication.state
  if mutation.removesCanonical && 0 < (state.map (·.activeCaptures)).getD 0 then some .captureActive
  else if (c.held.isSome || state.any (·.mutationHeld)) && !recoveryAllowed c.access mutation then
    some .mutationPaused
  else if !c.publication.current || c.initializing then some (.mode c.mode)
  else if !state.any (·.canonical.isAvailable) && !mutation.bootstrap &&
      !mutation.removesCanonical && !recoveryAllowed c.access mutation then some (.mode c.mode)
  else none

/-- `acceptIntent`, of a new request. -/
def submit (mutation : CanonicalMutation P) : Coordinator P :=
  let request : ConfigIntentRequest P := ⟨c.next, mutation, mutation.writes, []⟩
  let c := { c.publish with next := c.next + 1 }
  match c.refusal mutation with
  | some reason => c.note [.refused request.id reason]
  | none =>
    ({ c with queue := c.queue ++ [request] } : Coordinator P).note [.accepted request.id]
      |>.publish.startNext

/-- The result that a completion is delivered with. -/
def result (request : ConfigIntentRequest P) (outcome : ConfigIntentOutcome) :
    ConfigOperationResult where
  id := request.id
  phases := outcome.phases
  failure :=
    if outcome.failure = some .applicationUnknown then some .applicationUnknown
    else if request.conflicts ≠ [] then some .uiEditConflict
    else outcome.failure
  conflicts := request.conflicts
  draftPending := c.conflicts request ≠ []

/-- Everything in the queue is completed, and nothing of it is done. -/
def pauseQueuedIntents : Coordinator P :=
  ({ c with queue := [] } : Coordinator P).note
    (c.queue.map fun request =>
      .completed request.id ⟨request.id, [], some .mutationPaused, [], false⟩)

/-- What is held after an intent has ended. -/
def heldAfter (request : ConfigIntentRequest P) (outcome : ConfigIntentOutcome) :
    Option (ConfigIntentRequest P × Option ℕ) :=
  if recoveryAllowed c.access request.mutation && outcome.failure.isNone then none
  else if outcome.failure = some .applicationUnknown then some (request, outcome.uncertainOperation)
  else c.held

/-- The active slot is free again, whichever intent has ended. -/
def ended (request : ConfigIntentRequest P) (outcome : ConfigIntentOutcome) (event : Event) :
    Coordinator P :=
  ({ c with held := c.heldAfter request outcome, active := none } : Coordinator P).note [event]

/-- What is queued waits while an operation is held. -/
def pauseIfHeld : Coordinator P := if c.held.isSome then c.pauseQueuedIntents else c

/-- An uncertain operation is looked for in the last state at once. -/
def observeUncertain (outcome : ConfigIntentOutcome) : Coordinator P :=
  if outcome.uncertainOperation.isSome then c.observeHeldOperation c.publication else c

/-- The rest of `finished`, once the message is one that is expected. -/
def settle (request : ConfigIntentRequest P) (outcome : ConfigIntentOutcome) (recovery : Bool) :
    Coordinator P :=
  let request := { request with conflicts := request.conflicts ++ c.conflicts request }
  let result := c.result request outcome
  let event := if recovery then .recovered result else .completed request.id result
  ((c.ended request outcome event).pauseIfHeld.publish.observeUncertain outcome).startNext

/-- `finished`, with the outcome of an execution. -/
def finished (id : ℕ) (outcome : ConfigIntentOutcome) : Coordinator P :=
  match c.active with
  | some request =>
    if request.id = id then c.settle request outcome false else c.note [.discarded id]
  | none => c.note [.discarded id]

/-- `finished`, with the outcome of a readback. -/
def recovered (id : ℕ) (outcome : ConfigIntentOutcome) : Coordinator P :=
  match c.held with
  | none => c
  | some (request, _) =>
    if request.id ≠ id then c
    else if outcome.failure = some .applicationUnknown then { c with rechecking := false }
    else ({ c with rechecking := false, held := none } : Coordinator P).settle request outcome true

/-- `prepared`, once the state is read. `prepareIntent` finds what the mutation writes. -/
def prepareActive
    (prepareIntent : RootCanonicalRead → CanonicalMutation P →
      Except TransitionFailure (List ConfigField))
    (request : ConfigIntentRequest P) (observed : Bool) : Coordinator P :=
  match c.publication.state.filter fun _ => c.publication.current && observed with
  | none => c.settle request ⟨[], some .readFailed, none⟩ false
  | some state =>
    match prepareIntent state.canonical request.mutation with
    | .error reason => c.settle request ⟨[], some reason, none⟩ false
    | .ok writes =>
      let request := { request with writes }
      let request := { request with conflicts := c.conflicts request }
      let c := { c with active := some request }
      if request.conflicts ≠ [] then c.settle request ⟨[], some .uiEditConflict, none⟩ false
      else c.launch (.execute request)

/-- `prepared`. -/
def prepared
    (prepareIntent : RootCanonicalRead → CanonicalMutation P →
      Except TransitionFailure (List ConfigField))
    (id : ℕ) (observed : Bool) (update : CoreSessionUpdate) : Coordinator P :=
  match c.active with
  | none => c
  | some request =>
    if request.id = id then (c.updateFromReply update).prepareActive prepareIntent request observed
      else c

/-- The draft of an editor is put down, or taken back. -/
def draft (id : ℕ) (fields : List ConfigField) : Coordinator P :=
  let others := c.drafts.filter (·.1 ≠ id)
  let c := { c with drafts := if fields = [] then others else others ++ [(id, fields)] }
  { c with active := c.active.map fun request =>
    { request with conflicts := request.conflicts ++ c.conflicts request } }

/-- The second message of a readback. -/
def finishReadback (pending : Option (ConfigIntentRequest P × Option ℕ)) (reply : CoreReply)
    (update : CoreSessionUpdate) : Coordinator P :=
  match pending with
  | none => c.acceptPublication update
  | some (request, none) => c.recovered request.id ⟨[], some .applicationUnknown, none⟩
  | some (request, some op) => c.recovered request.id (readbackOutcome op reply)

end Coordinator

/-! ## Messages -/

/-- A message, with the client's latest publication where it is read. -/
inductive Step (P : Type)
  | initializeCore (prepareCore : Bool) (update : CoreSessionUpdate)
  | publication (update : CoreSessionUpdate)
  | submit (mutation : CanonicalMutation P)
  | draft (id : ℕ) (fields : List ConfigField)
  | retry
  /-- The `i`th task ends, and is the read of `initialize`. -/
  | initialized (i : ℕ) (update : CoreSessionUpdate)
  | prepared (i : ℕ) (observed : Bool) (update : CoreSessionUpdate)
  | executed (i : ℕ) (execution : Execution)
  | rechecked (i : ℕ) (update : CoreSessionUpdate)
  | readback (i : ℕ) (reply : CoreReply) (update : CoreSessionUpdate)

namespace Coordinator

variable (prepareIntent : RootCanonicalRead → CanonicalMutation P →
  Except TransitionFailure (List ConfigField))

/-- The coordinator without the `i`th task. -/
def endTask (c : Coordinator P) (i : ℕ) : Coordinator P := { c with tasks := c.tasks.eraseIdx i }

/-- Whether an execution calls `session.submit`. -/
def submissions (id : ℕ) : Execution → List Event
  | .submitted _ _ _ => [.submitted id]
  | _ => []

/-- One step of the coordinator. -/
def step (c : Coordinator P) : Step P → Coordinator P
  | .initializeCore prepareCore update => c.initializeCore prepareCore update
  | .publication update => c.acceptPublication update
  | .submit mutation => c.submit mutation
  | .draft id fields => c.draft id fields
  | .retry => c.retryReadback
  | .initialized i update =>
    match c.tasks[i]? with
    | some .initializeRead => (c.endTask i).initialized update
    | _ => c
  | .prepared i observed update =>
    match c.tasks[i]? with
    | some (.prepare request) => (c.endTask i).prepared prepareIntent request.id observed update
    | _ => c
  | .executed i execution =>
    match c.tasks[i]? with
    | some (.execute request) =>
      ((c.endTask i).note (submissions request.id execution)).finished request.id
      (executeIntent execution)
    | _ => c
  | .rechecked i update =>
    match c.tasks[i]? with
    | some (.recheck pending) => ((c.endTask i).launch (.readback pending)).initialized update
    | _ => c
  | .readback i reply update =>
    match c.tasks[i]? with
    | some (.readback pending) => (c.endTask i).finishReadback pending reply update
    | _ => c

/-- The coordinator after several steps. -/
def run (c : Coordinator P) (steps : List (Step P)) : Coordinator P :=
  steps.foldl (step prepareIntent) c

/-- The coordinator as it is created. -/
def start : Coordinator P := ⟨false, ⟨none, false⟩, [], [], none, none, false, false, [], [], 0⟩

end Coordinator

end VpnHide.App

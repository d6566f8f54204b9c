import VpnHide.Daemon.Recovery

/-!
# Debug leases

A capture needs debug logging, whatever the user has chosen. It acquires a lease; the first
one saves the choice in the journal (`debugRestore`), and when the last one is released or
expires, an edit restores it (`debugRestoreOp`). The leases end with the process, and what is
saved outlives it (`acquire_debug_lease` and what follows in `core-daemon/src/server.rs`).
-/

namespace VpnHide.Daemon

open Lib Config

/-- Taking over a store whose journal is written first. -/
def persistStore (s : ConfigStore) : Core (Except SubmitError Unit) := do
  let w ← .get
  if w.fault then pure (.error .unavailable)
  else if (← writeAtomic s.journal) ≠ .written then do
    freezeStorageFault w.store
    pure (.error .unavailable)
  else do
    installStore s
    pure (.ok ())

/-- `issue_operation_id_direct`: the next id, if the journal could be told. -/
def issueOperationIdDirect : Core (Except SubmitError OperationId) := do
  let w ← .get
  let id := w.store.journal.issuedThrough + 1
  if w.fault || 2 ^ 64 ≤ id then pure (.error .unavailable)
  else do
    let s := { w.store with journal := { w.store.journal with issuedThrough := id } }
    if (← writeAtomic s.journal) ≠ .written then do
      freezeStorageFault w.store
      pure (.error .unavailable)
    else do
      .modify fun w => { w with store := s }
      pure (.ok id)

/-- The edit of a lease. -/
def debugRequest (op : OperationId) (base : ℕ) (enabled : Bool) (kind : Option PlanKind) :
    Request :=
  { Request.ofEdit op base (.toggle .debug enabled) with kind := kind, lease := true }

/-- An operation is settled in a way. -/
def settledAs (j : Journal) (op : OperationId) (outcome : PhaseOutcome) : Bool :=
  (j.get op).any fun e => e.record.settled = some outcome

/-- Switching debug logging; it tells whether this is confirmed. -/
def writeDebugDirect (env : Env) (enabled : Bool) : Core Bool := do
  match ← issueOperationIdDirect with
  | .error _ => pure false
  | .ok op =>
    let w ← .get
    let kind := if env.native then .persistThenNative else .persistOnly
    let result ← executeEditOpts env (debugRequest op w.store.configRevision enabled (some kind))
    let w ← .get
    pure (result.isOk && settledAs w.store.journal op .confirmed &&
      w.store.config.any (·.debug = enabled))

/-! ## Restoring the choice -/

/-- The journal without the choice that was saved. -/
def clearRestore (s : ConfigStore) : ConfigStore :=
  { s with journal := { s.journal with debugRestore := none, debugRestoreOp := none } }

/-- What `debug` is restored to: as it was, unless the user has chosen since. -/
def restoreTarget (saved : Bool × Bool) (config : CanonicalConfig) : Bool :=
  if config.debugSwitch ≠ saved.2 then config.debugSwitch else saved.1

/-- The operation that restores, which is issued when there is none yet. -/
def restoreOp (s : ConfigStore) : Core (Except SubmitError OperationId) :=
  match s.journal.debugRestoreOp with
  | some op => pure (.ok op)
  | none => do
    match ← issueOperationIdDirect with
    | .error error => pure (.error error)
    | .ok op =>
      let w ← .get
      match ← persistStore
        { w.store with journal := { w.store.journal with debugRestoreOp := some op } } with
      | .error error => pure (.error error)
      | .ok () => pure (.ok op)

/-- Restoring a choice by an edit, and forgetting it when that is confirmed. -/
def restoreBy (env : Env) (saved : Bool × Bool) (retrying : Bool) (s : ConfigStore) :
    Core (Except SubmitError Unit) :=
  match s.config with
  | none => persistStore (clearRestore s)
  | some config => do
    match ← restoreOp s with
    | .error error => pure (.error error)
    | .ok op =>
      let w ← .get
      let kind := if retrying then some (persistKind env) else none
      match ← executeEditOpts env
        (debugRequest op w.store.configRevision (restoreTarget saved config) kind) with
      | .error error => pure (.error error)
      | .ok _ =>
        let w ← .get
        if settledAs w.store.journal op .confirmed then persistStore (clearRestore w.store)
        else pure (.error .unavailable)

/-- What to do with an operation that was to restore, and has a receipt. -/
inductive Restoration
  | done
  | again
  | blocked

/-- What is left to do for the restoration of `debug`. -/
def restorationOf (retryKnownFailure : Bool) (e : JournalEntry) : Restoration :=
  if e.record.settled = some .confirmed then .done
  else if e.supersededBy.isSome || (e.record.settled = some .failedKnown && retryKnownFailure) then
    .again
  else .blocked

/-- The restoration, with the journal read back. -/
def restoreSaved (env : Env) (saved : Bool × Bool) (retryKnownFailure : Bool) (s : ConfigStore) :
    Core (Except SubmitError Unit) :=
  match s.journal.debugRestoreOp.bind s.journal.get with
  | none => restoreBy env saved false s
  | some e =>
    match restorationOf retryKnownFailure e with
    | .done => persistStore (clearRestore s)
    | .again => do
      -- what superseded it does not prove its target
      let s := { s with journal := { s.journal with debugRestoreOp := none } }
      match ← persistStore s with
      | .error error => pure (.error error)
      | .ok () => restoreBy env saved true s
    | .blocked => pure (.error .unavailable)

/-- `restore_debug_if_unleased`: without leases, `debug` goes back to the user's choice. -/
def restoreDebugIfUnleased (env : Env) (retryKnownFailure : Bool) :
    Core (Except SubmitError Unit) := do
  let w ← .get
  if !w.store.journal.debugLeases.isEmpty then pure (.ok ())
  else
    match w.store.journal.debugRestore with
    | none => pure (.ok ())
    | some saved =>
      match ← reconcileHeldPersist w.store with
      | .error error => pure (.error error)
      | .ok (readback, s) =>
        match ← if readback then persistStore s else pure (.ok ()) with
        | .error error => pure (.error error)
        | .ok () => restoreSaved env saved retryKnownFailure s

/-! ## Leases -/

/-- No more leases are held at a time than these. -/
def maxLeases : ℕ := 16

/-- What must be certain before logging is switched. -/
def relevantHold (env : Env) (phase : ConfigPhase) : Bool :=
  phase = .persist || (env.native && (phase = .native || phase = .secret))

/-- A lease is granted to its owner, while there is room. -/
def checkLease (env : Env) (id owner : ℕ) (j : Journal) : Except SubmitError Unit := do
  let existing := j.debugLeases.find? (·.1 = id)
  if existing.any (·.2 ≠ owner) then throw .idReused
  if existing.isNone && maxLeases ≤ j.debugLeases.length then throw .busy
  if j.nativeLifecycleUncertain || j.expiredHolds.any (relevantHold env) ||
      (j.operations.flatMap (·.heldPhases)).any (relevantHold env) then
    throw .unavailable

/-- The journal with a lease, and with what is to be restored after the last of them. -/
def reserveLease (id owner : ℕ) (config : CanonicalConfig) (j : Journal) : Journal :=
  { j with
    debugRestore := some (j.debugRestore.getD (config.debug, config.debugSwitch))
    debugLeases :=
      if j.debugLeases.any (·.1 = id) then j.debugLeases else j.debugLeases ++ [(id, owner)] }

/-- A lease of this process. -/
def setLive (live : List (ℕ × Bool)) (id : ℕ) (active : Bool) : List (ℕ × Bool) :=
  (id, active) :: live.filter (·.1 ≠ id)

/-- `acquire_debug_lease`: a lease is taken down before `debug` is turned on. -/
def acquireDebugLease (env : Env) (id owner : ℕ) : Core (Except SubmitError Unit) := do
  let bounded ← .ask fun | .clock ok => some ok | _ => none
  let w ← .get
  if !bounded then pure (.error .unavailable)
  else
    match checkLease env id owner w.store.journal, w.store.config with
    | .error error, _ => pure (.error error)
    | .ok (), none => pure (.error .unavailable)
    | .ok (), some config =>
      let alreadyActive := w.live.contains (id, true) && config.debug
      match ← persistStore { w.store with journal := reserveLease id owner config w.store.journal }
        with
      | .error error => pure (.error error)
      | .ok () =>
        let inTime ← .ask fun | .clock ok => some ok | _ => none
        if !inTime then pure (.error .unavailable)
        else do
          .modify fun w => { w with live := setLive w.live id alreadyActive }
          let confirmed ← if alreadyActive then pure true else writeDebugDirect env true
          if !confirmed then pure (.error .unavailable)
          else do
            .modify fun w => { w with live := setLive w.live id true }
            pure (.ok ())

/-- `release_debug_lease`: the last one that goes turns `debug` back. -/
def releaseDebugLease (env : Env) (id : ℕ) : Core (Except SubmitError Unit) := do
  let w ← .get
  let journal :=
    { w.store.journal with debugLeases := w.store.journal.debugLeases.filter (·.1 ≠ id) }
  match ← persistStore { w.store with journal } with
  | .error error => pure (.error error)
  | .ok () =>
    .modify fun w => { w with live := w.live.filter (·.1 ≠ id) }
    restoreDebugIfUnleased env true

/-- Dropping the leases whose deadline is over. -/
def expireDebugLeases (env : Env) (elapsed : ℕ → Bool) : Core Unit := do
  let w ← .get
  if w.fault then pure ()
  else
    let debugLeases := w.store.journal.debugLeases.filter fun lease =>
      w.live.any fun live => live.1 = lease.1 && !elapsed live.1
    let persisted ← if debugLeases.length ≠ w.store.journal.debugLeases.length then
        persistStore { w.store with journal := { w.store.journal with debugLeases } }
      else pure (.ok ())
    match persisted with
    | .error _ => pure ()
    | .ok () =>
      .modify fun w => { w with live := w.live.filter fun live => debugLeases.any (·.1 = live.1) }
      let _ ← restoreDebugIfUnleased env false
      pure ()

end VpnHide.Daemon

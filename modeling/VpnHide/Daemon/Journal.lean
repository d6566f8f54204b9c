import VpnHide.Config.Edit

/-!
# The command journal

What Core remembers of its operations across restarts (`core-daemon/src/journal.rs`): a
receipt for each of them, and what outlives the receipts when they expire. Receipts that
are settled are kept up to a bound; `prune` drops the oldest beyond it, but moves the
resources they hold to `expiredHolds` and their ids below `expiredThrough`.

So nothing that matters is forgotten: the resources held are the same
(`mem_heldResources_prune`), receipts that something still refers to stay
(`prune_split`), and an id that was recorded once is known for good (`Known.step`), so that
it is never executed again (`retention_safe`).
-/

namespace VpnHide.Daemon

open Lib Config

/-! ## Receipts -/

/-- The number of an operation. -/
abbrev OperationId := ℕ

/-- The phases of operations. -/
inductive ConfigPhase
  | persist
  | secret
  | cleanup
  | native
  | ports
  | maintenance
  deriving DecidableEq

/-- All phases, in the order of the source. -/
def ConfigPhase.all : List ConfigPhase := [persist, secret, cleanup, native, ports, maintenance]

theorem ConfigPhase.mem_all (p : ConfigPhase) : p ∈ all := by cases p <;> decide

/-- How far a phase has got, or how it ended. -/
inductive PhaseOutcome
  | notAttempted
  | running
  | confirmed
  | failedKnown
  | unknown
  deriving DecidableEq

/-- A phase of a record. -/
structure PhaseRecord where
  phase : ConfigPhase
  outcome : PhaseOutcome
  deriving DecidableEq

/-- The progress of an operation; `settled` is missing while it runs. -/
structure OperationRecord where
  op : OperationId
  phases : List PhaseRecord
  settled : Option PhaseOutcome
  deriving DecidableEq

/-- The revision that an operation starts from, and the one that it may commit. -/
structure Admission where
  fromRevision : ℕ
  commitRevision : ℕ
  writes : List Str
  deriving DecidableEq

/-- The backends. -/
inductive NativeBackend
  | kmod
  | builtin
  | kpm
  | zygisk
  deriving DecidableEq

/-- The backend that the user wants: a certain one, or what fits. -/
inductive BackendChoice
  | auto
  | fixed (backend : NativeBackend)
  deriving DecidableEq

/-- A choice of a backend, as it is asked for. -/
structure BackendChoiceRequest where
  expectedRevision : ℕ
  choice : BackendChoice
  acknowledgedWarning : Bool
  deriving DecidableEq

/-- What an import does with the choices that are there. -/
inductive LegacyImportMode
  | merge
  | replace
  | bootstrap
  deriving DecidableEq

/-- What a command is for. -/
inductive CommandIntent
  | stageBackendChoice (request : BackendChoiceRequest)
  | stageCoreReplacement (requestSha256 : Str)
  | edit
  | setSuperkey (remember : Bool)
  | clearSuperkey
  | importConfig (cleanupLegacy : Bool)
  | migrateLegacy (mode : LegacyImportMode)
  | cleanupLegacy
  | prepareSelfTargets
  | fullReset
  deriving DecidableEq

/-- Where a policy is delivered. -/
structure NativeIntent where
  backend : NativeBackend
  wire : Str
  zygiskModule : Option Str
  /-- The boot, the generation and the directory of a grant to bundled Zygisk. -/
  zygiskAuthorization : Option (Str × ℕ × ℕ × ℕ)
  deriving DecidableEq

/-- An operation that was accepted. -/
structure JournalEntry where
  admission : Option Admission
  command : Option CommandIntent
  supersededBy : Option OperationId
  supersededPhases : List ConfigPhase
  finalizedUnknown : Bool
  base : ℕ
  edit : ConfigEdit
  candidate : Option CanonicalConfig
  nativeIntent : Option NativeIntent
  record : OperationRecord

namespace JournalEntry

/-- A repair that does nothing but withdraw the old grant of Zygisk. -/
def isRevocationOnlyRepair (e : JournalEntry) : Bool :=
  e.command = some .edit && e.edit == .repairActivation && e.candidate.isNone &&
    e.nativeIntent.isNone && (match e.record.phases with
      | [p] => p.phase = .native
      | _ => false) &&
    e.admission.any fun a => a.fromRevision = a.commitRevision && a.writes.isEmpty

/-- The outcomes that leave a phase unresolved. -/
def unresolved : PhaseOutcome → Bool
  | .unknown => true
  | .running => true
  | .notAttempted => true
  | _ => false

/-- The phases that an uncertain operation holds. -/
def heldPhases (e : JournalEntry) : List ConfigPhase :=
  if e.supersededBy.isSome ∨ e.record.settled ≠ some .unknown then []
  else
    let pending := (e.record.phases.filter (unresolved ·.outcome)).map (·.phase)
    let phases := if pending = [] then e.record.phases.map (·.phase) else pending
    phases.filter (· ∉ e.supersededPhases)

end JournalEntry

/-! ## The journal -/

/-- What is left of an uncertain write of the config. -/
structure PendingPersist where
  admission : Option Admission
  candidate : Option CanonicalConfig
  reset : Bool

/-- How far a revocation has got. -/
inductive RevocationState
  | running
  | confirmed
  | unknown
  deriving DecidableEq

/-- The last revocation, and the operation it was made for. -/
structure ZygiskRevocation where
  operation : Option OperationId
  state : RevocationState

/-- It is not known that the grant is gone. -/
def ZygiskRevocation.uncertain (r : ZygiskRevocation) : Bool := r.state ≠ .confirmed

/-- How far a replacement of Core has got. -/
inductive CoreMaintenanceStage
  | accepted
  | dispatching
  | verifyingStaged
  | retiringLegacy
  | pendingRestart
  | verified
  | failedKnown
  | unknown
  deriving DecidableEq

/-- A replacement of Core, with the stage of its status. -/
structure ReplacementWork where
  operation : OperationId
  stage : CoreMaintenanceStage

/-- Nothing else may touch the runtime meanwhile. -/
def ReplacementWork.blocksRuntime (w : ReplacementWork) : Bool :=
  w.stage ≠ .verified && w.stage ≠ .failedKnown && w.stage ≠ .pendingRestart

/-- The projection of the managed Zygisk module. -/
structure ProjectionWork where
  operation : OperationId
  dispatchIntent : Bool
  outcome : PhaseOutcome

/-- Nothing else may touch the runtime meanwhile. -/
def ProjectionWork.blocksRuntime (w : ProjectionWork) : Bool :=
  w.outcome = .running || w.outcome = .unknown

/-- The first grant to it. -/
structure ProjectionBootstrap where
  publicationIntent : Bool
  outcome : PhaseOutcome

/-- It may have been published. -/
def ProjectionBootstrap.held (w : ProjectionBootstrap) : Bool :=
  w.outcome = .running || w.outcome = .unknown

/-- The journal. The native lifecycle is there by whether its startup and its preflights are
    uncertain; what is only checked when the file is read is left out. -/
structure Journal where
  zygiskBootstrap : Option ProjectionBootstrap
  zygiskProjection : Option ProjectionWork
  replacement : Option ReplacementWork
  zygiskRevocation : Option ZygiskRevocation
  nativeStartupUncertain : Bool
  preflightUncertain : Bool
  configRevision : ℕ
  retainSettled : ℕ
  operations : List JournalEntry
  retiredIds : List OperationId
  issuedThrough : ℕ
  expiredThrough : ℕ
  conflictFloor : ℕ
  /-- The ids and owners of the leases. -/
  debugLeases : List (ℕ × ℕ)
  debugRestore : Option (Bool × Bool)
  debugRestoreOp : Option OperationId
  expiredHolds : List ConfigPhase
  pendingPersist : Option PendingPersist
  fieldRevisions : StrMap ℕ

namespace Journal

/-- How many settled receipts are kept. -/
def defaultRetainSettled : ℕ := 64

/-- The journal of a first installation. -/
def empty : Journal where
  zygiskBootstrap := none
  zygiskProjection := none
  replacement := none
  zygiskRevocation := none
  nativeStartupUncertain := false
  preflightUncertain := false
  configRevision := 0
  retainSettled := defaultRetainSettled
  operations := []
  retiredIds := []
  issuedThrough := 0
  expiredThrough := 0
  conflictFloor := 0
  debugLeases := []
  debugRestore := none
  debugRestoreOp := none
  expiredHolds := []
  pendingPersist := none
  fieldRevisions := ∅

/-- The receipt of an operation. -/
def get (j : Journal) (op : OperationId) : Option JournalEntry :=
  j.operations.find? (·.record.op = op)

/-- An id whose receipt has expired. -/
def isRetired (j : Journal) (op : OperationId) : Bool :=
  op ≤ j.expiredThrough || j.retiredIds.contains op

/-- A revocation is under way or of unknown end. -/
def revocationUncertain (j : Journal) : Bool := j.zygiskRevocation.any (·.uncertain)

/-- Something about the native backend is uncertain. -/
def nativeLifecycleUncertain (j : Journal) : Bool :=
  j.nativeStartupUncertain || j.preflightUncertain || j.revocationUncertain

/-- The publication at boot may have been made. -/
def bootstrapUncertain (j : Journal) : Bool := j.zygiskBootstrap.any (·.held)

/-- The resources held, by the journal as a whole. -/
def holds (j : Journal) : List ConfigPhase :=
  j.expiredHolds ++ j.operations.flatMap (·.heldPhases) ++
    (if j.nativeLifecycleUncertain || j.bootstrapUncertain then [.native] else []) ++
    (if j.replacement.any (·.blocksRuntime) then [.maintenance] else []) ++
    (if j.zygiskProjection.any (·.blocksRuntime) then [.maintenance] else [])

/-- All durable resource holds, in order and without repetitions. -/
def heldResources (j : Journal) : List ConfigPhase := ConfigPhase.all.filter (· ∈ j.holds)

/-! ## Retention -/

/-- The operation that an uncertain revocation belongs to. -/
def revocationOp (j : Journal) : Option OperationId :=
  (j.zygiskRevocation.filter (·.uncertain)).bind (·.operation)

/-- A receipt that may be dropped: it is settled, and nothing refers to it. -/
def droppable (j : Journal) (e : JournalEntry) : Bool :=
  e.record.settled.isSome && some e.record.op ≠ j.replacement.map (·.operation) &&
    some e.record.op ≠ j.zygiskProjection.map (·.operation) &&
      some e.record.op ≠ j.debugRestoreOp &&
    !(some e.record.op = j.revocationOp && e.isRevocationOnlyRepair)

/-- Dropping a receipt: its holds outlive it, and its id is expired. -/
def expire (j : Journal) (e : JournalEntry) : Journal :=
  { j with
    pendingPersist :=
      if .persist ∈ e.heldPhases then some ⟨e.admission, e.candidate, e.command = some .fullReset⟩
      else j.pendingPersist
    expiredHolds :=
      e.heldPhases.foldl (fun holds p => if p ∈ holds then holds else holds ++ [p]) j.expiredHolds
    expiredThrough := max j.expiredThrough e.record.op
    conflictFloor := match e.admission with
      | none => j.conflictFloor
      | some a => max j.conflictFloor (min a.commitRevision j.configRevision) }

/-- The first `n` receipts that may be dropped are, in their order. -/
def dropFirst (j : Journal) : ℕ → List JournalEntry → Journal × List JournalEntry
  | _, [] => (j, [])
  | 0, entries => (j, entries)
  | n + 1, e :: entries =>
    if j.droppable e then dropFirst (j.expire e) n entries
    else
      let (j, kept) := dropFirst j (n + 1) entries
      (j, e :: kept)

/-- Dropping the oldest receipts beyond the bound. -/
def prune (j : Journal) : Journal :=
  let count := (j.operations.filter j.droppable).length
  if count ≤ j.retainSettled then j
  else
    let (j, kept) := j.dropFirst (count - j.retainSettled) j.operations
    { j with operations := kept, fieldRevisions := j.fieldRevisions.filter fun _ revision =>
      j.conflictFloor < revision }

/-- The receipts with one inserted, or replaced in its slot. -/
def withEntry (entries : List JournalEntry) (entry : JournalEntry) : List JournalEntry :=
  match entries.findIdx? fun e => e.record.op = entry.record.op with
  | some i => entries.set i entry
  | none => entries ++ [entry]

/-- Inserting or replacing a receipt. -/
def upsert (j : Journal) (entry : JournalEntry) : Journal :=
  prune { j with
    issuedThrough := max j.issuedThrough entry.record.op
    operations := withEntry j.operations entry }

/-- What reading the journal does to it, after its checks. -/
def migrate (j : Journal) : Journal :=
  let expiredThrough := max ((j.retiredIds.max?).getD 0) j.expiredThrough
  prune { j with
    conflictFloor := min j.conflictFloor j.configRevision
    retainSettled := min j.retainSettled defaultRetainSettled
    expiredThrough := expiredThrough
    issuedThrough :=
      max (max (((j.operations.map (·.record.op)).max?).getD 0) j.issuedThrough) expiredThrough
    retiredIds := [] }

/-! ## What retention keeps

Everything follows from `prune_eq`: `prune` splits the receipts into those it keeps and
those it drops, and expires the latter one by one. -/

/-- The receipts that are dropped, and what is left. -/
theorem dropFirst_eq (j : Journal) (n : ℕ) (entries : List JournalEntry) :
    ∃ dropped : List JournalEntry, entries.Perm (dropped ++ (j.dropFirst n entries).2) ∧
      (j.dropFirst n entries).2.Sublist entries ∧ (∀ e ∈ dropped, j.droppable e) ∧
      (j.dropFirst n entries).1 = dropped.foldl expire j := by
  induction entries generalizing j n with
  | nil => exact ⟨[], by cases n <;> simp [dropFirst]⟩
  | cons e entries ih =>
    cases n with
    | zero => exact ⟨[], by simp [dropFirst]⟩
    | succ n =>
      by_cases he : j.droppable e
      · obtain ⟨dropped, hperm, hsub, hdrop, heq⟩ := ih (j.expire e) n
        refine ⟨e :: dropped, ?_⟩
        simp only [dropFirst, he, if_true]
        exact ⟨hperm.cons e, hsub.cons e, List.forall_mem_cons.2 ⟨he, hdrop⟩, heq⟩
      · obtain ⟨dropped, hperm, hsub, hdrop, heq⟩ := ih j (n + 1)
        refine ⟨dropped, ?_⟩
        simp only [dropFirst, he, Bool.false_eq_true, if_false]
        exact ⟨(hperm.cons e).trans List.perm_middle.symm, hsub.cons_cons e, hdrop, heq⟩

/-- The receipts that `prune` drops, and how it leaves the journal. -/
theorem prune_eq (j : Journal) :
    ∃ dropped : List JournalEntry, j.operations.Perm (dropped ++ j.prune.operations) ∧
      j.prune.operations.Sublist j.operations ∧ (∀ e ∈ dropped, j.droppable e) ∧
      j.prune = { dropped.foldl expire j with
        operations := j.prune.operations, fieldRevisions := j.prune.fieldRevisions } := by
  by_cases hcount : (j.operations.filter j.droppable).length ≤ j.retainSettled
  · exact ⟨[], by simp [prune, hcount]⟩
  · obtain ⟨dropped, hperm, hsub, hdrop, heq⟩ :=
      j.dropFirst_eq ((j.operations.filter j.droppable).length - j.retainSettled) j.operations
    refine ⟨dropped, ?_⟩
    simp only [prune, if_neg hcount]
    exact ⟨hperm, hsub, hdrop, by rw [heq]⟩

section Expire

variable (j : Journal) (e : JournalEntry) (dropped : List JournalEntry)

/-- What expiry holds. -/
theorem mem_expiredHolds_expire (p : ConfigPhase) :
    p ∈ (j.expire e).expiredHolds ↔ p ∈ j.expiredHolds ∨ p ∈ e.heldPhases := by
  change p ∈ e.heldPhases.foldl _ j.expiredHolds ↔ _
  generalize j.expiredHolds = holds
  induction e.heldPhases generalizing holds with
  | nil => simp
  | cons q phases ih =>
    rw [List.foldl_cons, ih]
    split_ifs with hq
    · constructor
      · rintro (h | h)
        · exact .inl h
        · exact .inr (List.mem_cons_of_mem q h)
      · rintro (h | h)
        · exact .inl h
        · obtain rfl | h := List.mem_cons.1 h
          · exact .inl hq
          · exact .inr h
    · rw [List.mem_append, List.mem_singleton, List.mem_cons, or_assoc]

/-- What the expiry of several receipts holds. -/
theorem mem_expiredHolds_foldl (p : ConfigPhase) :
    p ∈ (dropped.foldl expire j).expiredHolds ↔
      p ∈ j.expiredHolds ∨ p ∈ dropped.flatMap (·.heldPhases) := by
  induction dropped generalizing j with
  | nil => simp
  | cons e dropped ih =>
    rw [List.foldl_cons, ih, mem_expiredHolds_expire, List.flatMap_cons, List.mem_append, or_assoc]

/-- What else `expire` touches does not matter to the holds. -/
theorem foldl_expire_frame :
    let j' := dropped.foldl expire j
    j'.nativeLifecycleUncertain = j.nativeLifecycleUncertain ∧
      j'.bootstrapUncertain = j.bootstrapUncertain ∧ j'.replacement = j.replacement ∧
      j'.zygiskProjection = j.zygiskProjection ∧ j'.retiredIds = j.retiredIds ∧
      j'.configRevision = j.configRevision ∧ j'.fieldRevisions = j.fieldRevisions := by
  induction dropped generalizing j with
  | nil => exact ⟨rfl, rfl, rfl, rfl, rfl, rfl, rfl⟩
  | cons e dropped ih => exact ih (j.expire e)

/-- The bound of expired ids only grows. -/
theorem expiredThrough_le_foldl : j.expiredThrough ≤ (dropped.foldl expire j).expiredThrough := by
  induction dropped generalizing j with
  | nil => exact le_rfl
  | cons e dropped ih => exact (le_max_left _ _).trans (ih (j.expire e))

/-- The bound is not below any id that expires. -/
theorem op_le_expiredThrough_foldl (he : e ∈ dropped) :
    e.record.op ≤ (dropped.foldl expire j).expiredThrough := by
  induction dropped generalizing j with
  | nil => cases he
  | cons d dropped ih =>
    obtain rfl | he := List.mem_cons.1 he
    · exact (le_max_right _ _).trans (expiredThrough_le_foldl (j.expire e) dropped)
    · exact ih (j.expire d) he

/-- The conflict floor only grows, and not beyond what expires. -/
theorem conflictFloor_foldl : j.conflictFloor ≤ (dropped.foldl expire j).conflictFloor ∧
    (dropped.foldl expire j).conflictFloor ≤ max j.conflictFloor j.configRevision := by
  induction dropped generalizing j with
  | nil => exact ⟨le_rfl, le_max_left _ _⟩
  | cons e dropped ih =>
    have hfloor : j.conflictFloor ≤ (j.expire e).conflictFloor ∧
        (j.expire e).conflictFloor ≤ max j.conflictFloor j.configRevision := by
      cases hadmission : e.admission with
      | none => simp [expire, hadmission]
      | some a =>
        simp only [expire, hadmission]
        omega
    obtain ⟨hle, hub⟩ := ih (j.expire e)
    refine ⟨hfloor.1.trans hle, hub.trans (max_le hfloor.2 ?_)⟩
    exact le_max_right _ _

end Expire

/-- What is held. -/
theorem mem_heldResources (j : Journal) (p : ConfigPhase) : p ∈ j.heldResources ↔ p ∈ j.holds := by
  simp [heldResources, ConfigPhase.mem_all]

/-- The resources held stay the same. -/
theorem mem_heldResources_prune (j : Journal) (p : ConfigPhase) :
    p ∈ j.prune.heldResources ↔ p ∈ j.heldResources := by
  obtain ⟨dropped, hperm, -, -, heq⟩ := j.prune_eq
  obtain ⟨hnative, hbootstrap, hreplacement, hprojection, -⟩ := foldl_expire_frame j dropped
  have hops : p ∈ j.operations.flatMap (·.heldPhases) ↔
      p ∈ dropped.flatMap (·.heldPhases) ∨ p ∈ j.prune.operations.flatMap (·.heldPhases) := by
    rw [(hperm.flatMap_right _).mem_iff, List.flatMap_append, List.mem_append]
  have hholds : p ∈ j.prune.expiredHolds ↔
      p ∈ j.expiredHolds ∨ p ∈ dropped.flatMap (·.heldPhases) := by
    rw [heq]
    exact mem_expiredHolds_foldl j dropped p
  have hlifecycle : j.prune.nativeLifecycleUncertain = j.nativeLifecycleUncertain := by
    rw [heq]
    exact hnative
  have hboot : j.prune.bootstrapUncertain = j.bootstrapUncertain := by
    rw [heq]
    exact hbootstrap
  have hcore : j.prune.replacement = j.replacement := by
    rw [heq]
    exact hreplacement
  have hproj : j.prune.zygiskProjection = j.zygiskProjection := by
    rw [heq]
    exact hprojection
  simp only [mem_heldResources, holds, List.mem_append, hops, hholds, hlifecycle, hboot,
    hcore, hproj, or_assoc]

/-- A receipt that is needed: it is not settled, or the restoration of the debug switch, the
    replacement of Core or the projection refers to it, or it repairs an uncertain revocation. -/
def Pinned (j : Journal) (e : JournalEntry) : Prop :=
  e.record.settled = none ∨ j.debugRestoreOp = some e.record.op ∨
    j.replacement.map (·.operation) = some e.record.op ∨
    j.zygiskProjection.map (·.operation) = some e.record.op ∨
    ∃ r, j.zygiskRevocation = some r ∧ r.uncertain ∧ r.operation = some e.record.op ∧
      e.isRevocationOnlyRepair

/-- The operation of an uncertain revocation. -/
theorem revocationOp_eq_some {j : Journal} {op : OperationId} :
    j.revocationOp = some op ↔ ∃ r, j.zygiskRevocation = some r ∧ r.uncertain ∧
      r.operation = some op := by
  simp only [revocationOp, Option.bind_eq_some_iff, Option.filter_eq_some_iff, and_assoc]

/-- What can be dropped is not pinned. -/
theorem not_pinned_of_droppable {j : Journal} {e : JournalEntry} (h : j.droppable e) :
    ¬ j.Pinned e := by
  simp only [droppable, Bool.and_eq_true, decide_eq_true_eq, Bool.not_eq_true',
    Bool.and_eq_false_iff, decide_eq_false_iff_not] at h
  obtain ⟨⟨⟨⟨hsettled, hreplacement⟩, hprojection⟩, hrestore⟩, hrevocation⟩ := h
  rintro (h | h | h | h | ⟨r, hr, huncertain, hop, hrepair⟩)
  · rw [h] at hsettled
    cases hsettled
  · exact hrestore h.symm
  · exact hreplacement h.symm
  · exact hprojection h.symm
  · obtain h | h := hrevocation
    · exact h (revocationOp_eq_some.2 ⟨r, hr, huncertain, hop⟩).symm
    · rw [hrepair] at h
      cases h

/-- A receipt that is needed stays, and the id of one that is dropped is retired. -/
theorem prune_split (j : Journal) :
    ∃ dropped : List JournalEntry, j.operations.Perm (dropped ++ j.prune.operations) ∧
      j.prune.operations.Sublist j.operations ∧
      ∀ e ∈ dropped, ¬ j.Pinned e ∧ j.prune.isRetired e.record.op := by
  obtain ⟨dropped, hperm, hsub, hdrop, heq⟩ := j.prune_eq
  refine ⟨dropped, hperm, hsub, fun e he => ⟨not_pinned_of_droppable (hdrop e he), ?_⟩⟩
  have hop : e.record.op ≤ j.prune.expiredThrough := by
    rw [heq]
    exact op_le_expiredThrough_foldl j e dropped he
  simp [isRetired, hop]

/-! ## Ids are known for good -/

/-- An id that is known has a receipt, or is retired. -/
def Known (j : Journal) (op : OperationId) : Prop := j.get op ≠ none ∨ j.isRetired op

theorem get_ne_none {j : Journal} {op : OperationId} :
    j.get op ≠ none ↔ op ∈ j.operations.map (·.record.op) := by
  simp [get, List.find?_eq_none]

/-- A retired id stays so. -/
theorem isRetired_prune {j : Journal} {op : OperationId} (h : j.isRetired op) :
    j.prune.isRetired op := by
  obtain ⟨dropped, -, -, -, heq⟩ := j.prune_eq
  obtain ⟨-, -, -, -, hretired, -⟩ := foldl_expire_frame j dropped
  have hthrough : j.expiredThrough ≤ j.prune.expiredThrough := by
    rw [heq]
    exact expiredThrough_le_foldl j dropped
  have hids : j.prune.retiredIds = j.retiredIds := by
    rw [heq]
    exact hretired
  rw [isRetired, Bool.or_eq_true, decide_eq_true_eq] at h ⊢
  rw [hids]
  exact h.imp_left (·.trans hthrough)

/-- A known id stays so when receipts expire. -/
theorem Known.prune {j : Journal} {op : OperationId} (h : j.Known op) : j.prune.Known op := by
  obtain h | h := h
  · obtain ⟨dropped, hperm, -, hdrop⟩ := j.prune_split
    obtain ⟨e, he, rfl⟩ := List.mem_map.1 (get_ne_none.1 h)
    obtain hmem | hmem := List.mem_append.1 (hperm.mem_iff.1 he)
    · exact .inr (hdrop e hmem).2
    · exact .inl (get_ne_none.2 (List.mem_map.2 ⟨e, hmem, rfl⟩))
  · exact .inr (isRetired_prune h)

/-- The ids after a receipt was taken in. -/
theorem mem_withEntry_op {entries : List JournalEntry} {entry : JournalEntry} {op : OperationId} :
    op ∈ (withEntry entries entry).map (·.record.op) ↔
      op = entry.record.op ∨ op ∈ entries.map (·.record.op) := by
  rw [withEntry]
  split
  next i hi =>
    -- the slot that is replaced holds the same id
    obtain ⟨hlt, hop, -⟩ := List.findIdx?_eq_some_iff_getElem.1 hi
    rw [decide_eq_true_eq] at hop
    have hset : (entries.set i entry).map (·.record.op) = entries.map (·.record.op) := by
      rw [List.map_set, ← hop,
        ← List.getElem_map (fun e : JournalEntry => e.record.op) (h := by simpa using hlt),
        List.set_getElem_self]
    rw [hset]
    constructor
    · exact .inr
    · rintro (rfl | h)
      · exact List.mem_map.2 ⟨entries[i], List.getElem_mem hlt, hop⟩
      · exact h
  next =>
    rw [List.map_append, List.mem_append, List.map_singleton, List.mem_singleton]
    exact or_comm

/-- Taking in a receipt makes its id known, and forgets none. -/
theorem Known.upsert {j : Journal} {op : OperationId} (entry : JournalEntry)
    (h : op = entry.record.op ∨ j.Known op) : (j.upsert entry).Known op := by
  refine Known.prune ?_
  obtain h | h | h := h
  · exact .inl (get_ne_none.2 (mem_withEntry_op.2 (.inl h)))
  · exact .inl (get_ne_none.2 (mem_withEntry_op.2 (.inr (get_ne_none.1 h))))
  · exact .inr h

/-- Legacy ids are all below the largest of them. -/
theorem Known.migrate {j : Journal} {op : OperationId} (h : j.Known op) : j.migrate.Known op := by
  refine Known.prune ?_
  obtain h | h := h
  · exact .inl (get_ne_none.2 (get_ne_none.1 h))
  · refine .inr ?_
    rw [isRetired, Bool.or_eq_true, decide_eq_true_eq] at h
    rw [isRetired, Bool.or_eq_true, decide_eq_true_eq]
    refine .inl ?_
    obtain h | h := h
    · exact h.trans (le_max_right _ _)
    · rw [List.contains_iff_mem] at h
      refine le_trans ?_ (le_max_left _ _)
      obtain ⟨m, hm⟩ := Option.isSome_iff_exists.1 (List.isSome_max?_of_mem h)
      rw [hm, Option.getD_some]
      exact (List.max?_eq_some_iff.1 hm).2 op h

/-- A step of the journal. Besides these operations, receipts settle, are superseded, are
    pinned and unpinned; none of this adds or removes one. -/
inductive Step : Journal → Journal → Prop
  | upsert (j : Journal) (entry : JournalEntry) : Step j (j.upsert entry)
  | prune (j : Journal) : Step j j.prune
  | migrate (j : Journal) : Step j j.migrate
  | adjust (j j' : Journal)
      (hops : j'.operations.map (·.record.op) = j.operations.map (·.record.op))
      (hthrough : j'.expiredThrough = j.expiredThrough) (hretired : j'.retiredIds = j.retiredIds) :
        Step j j'

/-- No step forgets an id. -/
theorem Known.step {j j' : Journal} {op : OperationId} (h : Step j j') (hknown : j.Known op) :
    j'.Known op := by
  cases h with
  | upsert entry => exact .upsert entry (.inr hknown)
  | prune => exact hknown.prune
  | migrate => exact hknown.migrate
  | adjust _ hops hthrough hretired =>
    rw [Known, get_ne_none, hops, isRetired, hthrough, hretired, ← get_ne_none]
    exact hknown

end Journal

/-! ## Submissions -/

/-- Why a submission is refused. -/
inductive SubmitError
  | conflict (field : Str)
  | idReused
  | expired
  | busy
  | unavailable
  | rejected (reason : Str)
  deriving DecidableEq

/-- The answer to a submission that is not executed because of its id. It precedes all other
    checks, so that a receipt that was lost can be asked for with its original base. -/
def dedupe (fault : Bool) (j : Journal) (op : OperationId) (base : ℕ) (edit : ConfigEdit)
    (intent : CommandIntent) : Option (Except SubmitError OperationId) :=
  if fault then some (.error .unavailable)
  else match j.get op with
    | some previous =>
      -- no secret is durable, so that the payload cannot be compared
      if intent matches .setSuperkey _ then some (.error .idReused)
      else if previous.base = base && previous.edit == edit &&
        previous.command.getD .edit = intent then
        some (.ok op)
      else some (.error .idReused)
    | none =>
      if j.isRetired op then some (.error .expired)
      else if op = 0 ∨ j.issuedThrough < op then
        some (.error (.rejected "operation identity was not allocated by core".toList))
      else none

/-- A known id is answered as a duplicate. -/
theorem dedupe_of_known {j : Journal} {op : OperationId} (h : j.Known op) (fault : Bool) (base : ℕ)
    (edit : ConfigEdit) (intent : CommandIntent) :
    ∃ answer, dedupe fault j op base edit intent = some answer ∧
      (fault = false → answer = .ok op ∨ answer = .error .idReused ∨ answer = .error .expired) := by
  cases fault with
  | true => exact ⟨_, rfl, by simp⟩
  | false =>
    simp only [dedupe, Bool.false_eq_true, if_false]
    cases hget : j.get op with
    | some previous =>
      dsimp only
      split_ifs
      · exact ⟨_, rfl, fun _ => .inr (.inl rfl)⟩
      · exact ⟨_, rfl, fun _ => .inl rfl⟩
      · exact ⟨_, rfl, fun _ => .inr (.inl rfl)⟩
    | none =>
      have hretired : j.isRetired op := h.resolve_left (· hget)
      simp only [hretired, if_true]
      exact ⟨_, rfl, fun _ => .inr (.inr rfl)⟩

/-- A run of the journal, with the ids that are executed, in order. -/
inductive Journal.Run (j : Journal) : List OperationId → Journal → Prop
  | start : Journal.Run j [] j
  | step {ops : List OperationId} {j' j'' : Journal} (hrun : Journal.Run j ops j')
      (h : Journal.Step j' j'') :
      Journal.Run j ops j''
  | execute {ops : List OperationId} {j' : Journal} (hrun : Journal.Run j ops j') (base : ℕ)
      (intent : CommandIntent)
      (entry : JournalEntry) (h : dedupe false j' entry.record.op base entry.edit intent = none) :
      Journal.Run j (ops ++ [entry.record.op]) (j'.upsert entry)

/-- No run forgets an id. -/
theorem Journal.Run.known {j j' : Journal} {ops : List OperationId} (hrun : Journal.Run j ops j')
    {op : OperationId} (h : j.Known op ∨ op ∈ ops) : j'.Known op := by
  induction hrun with
  | start => exact h.resolve_right List.not_mem_nil
  | step _ hstep ih => exact (ih h).step hstep
  | execute _ base intent entry hdedupe ih =>
    refine .upsert entry ?_
    obtain h | h := h
    · exact .inr (ih (.inl h))
    · obtain h | h := List.mem_append.1 h
      · exact .inr (ih (.inr h))
      · exact .inl (List.mem_singleton.1 h)

/-- What was executed is known, so that it is not executed again. -/
theorem Journal.Run.nodup {j j' : Journal} {ops : List OperationId} (hrun : Journal.Run j ops j') :
    ops.Nodup := by
  induction hrun with
  | start => exact List.nodup_nil
  | step _ _ ih => exact ih
  | execute hrun base intent entry hdedupe ih =>
    refine List.nodup_append.2 ⟨ih, by simp, ?_⟩
    intro op hop op' hop' heq
    obtain rfl := List.mem_singleton.1 hop'
    obtain ⟨answer, hanswer, -⟩ :=
      dedupe_of_known (hrun.known (.inr hop)) false base entry.edit intent
    rw [heq, hdedupe] at hanswer
    cases hanswer

/-- Retention forgets nothing that matters: it keeps the resources that are held, drops no
    receipt that is needed and retires the ids of those that it drops. So an id that is recorded
    is known for good, no run executes an id twice, and a submission of a known id is answered
    from the journal. -/
theorem retention_safe (j : Journal) :
    (∀ p, p ∈ j.prune.heldResources ↔ p ∈ j.heldResources) ∧
    (∃ dropped : List JournalEntry, j.operations.Perm (dropped ++ j.prune.operations) ∧
      j.prune.operations.Sublist j.operations ∧
      ∀ e ∈ dropped, ¬ j.Pinned e ∧ j.prune.isRetired e.record.op) ∧
    (∀ entry, (j.upsert entry).Known entry.record.op) ∧
    ∀ ops j', j.Run ops j' → ops.Nodup ∧ ∀ op, (j.Known op ∨ op ∈ ops) → j'.Known op ∧
      ∀ fault base edit intent, ∃ answer, dedupe fault j' op base edit intent = some answer ∧
        (fault = false → answer = .ok op ∨ answer = .error .idReused ∨
          answer = .error .expired) := by
  refine ⟨j.mem_heldResources_prune, j.prune_split, fun entry => .upsert entry (.inl rfl), ?_⟩
  -- Over a run, what has been recorded or retired stays known, and is answered from the journal.
  intro ops j' hrun
  refine ⟨hrun.nodup, fun op hop => ?_⟩
  have hknown := hrun.known hop
  exact ⟨hknown, fun fault base edit intent => dedupe_of_known hknown fault base edit intent⟩

end VpnHide.Daemon

import VpnHide.Lib.Crash
import VpnHide.Staging.Progress

/-!
# Dispatching the manager

`dispatch` stages the managed module (`PreparedProjection::dispatch` in
`maintenance/zygisk_projection/work.rs`). It records the work three times, before and after the
manager is dispatched; recording it writes the journal, which may fail before or after the
file is renamed, and the process may crash at every point. `World.step` is a dispatch, another
record, or a part of a restart.

`staging_once` says that a manager is dispatched at most once for each operation, and what the
journal says of it then and later.
-/

namespace VpnHide.Staging

open Lib Daemon

variable {E G : Type}

/-! ## The device -/

/-- The answers of the environment. -/
inductive Answer (G : Type)
  | renamed (ok : Bool)
  | synced (ok : Bool)
  /-- The sources, the manager and the output are what they were. -/
  | fresh (ok : Bool)
  /-- The manager returned, in time, with status zero and its output complete. -/
  | managed (ok : Bool)
  /-- What is staged, if it is what was asked for, and the manager is unchanged. -/
  | verified (found : Option G)

/-- What happens, as it is logged. -/
inductive Event (E G : Type)
  /-- The journal is on disk. -/
  | renamed (j : Journal E G)
  /-- Writing it succeeded. -/
  | written (j : Journal E G)
  /-- The manager is dispatched. -/
  | staged (operation : OperationId)

/-- The journal in memory and on disk, and what was done, in order. A file that is missing
    reads as the empty journal. -/
structure World (E G : Type) where
  memory : Journal E G
  disk : Journal E G
  log : List (Event E G)

/-- The code, as a program that asks its environment. -/
abbrev Io (E G : Type) := Prog (Answer G) (World E G)

/-- What happens is noted. -/
def note (event : Event E G) : Io E G Unit := .modify fun s => { s with log := s.log ++ [event] }

/-- The journal in memory is changed. -/
def setMemory (j : Journal E G) : Io E G Unit := .modify fun s => { s with memory := j }

/-- Once the file is renamed, the journal is on disk. -/
def rename : Io E G Unit :=
  .modify fun s => { s with disk := s.memory, log := s.log ++ [.renamed s.memory] }

/-- The write is good. -/
def confirmWrite : Io E G Unit := .modify fun s => { s with log := s.log ++ [.written s.memory] }

/-- `write_atomic`, and whether it succeeded. -/
def write : Io E G Bool := do
  let renamed ← .ask fun | .renamed ok => some ok | _ => none
  if renamed then do
    rename
    let synced ← .ask fun | .synced ok => some ok | _ => none
    if synced then do
      confirmWrite
      pure true
    else pure false
  else pure false

/-- `require_fresh`. -/
def requireFresh : Io E G Bool := .ask fun | .fresh ok => some ok | _ => none

/-! ## The dispatch -/

/-- The evidence that a dispatch was prepared with. -/
structure PreparedProjection (E : Type) where
  evidence : E
  bootId : Str

/-- `Manager::stage` and the readback of what it did. -/
def stage (work : ProjectionWork E G) : Io E G (ProjectionWork E G) := do
  note (.staged work.operation)
  let managed ← .ask fun | .managed ok => some ok | _ => none
  if managed then do
    let verified ← .ask fun | .verified found => some found | _ => none
    match verified with
    | some staging => pure { work with staging := some staging, outcome := .confirmed }
    | none => pure { work with outcome := .unknown, failure := some .readbackUnknown }
  else pure { work with outcome := .unknown, failure := some .managerOutcomeUnknown }

/-- The sources changed before the manager was started. -/
def sourcesChanged (work : ProjectionWork E G) : ProjectionWork E G :=
  { work with outcome := .failedKnown, failure := some .sourcesChangedBeforeSpawn }

/-- What the writer does once the intent is on disk. -/
def stageIfFresh (work : ProjectionWork E G) (fresh : Bool) : Io E G (ProjectionWork E G) :=
  if fresh then stage work else pure (sourcesChanged work)

variable [DecidableEq E] [DecidableEq G] (c : Checks E G)

/-- The callback: `record_projection`, which changes the journal in place, and a durable write. -/
def persist (base : ℕ) (work : ProjectionWork E G) : Io E G Bool := do
  let s ← .get
  match s.memory.recordProjection c base work with
  | .error _ => pure false
  | .ok j => do
    setMemory j
    write

/-- The last record of a dispatch, and its result. -/
def finish (base : ℕ) (work : ProjectionWork E G) : Io E G (Option (ProjectionWork E G)) := do
  let ok ← persist c base work
  pure (if ok then some work else none)

/-- The dispatch once its first record is on disk. -/
def dispatchRecorded (base : ℕ) (work : ProjectionWork E G) :
    Io E G (Option (ProjectionWork E G)) := do
  let fresh ← requireFresh
  if fresh then do
    let ok ← persist c base { work with dispatchIntent := true }
    if ok then do
      let fresh ← requireFresh
      let work ← stageIfFresh { work with dispatchIntent := true } fresh
      finish c base work
    else pure none
  else finish c base (sourcesChanged work)

/-- The work can be dispatched: it is the initial one of what was prepared. -/
def dispatchable (prepared : PreparedProjection E) (work : ProjectionWork E G) : Bool :=
  work.valid c work.operation && !work.dispatchIntent && work.outcome = .running &&
    work.evidence = prepared.evidence && work.bootId = prepared.bootId

/-- The work as it ended, or nothing after an error. -/
def dispatch (base : ℕ) (prepared : PreparedProjection E) (work : ProjectionWork E G) :
    Io E G (Option (ProjectionWork E G)) :=
  if dispatchable c prepared work then do
    let fresh ← requireFresh
    if fresh then do
      let ok ← persist c base work
      if ok then dispatchRecorded c base work else pure none
    else pure none
  else pure none

/-! ## Runs -/

/-- What the writer may do next. The answers that it gets are on a tape, and it crashes where
    the tape ends. -/
inductive Op (E G : Type)
  | record (base : ℕ) (work : ProjectionWork E G)
  | write (tape : List (Answer G))
  | prune
  | dispatch (base : ℕ) (prepared : PreparedProjection E) (work : ProjectionWork E G)
      (tape : List (Answer G))
  | read
  | fence
  | reconcile

variable (others : Journal E G → Bool)

namespace World

/-- The journal in memory is another one. -/
def setMemory (s : World E G) (j : Journal E G) : World E G := { s with memory := j }

/-- One step. -/
def step (s : World E G) : Op E G → World E G
  | .record base work =>
    match s.memory.recordProjection c base work with
    | .error _ => s
    | .ok j => s.setMemory j
  | .write tape => (write tape s).state
  | .prune => s.setMemory s.memory.prune
  | .dispatch base prepared work tape => (dispatch c base prepared work tape s).state
  | .read =>
    match s.disk.read c others with
    | none => s
    | some j => s.setMemory j
  | .fence => s.setMemory s.memory.fenceUnresolved
  | .reconcile => s.setMemory s.memory.reconcileUnfinished

-- The equations of the two operations that may fail; those Lean generates take long here.
theorem step_record (s : World E G) (base : ℕ) (work : ProjectionWork E G) :
    s.step c others (.record base work) =
    match s.memory.recordProjection c base work with
    | .error _ => s
    | .ok j => s.setMemory j := (rfl)

theorem step_read (s : World E G) : s.step c others .read =
    match s.disk.read c others with
    | none => s
    | some j => s.setMemory j := (rfl)

/-- Several steps. -/
def run (s : World E G) (ops : List (Op E G)) : World E G := ops.foldl (step c others) s

/-- A device whose journal was read. -/
def start (j : Journal E G) : World E G := ⟨j, j, []⟩

end World

/-! ## What a log shows -/

section Log

omit [DecidableEq E] [DecidableEq G]

/-- The operations that a manager was dispatched for. -/
def stagings (log : List (Event E G)) : List OperationId :=
  log.filterMap fun | .staged operation => some operation | _ => none

/-- The journals that were on disk. -/
def renames (log : List (Event E G)) : List (Journal E G) :=
  log.filterMap fun | .renamed j => some j | _ => none

/-- The journal on disk has the intent to dispatch the operation. -/
def Journal.Intends (j : Journal E G) (operation : OperationId) : Prop :=
  ∃ w, j.zygiskProjection = some w ∧ w.operation = operation ∧ w.dispatchIntent = true

/-- Before a manager is dispatched, a journal with the intent to do so is on disk. -/
def Durable (log : List (Event E G)) : Prop :=
  ∀ before operation after, log = before ++ .staged operation :: after →
    ∃ earlier j, before = earlier ++ [.renamed j, .written j] ∧ j.Intends operation

/-- The operation was dispatched, or may have been. -/
def Journal.Spent (j : Journal E G) (operation : OperationId) : Prop :=
  j.base.Known operation ∧ ∀ w, j.zygiskProjection = some w → w.operation = operation →
    w.dispatchIntent = true

/-- What is spent stays spent when the journal advances. -/
theorem Journal.Advances.spent {j j' : Journal E G} {operation : OperationId} (h : j.Advances j')
    (hspent : j.Spent operation) : j'.Spent operation := by
  refine ⟨h.known _ hspent.1, fun w' hw' hop => ?_⟩
  obtain ⟨w, hw, hcontinues⟩ | hnew := h.work w' hw'
  · exact hcontinues.intent (hspent.2 w hw (hcontinues.operation.symm.trans hop))
  · exact absurd (hop ▸ hspent.1) hnew

/-- The last event of a log that is longer by one. -/
theorem staged_split {log before after : List (Event E G)} {event : Event E G}
    {operation : OperationId} (h : log ++ [event] = before ++ .staged operation :: after) :
    (event = .staged operation ∧ before = log) ∨ ∃ after', log = before ++ .staged operation ::
      after' := by
  obtain rfl | ⟨after', last, rfl⟩ := List.eq_nil_or_concat after
  · obtain ⟨hlog, hevent⟩ := List.append_inj' h rfl
    exact .inl ⟨List.singleton_injective hevent, hlog.symm⟩
  · rw [List.concat_eq_append, ← List.cons_append, ← List.append_assoc] at h
    exact .inr ⟨after', (List.append_inj' h rfl).1⟩

/-- A staging that comes right after its intent was written keeps the log durable. -/
theorem Durable.append {log : List (Event E G)} {event : Event E G} (h : Durable log)
    (hevent : ∀ operation, event = .staged operation →
      ∃ earlier j, log = earlier ++ [.renamed j, .written j] ∧ j.Intends operation) :
    Durable (log ++ [event]) := by
  intro before operation after hlog
  obtain ⟨hlast, rfl⟩ | ⟨after', hbefore⟩ := staged_split hlog
  · exact hevent operation hlast
  · exact h before operation after' hbefore

end Log

/-! ## What every run keeps -/

section Invariant

omit [DecidableEq E] [DecidableEq G]

variable {c}

/-- What holds of a device that started with the journal `first`, and whose journal in memory
    comes from `anchor`. -/
structure World.Good (c : Checks E G) (first anchor : Journal E G) (s : World E G) : Prop where
  disk : s.disk.Sound c
  memory : s.memory.Sound c
  /-- What is in memory comes from what is on disk. -/
  ahead : s.disk.Advances s.memory
  since : anchor.Advances s.memory
  spent : ∀ operation ∈ stagings s.log, s.disk.Spent operation
  once : (stagings s.log).Nodup
  durable : Durable s.log
  history : (first :: renames s.log).Pairwise Journal.Advances
  latest : ∀ j ∈ first :: renames s.log, j.Advances s.disk
  sound : ∀ j ∈ first :: renames s.log, j.Sound c
  last : (first :: renames s.log).getLast? = some s.disk

namespace World.Good

variable {first anchor j : Journal E G} {s : World E G}

/-- A world that starts from a sound journal is good. -/
theorem start (h : first.Sound c) : (World.start first).Good c first first where
  disk := h
  memory := h
  ahead := .refl first
  since := .refl first
  spent _ hop := absurd hop List.not_mem_nil
  once := .nil
  durable before operation after hlog := by
    simp [World.start] at hlog
  history := List.pairwise_singleton _ _
  latest j hj := by
    rw [List.mem_singleton.1 hj]
    exact .refl first
  sound j hj := by
    rw [List.mem_singleton.1 hj]
    exact h
  last := rfl

/-- The journal in memory goes on. -/
theorem advance (h : s.Good c first anchor) (hsound : j.Sound c) (hadvances : s.memory.Advances j) :
    ({ s with memory := j } : World E G).Good c first anchor :=
  { h with
    memory := hsound
    ahead := h.ahead.trans hadvances
    since := h.since.trans hadvances }

/-- Renaming the journal into place keeps the world good. -/
theorem renamed (h : s.Good c first anchor) :
    ({ s with disk := s.memory, log := s.log ++ [.renamed s.memory] } : World E G).Good
      c first anchor := by
  have hstagings : stagings (s.log ++ [.renamed s.memory]) = stagings s.log := by simp [stagings]
  have hrenames :
      first :: renames (s.log ++ [.renamed s.memory]) = (first :: renames s.log) ++ [s.memory] := by
    simp [renames]
  have hlatest : ∀ j ∈ first :: renames s.log, j.Advances s.memory :=
    fun j hj => (h.latest j hj).trans h.ahead
  refine ⟨h.memory, h.memory, .refl _, h.since, ?_, ?_,
    h.durable.append (fun _ hevent => by cases hevent), ?_, ?_, ?_, ?_⟩
  · rw [hstagings]
    exact fun operation hop => h.ahead.spent (h.spent operation hop)
  · rw [hstagings]
    exact h.once
  · rw [hrenames, List.pairwise_append]
    refine ⟨h.history, List.pairwise_singleton _ _, fun j hj j' hj' => ?_⟩
    rw [List.mem_singleton.1 hj']
    exact hlatest j hj
  · rw [hrenames]
    intro j hj
    obtain hj | hj := List.mem_append.1 hj
    · exact hlatest j hj
    · rw [List.mem_singleton.1 hj]
      exact .refl _
  · rw [hrenames]
    intro j hj
    obtain hj | hj := List.mem_append.1 hj
    · exact h.sound j hj
    · rw [List.mem_singleton.1 hj]
      exact h.memory
  · rw [hrenames, List.getLast?_append]
    rfl

/-- So does reporting the write. -/
theorem written (h : s.Good c first anchor) :
    ({ s with log := s.log ++ [.written s.memory] } : World E G).Good c first anchor := by
  have hstagings : stagings (s.log ++ [.written s.memory]) = stagings s.log := by simp [stagings]
  have hrenames : renames (s.log ++ [.written s.memory]) = renames s.log := by simp [renames]
  exact
    { h with
      spent := hstagings ▸ h.spent
      once := hstagings ▸ h.once
      durable := h.durable.append fun _ hevent => by cases hevent
      history := hrenames ▸ h.history
      latest := hrenames ▸ h.latest
      sound := hrenames ▸ h.sound
      last := hrenames ▸ h.last }

/-- The manager is dispatched once the intent is on disk. -/
theorem staged (h : s.Good c first anchor) {operation : OperationId} {earlier : List (Event E G)}
    (hlog : s.log = earlier ++ [.renamed s.disk, .written s.disk])
    (hintends : s.disk.Intends operation)
    (hnew : operation ∉ stagings s.log) :
    ({ s with log := s.log ++ [.staged operation] } : World E G).Good c first anchor := by
  have hstagings : stagings (s.log ++ [.staged operation]) = stagings s.log ++ [operation] := by
    simp [stagings]
  have hrenames : renames (s.log ++ [.staged operation]) = renames s.log := by simp [renames]
  refine { h with
    spent := ?_
    once := ?_
    durable := h.durable.append fun op hevent => ?_
    history := hrenames ▸ h.history
    latest := hrenames ▸ h.latest
    sound := hrenames ▸ h.sound
    last := hrenames ▸ h.last }
  · change ∀ op ∈ stagings (s.log ++ [.staged operation]), s.disk.Spent op
    rw [hstagings]
    intro op hop
    obtain hop | hop := List.mem_append.1 hop
    · exact h.spent op hop
    · obtain ⟨w, hw, hwop, hintent⟩ := hintends
      rw [List.mem_singleton.1 hop, ← hwop]
      refine ⟨h.disk.known hw, fun w' hw' _ => ?_⟩
      rw [← Option.some.inj (hw.symm.trans hw')]
      exact hintent
  · change (stagings (s.log ++ [.staged operation])).Nodup
    rw [hstagings, List.nodup_append]
    refine ⟨h.once, by simp, fun op hop op' hop' heq => hnew ?_⟩
    rw [← List.mem_singleton.1 hop', ← heq]
    exact hop
  · obtain rfl : operation = op := by
      cases hevent
      rfl
    exact ⟨earlier, s.disk, hlog, hintends⟩

end World.Good

end Invariant

/-! ## What the programs keep -/

section Programs

variable {c} {others} {first anchor : Journal E G} {s : World E G} {base : ℕ}
  {work : ProjectionWork E G}

omit [DecidableEq E] [DecidableEq G] in

/-- A write keeps the world good at each crash point, and the file holds the journal if it
    succeeds. -/
theorem write_safe (h : s.Good c first anchor) :
    Prog.Safe write (fun ok s' => s'.Good c first anchor ∧ stagings s'.log = stagings s.log ∧
      s'.memory = s.memory ∧
      (ok = true → s'.disk = s.memory ∧
        ∃ earlier, s'.log = earlier ++ [.renamed s'.disk, .written s'.disk]))
      (World.Good c first anchor) s := by
  refine Prog.Safe.ask_bind h fun _ renamed _ => ?_
  cases renamed with
  | false =>
    rw [if_neg (by decide)]
    exact .pure ⟨h, rfl, rfl, fun hok => by cases hok⟩
  | true =>
    rw [if_pos rfl]
    refine .modify_bind (.ask_bind h.renamed fun _ synced _ => ?_)
    cases synced with
    | false =>
      rw [if_neg (by decide)]
      exact .pure ⟨h.renamed, by simp [stagings], rfl, fun hok => by cases hok⟩
    | true =>
      rw [if_pos rfl]
      refine .modify_bind
        (.pure ⟨h.renamed.written, by simp [stagings], rfl, fun _ => ⟨rfl, s.log, ?_⟩⟩)
      simp

/-- What a successful record has done. -/
structure Recorded (s s' : World E G) (work : ProjectionWork E G) : Prop where
  stagings : stagings s'.log = stagings s.log
  projection : s'.disk.zygiskProjection = some work
  log : ∃ earlier, s'.log = earlier ++ [.renamed s'.disk, .written s'.disk]

/-- A persist does too, and the work is recorded if it succeeds. -/
theorem persist_safe (h : s.Good c first anchor) :
    Prog.Safe (persist c base work) (fun ok s' => s'.Good c first anchor ∧
      (ok = true → Recorded s s' work))
      (World.Good c first anchor) s := by
  refine Prog.Safe.get_bind ?_
  cases hrecord : s.memory.recordProjection c base work with
  | error _ => exact .pure ⟨h, fun hok => by cases hok⟩
  | ok j =>
    obtain ⟨hadvances, hwork⟩ := Journal.Advances.record h.memory hrecord
    refine .modify_bind ?_
    refine (write_safe (h.advance (h.memory.record hrecord) hadvances)).mono ?_ fun _ => id
    rintro ok s' ⟨hgood, hstagings, -, hok⟩
    refine ⟨hgood, fun htrue => ?_⟩
    obtain ⟨hdisk, hlog⟩ := hok htrue
    refine ⟨hstagings, ?_, hlog⟩
    rw [hdisk]
    exact hwork

/-- Whatever becomes of the last persist, the world stays good. -/
theorem finish_safe (h : s.Good c first anchor) :
    Prog.Safe (finish c base work) (fun _ s' => s'.Good c first anchor)
      (World.Good c first anchor) s :=
  (persist_safe h).seq (fun _ => id) fun _ _ hs' => .pure hs'.1

omit [DecidableEq E] [DecidableEq G] in

/-- So it does whether or not the work is staged. -/
theorem stage_safe (h : (s.Good c first anchor))
    (hstaged : ({ s with log := s.log ++ [.staged work.operation] } : World E G).Good c
      first anchor) (fresh : Bool) :
    Prog.Safe (stageIfFresh work fresh) (fun _ s' => s'.Good c first anchor)
      (World.Good c first anchor) s := by
  cases fresh with
  | false =>
    rw [stageIfFresh, if_neg (by decide)]
    exact .pure h
  | true =>
    rw [stageIfFresh, if_pos rfl]
    refine .modify_bind (.ask_bind hstaged fun _ managed _ => ?_)
    cases managed with
    | false =>
      rw [if_neg (by decide)]
      exact .pure hstaged
    | true =>
      rw [if_pos rfl]
      refine .ask_bind hstaged fun _ verified _ => ?_
      cases verified with
      | none => exact .pure hstaged
      | some staging => exact .pure hstaged

/-- After its first record, an operation is not one that a manager was dispatched for. -/
theorem dispatchRecorded_safe (h : s.Good c first anchor)
    (hwork : s.disk.zygiskProjection = some work) (hintent : work.dispatchIntent = false) :
    Prog.Safe (dispatchRecorded c base work) (fun _ s' => s'.Good c first anchor)
      (World.Good c first anchor) s := by
  have hnew : work.operation ∉ stagings s.log := by
    intro hop
    have hspent := (h.spent _ hop).2 work hwork rfl
    rw [hintent] at hspent
    cases hspent
  refine Prog.Safe.ask_bind h fun _ fresh _ => ?_
  cases fresh with
  | false =>
    rw [if_neg (by decide)]
    exact finish_safe h
  | true =>
    rw [if_pos rfl]
    refine (persist_safe h).seq (fun _ => id) fun ok s' ⟨hgood, hok⟩ => ?_
    cases ok with
    | false =>
      rw [if_neg (by decide)]
      exact .pure hgood
    | true =>
      rw [if_pos rfl]
      obtain ⟨hstagings, hprojection, earlier, hlog⟩ := hok rfl
      have hstaged := hgood.staged hlog ⟨_, hprojection, rfl, rfl⟩ (hstagings ▸ hnew)
      refine .ask_bind hgood fun _ fresh _ => ?_
      exact (stage_safe hgood hstaged fresh).seq (fun _ => id) fun _ _ => finish_safe

/-- At each crash point of a dispatch the world is good. -/
theorem dispatch_safe (h : s.Good c first anchor) (base : ℕ) (prepared : PreparedProjection E)
    (work : ProjectionWork E G) :
    Prog.Safe (dispatch c base prepared work) (fun _ s' => s'.Good c first anchor)
      (World.Good c first anchor) s := by
  rw [dispatch]
  split_ifs with hdispatchable
  · simp only [dispatchable, Bool.and_eq_true, Bool.not_eq_true'] at hdispatchable
    obtain ⟨⟨⟨⟨-, hintent⟩, -⟩, -⟩, -⟩ := hdispatchable
    refine .ask_bind h fun _ fresh _ => ?_
    cases fresh with
    | false =>
      rw [if_neg (by decide)]
      exact .pure h
    | true =>
      rw [if_pos rfl]
      refine (persist_safe h).seq (fun _ => id) fun ok s' ⟨hgood, hok⟩ => ?_
      cases ok with
      | false =>
        rw [if_neg (by decide)]
        exact .pure hgood
      | true =>
        rw [if_pos rfl]
        exact dispatchRecorded_safe hgood (hok rfl).projection hintent
  · exact .pure h

end Programs

/-! ## Runs are sound -/

section Runs

variable {c} {others} {first anchor : Journal E G} {s : World E G}

omit [DecidableEq E] [DecidableEq G] in
/-- What holds at the end of a run and at every crash. -/
theorem state_of_safe {α : Type} {m : Io E G α} {P : World E G → Prop}
    (h : Prog.Safe m (fun _ => P) P s) (tape : List (Answer G)) : P (m tape s).state := by
  obtain ⟨a, tape', s', heq, hs'⟩ | ⟨s', heq, hs'⟩ := h.run tape
  · rw [heq]
    exact hs'
  · rw [heq]
    exact hs'

namespace World.Good

omit [DecidableEq E] [DecidableEq G] in

/-- A good world can be judged from the journal in memory. -/
theorem anchored (h : s.Good c first anchor) : s.Good c first s.memory :=
  { h with since := .refl _ }

/-- An operation other than reading the journal. -/
theorem step (h : s.Good c first anchor) {op : Op E G} (hop : op ≠ .read) :
    (s.step c others op).Good c first anchor := by
  cases op with
  | record base work =>
    rw [World.step_record]
    cases hrecord : s.memory.recordProjection c base work with
    | error _ => exact h
    | ok j => exact h.advance (h.memory.record hrecord) (Journal.Advances.record h.memory hrecord).1
  | write tape => exact state_of_safe ((write_safe h).mono (fun _ _ hs' => hs'.1) fun _ => id) tape
  | prune => exact h.advance h.memory.prune (.prune _)
  | dispatch base prepared work tape =>
    exact state_of_safe (dispatch_safe h base prepared work) tape
  | read => exact absurd rfl hop
  | fence => exact h.advance h.memory.fence (.fence _)
  | reconcile => exact h.advance h.memory.reconcile (.reconcile _)

/-- Reading the journal back keeps the world good, from a later journal on. -/
theorem read (h : s.Good c first anchor) :
    ∃ anchor', (s.step c others .read).Good c first anchor' := by
  rw [World.step_read]
  cases hread : s.disk.read c others with
  | none => exact ⟨anchor, h⟩
  | some j =>
    have hadvances := Journal.Advances.read hread
    exact ⟨j, { h with memory := h.disk.read hread, ahead := hadvances, since := .refl j }⟩

/-- A run keeps the world good. -/
theorem run (h : s.Good c first anchor) (ops : List (Op E G)) :
    ∃ anchor', (s.run c others ops).Good c first anchor' := by
  induction ops generalizing s anchor with
  | nil => exact ⟨anchor, h⟩
  | cons op ops ih =>
    by_cases hop : op = .read
    · subst hop
      obtain ⟨anchor', hread⟩ : ∃ anchor', (s.step c others .read).Good c first anchor' := h.read
      exact ih hread
    · exact ih (h.step hop)

/-- As long as the journal is not read again, what is in memory goes on. -/
theorem run_unread (h : s.Good c first anchor) {ops : List (Op E G)}
    (hops : ∀ op ∈ ops, op ≠ .read) :
    (s.run c others ops).Good c first anchor := by
  induction ops generalizing s with
  | nil => exact h
  | cons op ops ih =>
    rw [List.forall_mem_cons] at hops
    exact ih (h.step hops.1) hops.2

end World.Good

end Runs

/-! ## Staging is done once -/

namespace Journal

/-- What two states of the journal agree on, the second of which is the later one. -/
structure Agrees (j j' : Journal E G) : Prop where
  /-- The intent to dispatch is not taken back. -/
  intent : ∀ w w', j.zygiskProjection = some w → j'.zygiskProjection = some w' →
    w'.operation = w.operation → w.dispatchIntent = true → w'.dispatchIntent = true
  /-- A work that has ended stays as it is. -/
  terminal : ∀ w w', j.zygiskProjection = some w → j'.zygiskProjection = some w' →
    w'.operation = w.operation → w.outcome ≠ .running → w' = w
  /-- So does its receipt, as long as it is kept. -/
  receipt : ∀ e ∈ j.base.operations, ∀ e' ∈ j'.base.operations, e'.record.op = e.record.op →
    Final e → e'.record = e.record
  /-- The choice of a backend changes only with the work that is confirmed, by one revision. -/
  choice : j'.backendChoice = j.backendChoice ∨
    ∃ w', j'.zygiskProjection = some w' ∧ w'.outcome = .confirmed ∧ j.zygiskProjection ≠ some w' ∧
      j.choiceRevision = w'.request.expectedRevision ∧
      j'.backendChoice = some ⟨w'.request.expectedRevision + 1, w'.request, w'.operation, w'.bootId⟩

omit [DecidableEq E] [DecidableEq G] in

/-- A journal that advances agrees with the one it came from. -/
theorem Advances.agrees {c : Checks E G} {j j' : Journal E G} (h : j.Advances j') (hj : j.Sound c) :
    j.Agrees j' := by
  have hcontinues : ∀ w w', j.zygiskProjection = some w → j'.zygiskProjection = some w' →
      w'.operation = w.operation → w.Continues w' := by
    intro w w' hw hw' hop
    obtain ⟨d, hd, hcontinues⟩ | hnew := h.work w' hw'
    · rw [← Option.some.inj (hd.symm.trans hw)]
      exact hcontinues
    · exact absurd (hop ▸ hj.known hw) hnew
  refine ⟨fun w w' hw hw' hop => (hcontinues w w' hw hw' hop).intent,
    fun w w' hw hw' hop => (hcontinues w w' hw hw' hop).terminal,
    fun e he e' he' hop hfinal => ?_, ?_⟩
  · obtain ⟨d, hd, hfollows⟩ | hnew := h.receipts e' he'
    · have hget := Daemon.Journal.get_eq_some hj.nodup hd
      rw [← hfollows.op, hop, Daemon.Journal.get_eq_some hj.nodup he] at hget
      obtain rfl := Option.some.inj hget
      exact (hfollows.final hfinal).1
    · refine absurd (.inl ?_) hnew
      rw [hop]
      exact Daemon.Journal.get_ne_none.2 (List.mem_map.2 ⟨e, he, rfl⟩)
  · obtain hsame | ⟨w', hw', hconfirmed, hne, hrevision, hchoice⟩ := h.choice
    · exact .inl hsame
    · exact .inr ⟨w', hw', hconfirmed, hne, hrevision, hrevision ▸ hchoice⟩

end Journal

/-- The parts of a restart after the journal is read, in either order. -/
def settling : List (List (Op E G)) := [[.fence, .reconcile], [.reconcile, .fence]]

/-- A work that was dispatched, and is not known to have ended. -/
def ProjectionWork.interrupted (w : ProjectionWork E G) : ProjectionWork E G :=
  { w with outcome := .unknown, failure := some .managerOutcomeUnknown }

omit [DecidableEq E] [DecidableEq G] in

/-- Reading the journal back leaves its projection as it is. -/
theorem read_projection {c : Checks E G} {others : Journal E G → Bool} {j j' : Journal E G}
    (h : j.read c others = some j') : j'.zygiskProjection = j.zygiskProjection := by
  rw [Journal.read_eq_some h]

/-- A restart or a fence interrupts work that had dispatched its intent. -/
theorem settle_projection {c : Checks E G} {others : Journal E G → Bool} {s : World E G}
    {w : ProjectionWork E G} {ops : List (Op E G)} (hw : s.memory.zygiskProjection = some w)
    (hrun : w.outcome = .running)
    (hintent : w.dispatchIntent = true) (hops : ops ∈ settling) :
    (s.run c others ops).memory.zygiskProjection = some w.interrupted := by
  have hfence : w.fenceRestart = w.interrupted := by
    rw [ProjectionWork.fenceRestart, if_pos hrun, if_pos hintent, ProjectionWork.interrupted]
  rw [← hfence]
  simp only [settling, List.mem_cons, List.not_mem_nil, or_false] at hops
  obtain rfl | rfl := hops
  · exact congrArg (Option.map (·.fenceRestart)) hw
  · exact congrArg (Option.map (·.fenceRestart)) hw

/-- Staging is done once, and is one with its receipt. However works are recorded and
    dispatched, with writes that fail and a crash at any point, and whatever restarts come
    between: a manager is dispatched at most once for an operation, right after a journal with
    the intent to do so is on disk; what was on disk is agreed with by all that comes after it,
    and what is in memory by all that follows it there; an error changes nothing; and the
    journal is always one that reading accepts. Where a dispatch was interrupted, a restart
    finds its work uncertain, and it stays so. -/
theorem staging_once (c : Checks E G) (others : Journal E G → Bool) (first : Journal E G)
    (hfirst : first.Sound c) (ops : List (Op E G)) :
    let s := (World.start first).run c others ops
    (stagings s.log).Nodup ∧ Durable s.log ∧
      ((first :: renames s.log).Pairwise Journal.Agrees ∧
        (first :: renames s.log).getLast? = some s.disk) ∧
      s.disk.Agrees s.memory ∧
      (∀ more, (∀ op ∈ more, op ≠ .read) → s.memory.Agrees (s.run c others more).memory) ∧
      (∀ base work message, s.memory.recordProjection c base work = .error message →
        s.step c others (.record base work) = s) ∧
      (s.memory.validateJournal c ∧ s.memory.validateEntries) ∧
      (s.disk.validateJournal c ∧ s.disk.validateEntries) ∧
      ∀ w, s.disk.zygiskProjection = some w → w.outcome = .running → w.dispatchIntent = true →
        (s.disk.read c others).isSome → ∀ settle ∈ settling, ∀ more, (∀ op ∈ more, op ≠ .read) →
          (s.run c others (.read :: settle ++ more)).memory.zygiskProjection = some w.interrupted ∧
            w.interrupted.outcome = .unknown ∧ w.interrupted.blocksRuntime := by
  intro s
  -- The anchor is the journal that was read last.
  obtain ⟨anchor, hgood⟩ : ∃ anchor, s.Good c first anchor := (World.Good.start hfirst).run ops
  have hdisk : ∀ j ∈ first :: renames s.log, j.Sound c := hgood.sound
  refine ⟨hgood.once, hgood.durable, ⟨?_, hgood.last⟩, hgood.ahead.agrees hgood.disk,
    fun more hmore => ?_, fun base work message herror => ?_,
    ⟨hgood.memory.validateJournal, hgood.memory.validateEntries⟩,
    ⟨hgood.disk.validateJournal, hgood.disk.validateEntries⟩, ?_⟩
  · -- Each journal on disk advances the one before, and agrees with it.
    exact hgood.history.imp_of_mem fun hj _ hadvances => hadvances.agrees (hdisk _ hj)
  · exact (hgood.anchored.run_unread hmore).since.agrees hgood.memory
  · rw [World.step_record, herror]
  · intro w hw hrun hintent hread settle hsettle more hmore
    -- A restart reads the journal, and its settlement interrupts the work that was running; what
    -- follows advances that.
    obtain ⟨j, hj⟩ := Option.isSome_iff_exists.1 hread
    have hstep : s.step c others .read = s.setMemory j := by rw [World.step_read, hj]
    obtain ⟨anchor', hrestarted⟩ :
        ∃ anchor', ((s.setMemory j).run c others settle).Good c first anchor' := by
      obtain ⟨anchor', hread'⟩ : ∃ anchor', (s.step c others .read).Good c first anchor' :=
        hgood.read
      exact (hstep ▸ hread').run settle
    have hsettled :
        ((s.setMemory j).run c others settle).memory.zygiskProjection = some w.interrupted :=
      settle_projection ((read_projection hj).trans hw) hrun hintent hsettle
    have hlater : ((s.setMemory j).run c others settle).memory.Advances
        (((s.setMemory j).run c others settle).run c others more).memory :=
      (hrestarted.anchored.run_unread hmore).since
    refine ⟨?_, rfl, rfl⟩
    have heq : s.run c others (.read :: settle ++ more) =
        ((s.setMemory j).run c others settle).run c others more := by
      rw [World.run, List.cons_append, List.foldl_cons, hstep, List.foldl_append]
      rfl
    rw [heq]
    exact hlater.retained _ hsettled (fun h => by cases h) rfl

/-- A journal that has issued ids, and nothing else. -/
def issuedJournal (issued : ℕ) : Journal E G :=
  ⟨{ Daemon.Journal.empty with issuedThrough := issued }, none, none⟩

omit [DecidableEq E] [DecidableEq G] in
theorem issuedJournal_sound (c : Checks E G) (issued : ℕ) :
    (issuedJournal issued : Journal E G).Sound c where
  nodup := List.nodup_nil
  entries _ he := absurd he List.not_mem_nil
  work _ hw := by cases hw
  choice _ hchoice := by cases hchoice

/-- Evidence that is only the id of its operation. -/
def plainChecks : Checks ℕ Unit := ⟨id, fun _ => true, fun _ _ => true, fun _ => true⟩

/-- A work that was only just accepted. -/
def plainWork : ProjectionWork ℕ Unit where
  operation := 7
  request := ⟨0, .fixed .zygisk, true⟩
  bootId := []
  evidence := 7
  dispatchIntent := false
  outcome := .running
  failure := none
  staging := none

/-- A dispatch that crashes while the manager runs, a restart, and a second try. -/
def interruptedRun : List (Op ℕ Unit) :=
  let tape : List (Answer Unit) :=
    [.fresh true, .renamed true, .synced true, .fresh true, .renamed true,
      .synced true, .fresh true]
  [.dispatch 0 ⟨7, []⟩ plainWork tape, .read, .fence, .reconcile,
    .dispatch 0 ⟨7, []⟩ plainWork (tape ++ tape)]

theorem staging_once_interrupted :
    let s := (World.start (issuedJournal 7)).run plainChecks (fun _ => true) interruptedRun
    stagings s.log = [7] ∧ (stagings s.log).Nodup ∧ s.disk.Agrees s.memory := by
  obtain ⟨honce, -, -, hagrees, -⟩ :=
    staging_once plainChecks (fun _ => true) (issuedJournal 7) (issuedJournal_sound plainChecks 7)
      interruptedRun
  exact ⟨by decide +kernel, honce, hagrees⟩

end VpnHide.Staging

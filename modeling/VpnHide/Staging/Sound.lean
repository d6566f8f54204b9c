import VpnHide.Daemon.Receipts
import VpnHide.Staging.Work

/-!
# The journal of a staging is sound

Whatever is recorded, pruned, fenced and reconciled, the work has its receipt, which says the
same of its outcome, and the choice of a backend is that of a confirmed work
(`Journal.Sound`). So the journal is one that reading it accepts.
-/

namespace VpnHide.Staging

open Lib Daemon

variable {E G : Type} {c : Checks E G}

/-! ## Receipts -/

/-- What settling a receipt leaves alone. -/
structure Same (e e' : JournalEntry) : Prop where
  command : e'.command = e.command
  admission : e'.admission = e.admission
  base : e'.base = e.base
  edit : e'.edit = e.edit
  candidate : e'.candidate = e.candidate
  nativeIntent : e'.nativeIntent = e.nativeIntent
  supersededPhases : e'.supersededPhases = e.supersededPhases
  phases : e'.record.phases.map (·.phase) = e.record.phases.map (·.phase)
  op : e'.record.op = e.record.op

namespace Same

variable {e e' e'' : JournalEntry}

theorem refl (e : JournalEntry) : Same e e := ⟨rfl, rfl, rfl, rfl, rfl, rfl, rfl, rfl, rfl⟩

theorem trans (h : Same e e') (h' : Same e' e'') : Same e e'' where
  command := h'.command.trans h.command
  admission := h'.admission.trans h.admission
  base := h'.base.trans h.base
  edit := h'.edit.trans h.edit
  candidate := h'.candidate.trans h.candidate
  nativeIntent := h'.nativeIntent.trans h.nativeIntent
  supersededPhases := h'.supersededPhases.trans h.supersededPhases
  phases := h'.phases.trans h.phases
  op := h'.op.trans h.op

/-- The same entry is judged the same. -/
theorem validateEntry (h : Same e e') : Journal.validateEntry e' = Journal.validateEntry e := by
  simp only [Journal.validateEntry, h.command, h.admission, h.base, h.edit, h.candidate,
    h.nativeIntent, h.phases]

/-- Settling the first phase leaves the entry the same. -/
theorem settleFirst (e : JournalEntry) (outcome : PhaseOutcome) :
    Same e (e.settleFirst outcome) := by
  rw [JournalEntry.settleFirst]
  split_ifs
  · refine ⟨rfl, rfl, rfl, rfl, rfl, rfl, rfl, ?_, rfl⟩
    cases e.record.phases <;> rfl
  · exact refl e

/-- Fencing leaves it the same. -/
theorem fence (e : JournalEntry) : Same e e.fence := by
  refine ⟨rfl, rfl, rfl, rfl, rfl, rfl, rfl, ?_, rfl⟩
  simp only [JournalEntry.fence, List.map_map]
  refine List.map_congr_left fun p _ => ?_
  simp only [Function.comp_apply]
  split_ifs <;> rfl

/-- Reconciling it with the journal leaves it the same. -/
theorem reconcileEntry (j : Journal E G) (e : JournalEntry) : Same e (j.reconcileEntry e) := by
  rw [Journal.reconcileEntry]
  split_ifs
  · exact refl e
  · refine ⟨rfl, rfl, rfl, rfl, rfl, rfl, rfl, ?_, rfl⟩
    simp only [List.map_map]
    rfl
  · refine ⟨rfl, rfl, rfl, rfl, rfl, rfl, rfl, ?_, rfl⟩
    simp only [List.map_map]
    rfl

end Same

/-- A receipt that is settled by the work that was never dispatched. -/
def settleProjection (work : Option Daemon.ProjectionWork) (e : JournalEntry) : JournalEntry :=
  match work with
  | none => e
  | some work => if work.outcome = .failedKnown && e.record.op = work.operation then
      e.settleFirst .failedKnown else e

/-- A receipt that is settled by the revocation that it was for. -/
def settleRevocation (revocation : Option ZygiskRevocation) (e : JournalEntry) : JournalEntry :=
  match revocation with
  | none => e
  | some r =>
    if r.state = .confirmed && r.operation = some e.record.op && e.isRevocationOnlyRepair then
      e.settleFirst .confirmed
    else e

/-- Fencing a receipt, all of it. -/
def fenceEntry (j : Daemon.Journal) (e : JournalEntry) : JournalEntry :=
  (settleRevocation j.zygiskRevocation
    (settleProjection (j.zygiskProjection.map (·.fenceRestart)) e)).fence

/-- Fencing the projection maps the operations one by one. -/
theorem fenceProjection_eq (j : Daemon.Journal) :
    j.fenceProjection.operations =
      j.operations.map (settleProjection (j.zygiskProjection.map (·.fenceRestart))) ∧
        j.fenceProjection.zygiskRevocation = j.zygiskRevocation := by
  rw [Daemon.Journal.fenceProjection]
  cases j.zygiskProjection.map (·.fenceRestart) with
  | none => exact ⟨(List.map_id _).symm, rfl⟩
  | some work => exact ⟨rfl, rfl⟩

/-- Fencing the revocation does the same. -/
theorem fenceRevocation_operations (j : Daemon.Journal) :
    j.fenceRevocation.operations = j.operations.map (settleRevocation j.zygiskRevocation) := by
  rw [Daemon.Journal.fenceRevocation]
  cases j.zygiskRevocation with
  | none => exact (List.map_id _).symm
  | some r => rfl

/-- Fencing what is unresolved does both. -/
theorem fenceUnresolved_operations (j : Daemon.Journal) :
    j.fenceUnresolved.operations = j.operations.map (fenceEntry j) := by
  have hprojection :=
    fenceProjection_eq { j with zygiskBootstrap := j.zygiskBootstrap.map (·.fenceRestart) }
  generalize hfenced : Daemon.Journal.fenceProjection
    { j with zygiskBootstrap := j.zygiskBootstrap.map (·.fenceRestart) } = fenced at hprojection
  have hstep : j.fenceUnresolved.operations =
      (fenced.operations.map (settleRevocation fenced.zygiskRevocation)).map (·.fence) := by
    rw [Daemon.Journal.fenceUnresolved, hfenced]
    exact congrArg (List.map (·.fence)) (fenceRevocation_operations _)
  rw [hstep, hprojection.1, hprojection.2, List.map_map, List.map_map]
  rfl

/-- Settling by a projection leaves an entry the same. -/
theorem Same.settleProjection (work : Option Daemon.ProjectionWork) (e : JournalEntry) :
    Same e (settleProjection work e) := by
  cases work with
  | none => exact .refl e
  | some work =>
    simp only [Staging.settleProjection]
    split_ifs
    · exact .settleFirst e _
    · exact .refl e

/-- Settling by a revocation leaves an entry the same. -/
theorem Same.settleRevocation (revocation : Option ZygiskRevocation) (e : JournalEntry) :
    Same e (settleRevocation revocation e) := by
  cases revocation with
  | none => exact .refl e
  | some r =>
    simp only [Staging.settleRevocation]
    split_ifs
    · exact .settleFirst e _
    · exact .refl e

/-- Fencing an entry leaves it the same. -/
theorem Same.fenceEntry (j : Daemon.Journal) (e : JournalEntry) : Same e (fenceEntry j e) :=
  ((Same.settleProjection _ e).trans (.settleRevocation _ _)).trans (.fence _)

/-- The receipt of a choice is not one of a revocation. -/
theorem settleRevocation_stage {e : JournalEntry} {request : BackendChoiceRequest}
    (h : e.command = some (.stageBackendChoice request)) (revocation : Option ZygiskRevocation) :
    settleRevocation revocation e = e := by
  have hrepair : e.isRevocationOnlyRepair = false := by
    simp [JournalEntry.isRevocationOnlyRepair, h]
  cases revocation with
  | none => rfl
  | some r =>
    simp only [settleRevocation]
    rw [hrepair, Bool.and_false, if_neg (by decide)]

/-- A receipt that is confirmed is left alone. -/
theorem fenceEntry_of_confirmed (j : Daemon.Journal) {e : JournalEntry}
    {request : BackendChoiceRequest} (hcommand : e.command = some (.stageBackendChoice request))
    (hsettled : e.record.settled = some .confirmed)
    (hphases : ∀ p ∈ e.record.phases, p.outcome = .confirmed) : fenceEntry j e = e := by
  have hfirst (outcome : PhaseOutcome) : e.settleFirst outcome = e := by
    rw [JournalEntry.settleFirst, hsettled]
    simp
  have hprojection : settleProjection (j.zygiskProjection.map (·.fenceRestart)) e = e := by
    cases j.zygiskProjection.map (·.fenceRestart) with
    | none => rfl
    | some work => simp only [settleProjection, hfirst, ite_self]
  rw [fenceEntry, hprojection, settleRevocation_stage hcommand, JournalEntry.fence, hsettled]
  have hrunning : (e.record.phases.any fun p => decide (p.outcome = .running)) = false := by
    rw [List.any_eq_false]
    intro p hp
    simp [hphases p hp]
  have hmap : (e.record.phases.map fun p => if p.outcome = .running then
      { p with outcome := .unknown } else p) =
      e.record.phases := by
    refine (List.map_congr_left fun p hp => ?_).trans (List.map_id _)
    rw [if_neg (by simp [hphases p hp]), id_eq]
  obtain ⟨admission, command, supersededBy, supersededPhases, finalizedUnknown, base, edit,
    candidate, nativeIntent, record⟩ := e
  obtain ⟨op, phases, settled⟩ := record
  subst hsettled
  simp only at hrunning hmap ⊢
  simp [hrunning, hmap]

/-! ## Sound journals -/

namespace ProjectionWork

variable {w : ProjectionWork E G}

/-- Work that is valid stays so when more ids are handed out. -/
theorem valid_mono {issued issued' : ℕ} (h : w.valid c issued) (hle : issued ≤ issued') :
    w.valid c issued' := by
  simp only [valid, Bool.and_eq_true, decide_eq_true_eq] at h ⊢
  have hop : w.operation ≤ issued' := h.1.1.1.1.1.1.1.2.trans hle
  tauto

/-- Valid work is in a valid state. -/
theorem stateValid_of_valid {issued : ℕ} (h : w.valid c issued) : w.stateValid c := by
  simp only [valid, Bool.and_eq_true] at h
  exact h.2

/-- A work runs, or has ended in one of three ways. -/
theorem outcome_of_valid {issued : ℕ} (h : w.valid c issued) :
    w.outcome = .running ∨ w.outcome = .confirmed ∨ w.outcome = .failedKnown ∨
      w.outcome = .unknown := by
  have hstate := stateValid_of_valid h
  cases houtcome : w.outcome with
  | notAttempted => simp [stateValid, houtcome] at hstate
  | running => exact .inl rfl
  | confirmed => exact .inr (.inl rfl)
  | failedKnown => exact .inr (.inr (.inl rfl))
  | unknown => exact .inr (.inr (.inr rfl))

/-- Valid work that is running has neither failed nor staged. -/
theorem staging_of_running {issued : ℕ} (h : w.valid c issued) (hrun : w.outcome = .running) :
    w.failure = none ∧ w.staging = none := by
  have hstate := stateValid_of_valid h
  rw [stateValid, hrun] at hstate
  split at hstate
  next hfailure hstaging => exact ⟨hfailure, hstaging⟩
  all_goals simp_all

/-- A restart changes only work that is running. -/
theorem fenceRestart_of_terminal (h : w.outcome ≠ .running) : w.fenceRestart = w := by
  rw [fenceRestart, if_neg h]

/-- After a restart nothing is running. -/
theorem fenceRestart_not_running (w : ProjectionWork E G) : w.fenceRestart.outcome ≠ .running := by
  rw [fenceRestart]
  split_ifs with hrun
  · exact fun h => by cases h
  · exact fun h => by cases h
  · exact hrun

@[simp] theorem fenceRestart_operation (w : ProjectionWork E G) :
    w.fenceRestart.operation = w.operation := by
  rw [fenceRestart]
  split_ifs <;> rfl

@[simp] theorem fenceRestart_dispatchIntent (w : ProjectionWork E G) :
    w.fenceRestart.dispatchIntent = w.dispatchIntent := by
  rw [fenceRestart]
  split_ifs <;> rfl

/-- After a restart, valid work is valid. -/
theorem fenceRestart_valid {issued : ℕ} (h : w.valid c issued) : w.fenceRestart.valid c issued := by
  by_cases hrun : w.outcome = .running
  · obtain ⟨-, hstaging⟩ := staging_of_running h hrun
    simp only [valid, Bool.and_eq_true] at h ⊢
    obtain ⟨hrest, -⟩ := h
    rw [fenceRestart, if_pos hrun]
    split_ifs with hintent
    · exact ⟨hrest, by simp [stateValid, hstaging, hintent]⟩
    · exact ⟨hrest, by simpa [stateValid, hstaging] using hintent⟩
  · rw [fenceRestart_of_terminal hrun]
    exact h

/-- The summary of fenced work is the fenced summary. -/
theorem summary_fenceRestart (w : ProjectionWork E G) :
    w.fenceRestart.summary = w.summary.fenceRestart := by
  rw [fenceRestart]
  split_ifs with hrun hintent
  · simp [summary, Daemon.ProjectionWork.fenceRestart, fenceRunning, hrun, hintent]
  · simp [summary, Daemon.ProjectionWork.fenceRestart, fenceRunning, hrun, hintent]
  · simp [summary, Daemon.ProjectionWork.fenceRestart, fenceRunning, hrun]

end ProjectionWork

namespace Journal

variable {j j' : Journal E G} {w work : ProjectionWork E G}

/-- The work is valid, and its receipt and the choice of a backend say the same of it. -/
structure Receipted (c : Checks E G) (j : Journal E G) (w : ProjectionWork E G) : Prop where
  valid : w.valid c j.base.issuedThrough
  choice : choiceMatches j.backendChoice w
  receipt : ∃ e ∈ j.base.operations, e.record.op = w.operation ∧ receiptMatches e w ∧
    (w.outcome = .running → e.finalizedUnknown = false)

/-- The choice was confirmed, as its receipt says as long as it is kept. -/
structure Chosen (j : Journal E G) (choice : BackendChoiceRecord) : Prop where
  known : j.base.Known choice.operation
  confirmed : ∀ e ∈ j.base.operations, e.record.op = choice.operation →
    e.command = some (.stageBackendChoice choice.request) ∧ e.record.settled = some .confirmed ∧
      ∀ p ∈ e.record.phases, p.outcome = .confirmed

/-- What holds of every journal that can be reached. -/
structure Sound (c : Checks E G) (j : Journal E G) : Prop where
  nodup : (j.base.operations.map (·.record.op)).Nodup
  entries : ∀ e ∈ j.base.operations, validateEntry e
  work : ∀ w, j.zygiskProjection = some w → j.Receipted c w
  choice : ∀ choice, j.backendChoice = some choice → j.Chosen choice

/-- A sound journal is one that reading it accepts. -/
theorem Sound.validateJournal (h : j.Sound c) : j.validateJournal c := by
  rw [Journal.validateJournal]
  cases hw : j.zygiskProjection with
  | none => rfl
  | some w =>
    obtain ⟨hvalid, hchoice, e, he, hop, hmatches, -⟩ := h.work w hw
    have hget : j.base.get w.operation = some e := hop ▸ Daemon.Journal.get_eq_some h.nodup he
    simp only [Option.all_some, hget, Option.any_some, hvalid, hmatches, hchoice, Bool.and_self]

/-- A sound journal passes the checks that a read makes of its entries. -/
theorem Sound.validateEntries (h : j.Sound c) : j.validateEntries := by
  rw [Journal.validateEntries, Bool.and_eq_true, List.all_eq_true]
  refine ⟨h.entries, ?_⟩
  cases hchoice : j.backendChoice with
  | none => rfl
  | some choice =>
    rw [Option.all_some]
    cases hget : j.base.get choice.operation with
    | none => rfl
    | some e =>
      obtain ⟨he, hop⟩ := Daemon.Journal.mem_of_get hget
      obtain ⟨hcommand, hsettled, hphases⟩ := (h.choice choice hchoice).confirmed e he hop
      simpa [hcommand, hsettled] using hphases

/-- The operation of the recorded work is known to a sound journal. -/
theorem Sound.known (h : j.Sound c) (hw : j.zygiskProjection = some w) :
    j.base.Known w.operation := by
  obtain ⟨-, -, e, he, hop, -⟩ := h.work w hw
  rw [← hop]
  exact .inl (Daemon.Journal.get_ne_none.2 (List.mem_map.2 ⟨e, he, rfl⟩))

/-! ### Retention -/

/-- Receipts go, but not that of the work, and their ids are not forgotten. -/
structure Retains (op : Option OperationId) (b b' : Daemon.Journal) : Prop where
  operations : b'.operations.Sublist b.operations
  kept : ∀ e ∈ b.operations, op = some e.record.op → e ∈ b'.operations
  issuedThrough : b.issuedThrough ≤ b'.issuedThrough
  known : ∀ o, b.Known o → b'.Known o

/-- Pruning retains the entry of the recorded work. -/
theorem retains_prune (b : Daemon.Journal) :
    Retains (b.zygiskProjection.map (·.operation)) b b.prune where
  operations := by
    obtain ⟨dropped, -, hsub, -⟩ := b.prune_eq
    exact hsub
  kept e he hop := by
    obtain ⟨dropped, hperm, -, hdrop⟩ := b.prune_split
    obtain h | h := List.mem_append.1 (hperm.mem_iff.1 he)
    · exact absurd (.inr (.inr (.inr (.inl hop)))) (hdrop e h).1
    · exact h
  issuedThrough := by
    obtain ⟨dropped, -, -, -, heq⟩ := b.prune_eq
    have hfold : ∀ b : Daemon.Journal, (dropped.foldl Daemon.Journal.expire b).issuedThrough =
        b.issuedThrough := by
      clear heq
      induction dropped with
      | nil => exact fun _ => rfl
      | cons e dropped ih => exact fun b => ih (b.expire e)
    rw [heq]
    exact (hfold b).ge
  known _ := .prune

/-- Migrating retains it. -/
theorem retains_migrate (b : Daemon.Journal) :
    Retains (b.zygiskProjection.map (·.operation)) b b.migrate := by
  obtain ⟨hsub, hkept, hissued, -⟩ := retains_prune { b with
    conflictFloor := min b.conflictFloor b.configRevision
    retainSettled := min b.retainSettled Daemon.Journal.defaultRetainSettled
    expiredThrough := max ((b.retiredIds.max?).getD 0) b.expiredThrough
    issuedThrough := max (max (((b.operations.map (·.record.op)).max?).getD 0) b.issuedThrough)
      (max ((b.retiredIds.max?).getD 0) b.expiredThrough)
    retiredIds := [] }
  exact ⟨hsub, hkept, ((le_max_right _ _).trans (le_max_left _ _)).trans hissued, fun _ => .migrate⟩

@[simp] theorem view_operation (j : Journal E G) :
    j.view.zygiskProjection.map (·.operation) = j.zygiskProjection.map (·.operation) := by
  rw [view, Option.map_map]
  rfl

theorem Retains.ofView {op : Option OperationId} {b : Daemon.Journal} (h : Retains op j.view b) :
    Retains op j.base b :=
  ⟨h.operations, h.kept, h.issuedThrough, h.known⟩

/-- What retains the entry of the recorded work keeps the journal sound. -/
theorem Sound.retain {b : Daemon.Journal} (h : j.Sound c)
    (hb : Retains (j.zygiskProjection.map (·.operation)) j.base b) :
    ({ j with base := b } : Journal E G).Sound c where
  nodup := h.nodup.sublist (hb.operations.map _)
  entries e he := h.entries e (hb.operations.subset he)
  work w hw := by
    obtain ⟨hvalid, hchoice, e, he, hop, hmatches⟩ := h.work w hw
    have hkept : e ∈ b.operations :=
      hb.kept e he (by rw [show j.zygiskProjection = some w from hw, hop]; rfl)
    exact ⟨ProjectionWork.valid_mono hvalid hb.issuedThrough, hchoice, e, hkept, hop, hmatches⟩
  choice choice hchoice := by
    obtain ⟨hknown, hconfirmed⟩ := h.choice choice hchoice
    exact ⟨hb.known _ hknown, fun e he => hconfirmed e (hb.operations.subset he)⟩

/-- Pruning keeps the journal sound. -/
theorem Sound.prune (h : j.Sound c) : j.prune.Sound c :=
  h.retain (j.view_operation ▸ retains_prune j.view).ofView

theorem read_eq_some {others : Journal E G → Bool} (h : j.read c others = some j') :
    j' = { j with base := j.view.migrate } := by
  rw [read] at h
  split_ifs at h
  exact (Option.some.inj h).symm

/-- A sound journal that was read back is sound. -/
theorem Sound.read {others : Journal E G → Bool} (h : j.Sound c)
    (hread : j.read c others = some j') : j'.Sound c := by
  rw [read_eq_some hread]
  exact h.retain (j.view_operation ▸ retains_migrate j.view).ofView

/-! ### Restarts -/

/-- Fencing the receipt of a work. -/
theorem receiptMatches_fenceEntry {e : JournalEntry} {b : Daemon.Journal}
    (hb : b.zygiskProjection = some w.summary) (hop : e.record.op = w.operation)
    (h : receiptMatches e w)
    (houtcome : w.outcome = .running ∨ w.outcome = .confirmed ∨ w.outcome = .failedKnown ∨
      w.outcome = .unknown)
    (hrun : w.outcome = .running → e.finalizedUnknown = false) :
    receiptMatches (fenceEntry b e) w.fenceRestart := by
  simp only [receiptMatches, Bool.and_eq_true, decide_eq_true_eq] at h
  obtain ⟨⟨⟨hcommand, hphases⟩, hsettled⟩, hsuperseded⟩ := h
  have hfence : fenceEntry b e =
      (settleProjection (some w.summary.fenceRestart) e).fence := by
    have hcommand' := (Same.settleProjection (some w.summary.fenceRestart) e).command.trans hcommand
    rw [fenceEntry, hb, Option.map_some, settleRevocation_stage hcommand']
  rw [hfence, ← ProjectionWork.summary_fenceRestart, settleProjection]
  obtain houtcome | houtcome | houtcome | houtcome := houtcome
  · have hfinalized := hrun houtcome
    rw [houtcome] at hphases
    rw [ProjectionWork.settled, if_pos houtcome] at hsettled
    by_cases hintent : w.dispatchIntent
    · simp [ProjectionWork.fenceRestart, houtcome, hintent, ProjectionWork.summary, receiptMatches,
        JournalEntry.fence, hcommand, hphases, hsettled, hsuperseded, ProjectionWork.settled]
    · simp [ProjectionWork.fenceRestart, houtcome, hintent, ProjectionWork.summary, receiptMatches,
        JournalEntry.fence, JournalEntry.settleFirst, hop, hfinalized, hcommand, hphases, hsettled,
        hsuperseded, ProjectionWork.settled]
  all_goals
    have hterminal : w.outcome ≠ .running := by simp [houtcome]
    rw [houtcome] at hphases
    rw [ProjectionWork.settled, if_neg hterminal, houtcome] at hsettled
    rw [ProjectionWork.fenceRestart_of_terminal hterminal]
    simp [houtcome, ProjectionWork.summary, receiptMatches, JournalEntry.fence,
        JournalEntry.settleFirst, hop, hcommand, hphases, hsettled, hsuperseded,
        ProjectionWork.settled]

/-- Settling receipts forgets no id. -/
theorem known_map {b b' : Daemon.Journal} {f : JournalEntry → JournalEntry} (hf : ∀ e, Same e (f e))
    (hops : b'.operations = b.operations.map f) (hthrough : b'.expiredThrough = b.expiredThrough)
    (hretired : b'.retiredIds = b.retiredIds) {op : OperationId} (h : b.Known op) :
    b'.Known op := by
  refine h.step (.adjust b b' ?_ hthrough hretired)
  rw [hops, List.map_map]
  exact List.map_congr_left fun e _ => (hf e).op

/-- Mapping entries to the same ones keeps the operations distinct. -/
theorem nodup_map {b b' : Daemon.Journal} {f : JournalEntry → JournalEntry} (hf : ∀ e, Same e (f e))
    (hops : b'.operations = b.operations.map f) (h : (b.operations.map (·.record.op)).Nodup) :
    (b'.operations.map (·.record.op)).Nodup := by
  rw [hops, List.map_map]
  rw [← List.map_congr_left fun e _ => (hf e).op] at h
  exact h

/-- What a settling of receipts has to respect. -/
theorem Sound.settle {b : Daemon.Journal} {f : JournalEntry → JournalEntry} (h : j.Sound c)
    (hf : ∀ e, Same e (f e)) (hops : b.operations = j.base.operations.map f)
    (hthrough : b.expiredThrough = j.base.expiredThrough)
    (hretired : b.retiredIds = j.base.retiredIds) {proj : Option (ProjectionWork E G)}
    (hwork : ∀ w, proj = some w →
      ({ j with base := b, zygiskProjection := proj } : Journal E G).Receipted c w)
    (hchosen : ∀ e request, e.command = some (.stageBackendChoice request) →
      e.record.settled = some .confirmed → (∀ p ∈ e.record.phases, p.outcome = .confirmed) →
      f e = e) :
    ({ j with base := b, zygiskProjection := proj } : Journal E G).Sound c where
  nodup := nodup_map hf hops h.nodup
  entries e he := by
    change e ∈ b.operations at he
    rw [hops] at he
    obtain ⟨d, hd, rfl⟩ := List.mem_map.1 he
    rw [(hf d).validateEntry]
    exact h.entries d hd
  work := hwork
  choice choice hchoice := by
    obtain ⟨hknown, hconfirmed⟩ := h.choice choice hchoice
    refine ⟨known_map hf hops hthrough hretired hknown, fun e he hop => ?_⟩
    change e ∈ b.operations at he
    rw [hops] at he
    obtain ⟨d, hd, rfl⟩ := List.mem_map.1 he
    rw [(hf d).op] at hop
    obtain ⟨hcommand, hsettled, hphases⟩ := hconfirmed d hd hop
    rw [hchosen d _ hcommand hsettled hphases]
    exact ⟨hcommand, hsettled, hphases⟩

/-- What fencing leaves alone. -/
theorem fenceUnresolved_frame (b : Daemon.Journal) :
    b.fenceUnresolved.expiredThrough = b.expiredThrough ∧
      b.fenceUnresolved.retiredIds = b.retiredIds ∧
      b.fenceUnresolved.issuedThrough = b.issuedThrough := by
  have hprojection (b : Daemon.Journal) : b.fenceProjection.expiredThrough = b.expiredThrough ∧
      b.fenceProjection.retiredIds = b.retiredIds ∧
      b.fenceProjection.issuedThrough = b.issuedThrough := by
    rw [Daemon.Journal.fenceProjection]
    split <;> exact ⟨rfl, rfl, rfl⟩
  have hrevocation (b : Daemon.Journal) : b.fenceRevocation.expiredThrough = b.expiredThrough ∧
      b.fenceRevocation.retiredIds = b.retiredIds ∧
      b.fenceRevocation.issuedThrough = b.issuedThrough := by
    rw [Daemon.Journal.fenceRevocation]
    split <;> exact ⟨rfl, rfl, rfl⟩
  rw [Daemon.Journal.fenceUnresolved]
  obtain ⟨h1, h2, h3⟩ :=
    hprojection { b with zygiskBootstrap := b.zygiskBootstrap.map (·.fenceRestart) }
  generalize Daemon.Journal.fenceProjection _ = b1 at h1 h2 h3 ⊢
  obtain ⟨k1, k2, k3⟩ := hrevocation { b1 with replacement := b1.replacement.map (·.fenceRestart) }
  exact ⟨k1.trans h1, k2.trans h2, k3.trans h3⟩

/-- A backend choice that fits the work fits it after a restart. -/
theorem choiceMatches_fenceRestart {choice : Option BackendChoiceRecord}
    (h : choiceMatches choice w) :
    choiceMatches choice w.fenceRestart := by
  by_cases hrun : w.outcome = .running
  · have hfenced : w.fenceRestart.outcome ≠ .confirmed := by
      rw [ProjectionWork.fenceRestart, if_pos hrun]
      split_ifs <;> exact fun h => by cases h
    rw [choiceMatches, if_neg (by simp [hrun])] at h
    rw [choiceMatches, if_neg hfenced, ProjectionWork.fenceRestart_operation]
    exact h
  · rw [ProjectionWork.fenceRestart_of_terminal hrun]
    exact h

/-- Fencing keeps the journal sound. -/
theorem Sound.fence (h : j.Sound c) : j.fenceUnresolved.Sound c := by
  obtain ⟨hthrough, hretired, hissued⟩ := fenceUnresolved_frame j.view
  refine h.settle (Same.fenceEntry j.view) (fenceUnresolved_operations j.view) hthrough
    hretired (fun w' hw' => ?_)
    fun e _ => fenceEntry_of_confirmed j.view
  obtain ⟨w, hw, rfl⟩ := Option.map_eq_some_iff.1 hw'
  obtain ⟨hvalid, hchoice, e, he, hop, hmatches, hrun⟩ := h.work w hw
  refine ⟨?_, choiceMatches_fenceRestart hchoice, fenceEntry j.view e, ?_, ?_, ?_, ?_⟩
  · change w.fenceRestart.valid c j.view.fenceUnresolved.issuedThrough
    rw [hissued]
    exact ProjectionWork.fenceRestart_valid hvalid
  · change fenceEntry j.view e ∈ j.view.fenceUnresolved.operations
    rw [fenceUnresolved_operations]
    exact List.mem_map_of_mem he
  · rw [(Same.fenceEntry j.view e).op, hop, ProjectionWork.fenceRestart_operation]
  · exact receiptMatches_fenceEntry (by rw [view, hw]; rfl) hop hmatches
      (ProjectionWork.outcome_of_valid hvalid) hrun
  · exact fun hfenced => absurd hfenced w.fenceRestart_not_running

/-- Reconciling keeps the journal sound. -/
theorem Sound.reconcile (h : j.Sound c) : j.reconcileUnfinished.Sound c := by
  refine h.settle (b := j.reconcileUnfinished.base) (Same.reconcileEntry j) rfl rfl
    rfl (fun w hw => ?_)
    fun e request _ hsettled _ => ?_
  · obtain ⟨hvalid, hchoice, e, he, hop, hmatches⟩ := h.work w hw
    have hsame : j.reconcileEntry e = e := by
      rw [reconcileEntry, show j.zygiskProjection = some w from hw]
      simp [hop]
    refine ⟨hvalid, hchoice, e, ?_, hop, hmatches⟩
    exact List.mem_map.2 ⟨e, he, hsame⟩
  · rw [reconcileEntry, hsettled]
    simp

/-! ### Recording -/

section Record

variable [DecidableEq E] [DecidableEq G] {base : ℕ}

/-- What it takes for a work to be recorded. -/
structure Recordable (c : Checks E G) (j : Journal E G) (work : ProjectionWork E G) : Prop where
  valid : work.valid c j.base.issuedThrough
  revision : j.choiceRevision = work.request.expectedRevision
  /-- It goes on with the work on record, or starts one of a new operation. -/
  continues :
    (∃ previous, j.zygiskProjection = some previous ∧ previous.operation = work.operation ∧
      previous ≠ work ∧ previous.permitsSuccessor work) ∨
    ((∀ previous, j.zygiskProjection = some previous → previous.outcome = .failedKnown) ∧
      ¬ j.base.Known work.operation ∧ work.dispatchIntent = false ∧ work.outcome = .running)

/-- Work that may be recorded succeeds work of its operation, or is new. -/
theorem mayRecord_cases (h : j.mayRecord c base work) :
    (∃ previous, j.zygiskProjection = some previous ∧ previous.operation = work.operation ∧
      previous.permitsSuccessor work) ∨
    ((∀ previous, j.zygiskProjection = some previous → previous.outcome = .failedKnown) ∧
      ¬ j.base.Known work.operation ∧ work.dispatchIntent = false ∧ work.outcome = .running) := by
  rw [mayRecord] at h
  split at h
  next previous hprevious =>
    obtain ⟨hprevious, hop⟩ := Option.filter_eq_some_iff.1 hprevious
    simp only [Bool.and_eq_true] at h
    exact .inl ⟨previous, hprevious, by simpa using hop, h.2⟩
  next =>
    simp only [Bool.not_eq_true', Bool.or_eq_false_iff, decide_eq_false_iff_not, not_not] at h
    obtain ⟨⟨⟨⟨hretained, hget⟩, hretired⟩, hintent⟩, hrun⟩ := h
    refine .inr ⟨fun previous hprevious => ?_, ?_, hintent, hrun⟩
    · simpa [hprevious, ProjectionWork.retained] using hretained
    · rintro (h | h)
      · exact h (by simpa using hget)
      · rw [hretired] at h
        cases h

/-- A work that is recorded is on record already, or is recordable. -/
theorem recordProjection_eq_ok (h : j.recordProjection c base work = .ok j') :
    (j' = j ∧ j.zygiskProjection = some work) ∨
      (j.Recordable c work ∧ j' = j.withWork base work) := by
  rw [recordProjection] at h
  split_ifs at h with hcheck hsame hrevision
  · exact .inl ⟨(Except.ok.inj h).symm, hsame⟩
  · simp only [Bool.or_eq_true, Bool.not_eq_true', decide_eq_true_eq, not_or,
      Bool.not_eq_false, ne_eq, not_not]
      at hcheck
    obtain ⟨⟨hvalid, -⟩, hmay⟩ := hcheck
    refine .inr ⟨⟨hvalid, by simpa using hrevision, ?_⟩, (Except.ok.inj h).symm⟩
    refine (mayRecord_cases hmay).imp_left fun ⟨previous, hprevious, hop, hpermits⟩ => ?_
    exact ⟨previous, hprevious, hop, fun heq => hsame (heq ▸ hprevious), hpermits⟩

/-- A proper successor follows work that was running, and keeps its request. -/
theorem permitsSuccessor_running (h : w.permitsSuccessor work) (hne : w ≠ work) :
    w.outcome = .running ∧ w.request = work.request ∧ w.bootId = work.bootId ∧
      w.evidence = work.evidence ∧ (w.dispatchIntent → work.dispatchIntent) := by
  simp only [ProjectionWork.permitsSuccessor, Bool.or_eq_true, Bool.and_eq_true, decide_eq_true_eq,
    hne, false_or, Bool.not_eq_true', Bool.and_eq_false_iff, Bool.not_eq_false'] at h
  obtain ⟨⟨⟨⟨⟨⟨-, hrequest⟩, hboot⟩, hevidence⟩, hintent⟩, hrun⟩, -⟩ := h
  refine ⟨hrun, hrequest, hboot, hevidence, fun hw => ?_⟩
  obtain hintent | hintent := hintent
  · rw [hw] at hintent
    cases hintent
  · exact hintent

/-- The choice on record is not that of a work that is recorded and not confirmed. -/
theorem Recordable.choice_ne (hr : j.Recordable c work) (h : j.Sound c)
    {choice : BackendChoiceRecord} (hchoice : j.backendChoice = some choice) :
    choice.operation ≠ work.operation := by
  obtain ⟨previous, hprevious, hop, hne, hpermits⟩ | ⟨-, hknown, -⟩ := hr.continues
  · have hmatches := (h.work previous hprevious).choice
    rw [choiceMatches, (permitsSuccessor_running hpermits hne).1, if_neg (by decide), hchoice]
      at hmatches
    rw [← hop]
    intro heq
    simp [heq] at hmatches
  · exact fun heq => hknown (heq ▸ (h.choice choice hchoice).known)

/-- The journal with the work, before receipts are dropped. -/
def inserted (j : Journal E G) (base : ℕ) (work : ProjectionWork E G) : Journal E G where
  base := Daemon.Journal.insert { j.base with zygiskProjection := some work.summary }
    (receipt base work)
  zygiskProjection := some work
  backendChoice :=
    if work.outcome = .confirmed then
      some ⟨work.request.expectedRevision + 1, work.request, work.operation, work.bootId⟩
    else j.backendChoice

omit [DecidableEq E] [DecidableEq G] in
theorem withWork_eq (j : Journal E G) (base : ℕ) (work : ProjectionWork E G) :
    j.withWork base work = (j.inserted base work).prune := rfl

omit [DecidableEq E] [DecidableEq G] in

/-- The receipt of valid work is valid. -/
theorem validateEntry_receipt {issued : ℕ} (h : work.valid c issued) (base : ℕ) :
    validateEntry (receipt base work) := by
  simp only [ProjectionWork.valid, Bool.and_eq_true] at h
  obtain ⟨⟨⟨⟨⟨-, hrequest⟩, -⟩, -⟩, -⟩, -⟩ := h
  simp [validateEntry, receipt, hrequest, isRepairActivation]

omit [DecidableEq E] [DecidableEq G] in

/-- An entry after an insertion is the receipt, or an entry of another operation. -/
theorem mem_inserted {e : JournalEntry} (h : (j.base.operations.map (·.record.op)).Nodup)
    (he : e ∈ (j.inserted base work).base.operations) :
    e = receipt base work ∨ (e ∈ j.base.operations ∧ e.record.op ≠ work.operation) := by
  have hnodup : ((j.inserted base work).base.operations.map (·.record.op)).Nodup :=
    Daemon.Journal.nodup_insert h
  by_cases hop : e.record.op = work.operation
  · have hreceipt :=
      Daemon.Journal.get_eq_some hnodup (Daemon.Journal.entry_mem_insert _ (receipt base work))
    have hget := Daemon.Journal.get_eq_some hnodup he
    rw [hop] at hget
    exact .inl (Option.some.inj (hget.symm.trans hreceipt))
  · exact (Daemon.Journal.mem_insert he).imp_right fun he => ⟨he, hop⟩

/-- Inserting a recordable receipt keeps the journal sound. -/
theorem Sound.inserted (h : j.Sound c) (hr : j.Recordable c work) (base : ℕ) :
    (j.inserted base work).Sound c where
  nodup := Daemon.Journal.nodup_insert h.nodup
  entries e he := by
    obtain rfl | ⟨he, -⟩ := mem_inserted h.nodup he
    · exact validateEntry_receipt hr.valid base
    · exact h.entries e he
  work w hw := by
    obtain rfl : work = w := Option.some.inj hw
    refine ⟨ProjectionWork.valid_mono hr.valid (le_max_left _ _), ?_, receipt base work,
      Daemon.Journal.entry_mem_insert _ _, rfl, ?_, fun hrun => ?_⟩
    · rw [choiceMatches]
      by_cases hconfirmed : work.outcome = .confirmed
      · simp [Journal.inserted, hconfirmed]
      · rw [if_neg hconfirmed]
        simp only [Journal.inserted, if_neg hconfirmed, Option.isNone_iff_eq_none,
          Option.filter_eq_none_iff]
        exact fun choice hchoice => by simpa using hr.choice_ne h hchoice
    · simp [receiptMatches, receipt]
    · simp [receipt, hrun]
  choice choice hchoice := by
    simp only [Journal.inserted] at hchoice
    split_ifs at hchoice with hconfirmed
    · obtain rfl := Option.some.inj hchoice
      refine ⟨.insert (.inl rfl), fun e he hop => ?_⟩
      obtain rfl | ⟨-, hne⟩ := mem_inserted h.nodup he
      · simp [receipt, hconfirmed, ProjectionWork.settled]
      · exact absurd hop hne
    · have hne := hr.choice_ne h hchoice
      obtain ⟨hknown, hold⟩ := h.choice choice hchoice
      refine ⟨.insert (.inr hknown), fun e he hop => ?_⟩
      obtain rfl | ⟨he, -⟩ := mem_inserted h.nodup he
      · exact absurd hop.symm hne
      · exact hold e he hop

/-- The journal stays sound when a work is recorded. -/
theorem Sound.record (h : j.Sound c) (hrecord : j.recordProjection c base work = .ok j') :
    j'.Sound c := by
  obtain ⟨rfl, -⟩ | ⟨hr, rfl⟩ := recordProjection_eq_ok hrecord
  · exact h
  · rw [withWork_eq]
    exact (h.inserted hr base).prune

end Record

end Journal

end VpnHide.Staging

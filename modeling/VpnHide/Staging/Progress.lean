import VpnHide.Staging.Sound

/-!
# What changes in the journal of a staging

However the journal goes on, a work keeps its intent to dispatch, and once it has ended it
stays as it is, with its receipt; the work of an operation that was left does not come back;
and the choice of a backend changes with the work that confirms it, by one revision.
`Journal.Advances` says this of any two states of the journal.
-/

namespace VpnHide.Staging

open Lib Daemon

variable {E G : Type} {c : Checks E G}

/-- A later state of a work. -/
structure ProjectionWork.Continues (w w' : ProjectionWork E G) : Prop where
  operation : w'.operation = w.operation
  request : w'.request = w.request
  bootId : w'.bootId = w.bootId
  evidence : w'.evidence = w.evidence
  intent : w.dispatchIntent → w'.dispatchIntent
  terminal : w.outcome ≠ .running → w' = w

namespace ProjectionWork.Continues

variable {w w' w'' : ProjectionWork E G}

theorem refl (w : ProjectionWork E G) : w.Continues w := ⟨rfl, rfl, rfl, rfl, id, fun _ => rfl⟩

theorem trans (h : w.Continues w') (h' : w'.Continues w'') : w.Continues w'' where
  operation := h'.operation.trans h.operation
  request := h'.request.trans h.request
  bootId := h'.bootId.trans h.bootId
  evidence := h'.evidence.trans h.evidence
  intent := h'.intent ∘ h.intent
  terminal hw := by
    obtain rfl := h.terminal hw
    exact h'.terminal hw

/-- A restart continues the work. -/
theorem fenceRestart (w : ProjectionWork E G) : w.Continues w.fenceRestart where
  operation := w.fenceRestart_operation
  request := by
    rw [ProjectionWork.fenceRestart]
    split_ifs <;> rfl
  bootId := by
    rw [ProjectionWork.fenceRestart]
    split_ifs <;> rfl
  evidence := by
    rw [ProjectionWork.fenceRestart]
    split_ifs <;> rfl
  intent h := w.fenceRestart_dispatchIntent ▸ h
  terminal := fenceRestart_of_terminal

end ProjectionWork.Continues

/-- A receipt of a staging that has ended. -/
def Final (e : JournalEntry) : Prop :=
  ∃ request outcome, e.command = some (.stageBackendChoice request) ∧ outcome ≠ .running ∧
    e.record.phases = [⟨.maintenance, outcome⟩] ∧ e.record.settled = some outcome

/-- A later state of a receipt. -/
structure Follows (e e' : JournalEntry) : Prop where
  op : e'.record.op = e.record.op
  final : Final e → e'.record = e.record ∧ e'.command = e.command

theorem Follows.refl (e : JournalEntry) : Follows e e := ⟨rfl, fun _ => ⟨rfl, rfl⟩⟩

theorem Follows.trans {e e' e'' : JournalEntry} (h : Follows e e') (h' : Follows e' e'') :
    Follows e e'' where
  op := h'.op.trans h.op
  final hfinal := by
    obtain ⟨hrecord, hcommand⟩ := h.final hfinal
    have hfinal' : Final e' := by
      rw [Final, hrecord, hcommand]
      exact hfinal
    obtain ⟨hrecord', hcommand'⟩ := h'.final hfinal'
    exact ⟨hrecord'.trans hrecord, hcommand'.trans hcommand⟩

/-- Fencing an entry follows it. -/
theorem follows_fenceEntry (b : Daemon.Journal) (e : JournalEntry) :
    Follows e (fenceEntry b e) := by
  refine ⟨(Same.fenceEntry b e).op, fun ⟨request, outcome, hcommand, hrun, hphases, hsettled⟩ => ?_⟩
  refine ⟨?_, (Same.fenceEntry b e).command⟩
  have hfirst (outcome : PhaseOutcome) : e.settleFirst outcome = e := by
    rw [JournalEntry.settleFirst, hsettled]
    simp
  have hprojection : settleProjection (b.zygiskProjection.map (·.fenceRestart)) e = e := by
    cases b.zygiskProjection.map (·.fenceRestart) with
    | none => rfl
    | some work => simp only [settleProjection, hfirst, ite_self]
  rw [fenceEntry, hprojection, settleRevocation_stage hcommand]
  obtain ⟨admission, command, supersededBy, supersededPhases, finalizedUnknown, base, edit,
    candidate, nativeIntent, op, phases, settled⟩ := e
  obtain rfl : phases = _ := hphases
  obtain rfl : settled = _ := hsettled
  by_cases hunknown : outcome = .unknown
  · simp [JournalEntry.fence, hunknown]
  · simp [JournalEntry.fence, hunknown, hrun]

/-- Reconciling an entry follows it. -/
theorem follows_reconcileEntry (j : Journal E G) (e : JournalEntry) :
    Follows e (j.reconcileEntry e) := by
  refine ⟨(Same.reconcileEntry j e).op, fun ⟨_, _, _, _, _, hsettled⟩ => ?_⟩
  have hsame : j.reconcileEntry e = e := by
    rw [Journal.reconcileEntry, hsettled]
    simp
  rw [hsame]
  exact ⟨rfl, rfl⟩

namespace Journal

/-- A later state of the journal. -/
structure Advances (j j' : Journal E G) : Prop where
  known : ∀ op, j.base.Known op → j'.base.Known op
  /-- The work goes on, or another one was started. -/
  work : ∀ w', j'.zygiskProjection = some w' →
    (∃ w, j.zygiskProjection = some w ∧ w.Continues w') ∨ ¬ j.base.Known w'.operation
  /-- Nothing follows a work that may have had an effect. -/
  retained : ∀ w, j.zygiskProjection = some w → w.outcome ≠ .running → w.retained →
    j'.zygiskProjection = some w
  receipts : ∀ e' ∈ j'.base.operations,
    (∃ e ∈ j.base.operations, Follows e e') ∨ ¬ j.base.Known e'.record.op
  /-- The choice is that of the work that was confirmed meanwhile. -/
  choice : j'.backendChoice = j.backendChoice ∨
    ∃ w', j'.zygiskProjection = some w' ∧ w'.outcome = .confirmed ∧ j.zygiskProjection ≠ some w' ∧
      j.choiceRevision = w'.request.expectedRevision ∧
      j'.backendChoice = some ⟨j.choiceRevision + 1, w'.request, w'.operation, w'.bootId⟩

namespace Advances

variable {j j' j'' : Journal E G} {w work : ProjectionWork E G}

theorem refl (j : Journal E G) : j.Advances j where
  known _ := id
  work w hw := .inl ⟨w, hw, .refl w⟩
  retained _ hw _ _ := hw
  receipts e he := .inl ⟨e, he, .refl e⟩
  choice := .inl rfl

/-- Confirmed work has stopped, and its receipt is retained. -/
theorem retained_of_confirmed (h : w.outcome = .confirmed) : w.outcome ≠ .running ∧ w.retained := by
  simp [ProjectionWork.retained, h]

theorem trans (h : j.Advances j') (h' : j'.Advances j'') : j.Advances j'' where
  known op := h'.known op ∘ h.known op
  work w'' hw'' := by
    obtain ⟨w', hw', hcontinues'⟩ | hnew := h'.work w'' hw''
    · obtain ⟨w, hw, hcontinues⟩ | hnew := h.work w' hw'
      · exact .inl ⟨w, hw, hcontinues.trans hcontinues'⟩
      · exact .inr (hcontinues'.operation ▸ hnew)
    · exact .inr (mt (h.known _) hnew)
  retained w hw hrun hretained := h'.retained w (h.retained w hw hrun hretained) hrun hretained
  receipts e'' he'' := by
    obtain ⟨e', he', hfollows'⟩ | hnew := h'.receipts e'' he''
    · obtain ⟨e, he, hfollows⟩ | hnew := h.receipts e' he'
      · exact .inl ⟨e, he, hfollows.trans hfollows'⟩
      · exact .inr (hfollows'.op ▸ hnew)
    · exact .inr (mt (h.known _) hnew)
  choice := by
    obtain hsame | ⟨w', hw', hconfirmed, hnew, hrevision, hchoice⟩ := h.choice
    · obtain hsame' | ⟨w'', hw'', hconfirmed, hnew, hrevision, hchoice⟩ := h'.choice
      · exact .inl (hsame'.trans hsame)
      · have heq : j'.choiceRevision = j.choiceRevision := by
          rw [choiceRevision, hsame, choiceRevision]
        rw [heq] at hrevision hchoice
        obtain ⟨hrun, hretained⟩ := retained_of_confirmed hconfirmed
        exact .inr ⟨w'', hw'', hconfirmed, fun hw => hnew (h.retained w'' hw hrun hretained),
          hrevision, hchoice⟩
    · -- the work is confirmed, so nothing follows it
      obtain ⟨hrun, hretained⟩ := retained_of_confirmed hconfirmed
      have hlast := h'.retained w' hw' hrun hretained
      obtain hsame' | ⟨w'', hw'', -, hnew', -⟩ := h'.choice
      · exact .inr ⟨w', hlast, hconfirmed, hnew, hrevision, hsame'.trans hchoice⟩
      · rw [hlast, ← hw'] at hw''
        exact absurd hw'' hnew'

/-- Receipts are dropped. -/
theorem retain {b : Daemon.Journal} {op : Option OperationId} (hb : Retains op j.base b) :
    j.Advances { j with base := b } where
  known := hb.known
  work w hw := .inl ⟨w, hw, .refl w⟩
  retained _ hw _ _ := hw
  receipts e he := .inl ⟨e, hb.operations.subset he, .refl e⟩
  choice := .inl rfl

/-- Pruning a journal advances it. -/
theorem prune (j : Journal E G) : j.Advances j.prune := retain (retains_prune j.view).ofView

/-- So does reading it back. -/
theorem read {others : Journal E G → Bool} (h : j.read c others = some j') : j.Advances j' := by
  rw [read_eq_some h]
  exact retain (retains_migrate j.view).ofView

/-- Fencing leaves it the same. -/
theorem fence (j : Journal E G) : j.Advances j.fenceUnresolved where
  known op := known_map (Same.fenceEntry j.view) (fenceUnresolved_operations j.view)
    (fenceUnresolved_frame j.view).1 (fenceUnresolved_frame j.view).2.1
  work w' hw' := by
    obtain ⟨w, hw, rfl⟩ := Option.map_eq_some_iff.1 hw'
    exact .inl ⟨w, hw, .fenceRestart w⟩
  retained w hw hrun _ := by
    rw [fenceUnresolved, hw, Option.map_some, ProjectionWork.fenceRestart_of_terminal hrun]
  receipts e' he' := by
    change e' ∈ j.view.fenceUnresolved.operations at he'
    rw [fenceUnresolved_operations] at he'
    obtain ⟨e, he, rfl⟩ := List.mem_map.1 he'
    exact .inl ⟨e, he, follows_fenceEntry j.view e⟩
  choice := .inl rfl

/-- So does reconciling it. -/
theorem reconcile (j : Journal E G) : j.Advances j.reconcileUnfinished where
  known op hop := by
    have hops : j.reconcileUnfinished.base.operations = j.base.operations.map j.reconcileEntry :=
      rfl
    exact known_map (Same.reconcileEntry j) hops rfl rfl hop
  work w hw := .inl ⟨w, hw, .refl w⟩
  retained _ hw _ _ := hw
  receipts e' he' := by
    obtain ⟨e, he, rfl⟩ := List.mem_map.1 he'
    exact .inl ⟨e, he, follows_reconcileEntry j e⟩
  choice := .inl rfl

variable [DecidableEq E] [DecidableEq G] {base : ℕ}

/-- The receipt that is replaced is that of a work that runs. -/
theorem receipt_running (h : j.Sound c) (hr : j.Recordable c work) {e : JournalEntry}
    (he : e ∈ j.base.operations) (hop : e.record.op = work.operation) : ¬ Final e := by
  rintro ⟨_, outcome, -, -, -, hsettled⟩
  obtain ⟨previous, hprevious, hsame, hne, hpermits⟩ | ⟨-, hnew, -⟩ := hr.continues
  · obtain ⟨-, -, d, hd, hdop, hmatches, -⟩ := h.work previous hprevious
    have hget := Daemon.Journal.get_eq_some h.nodup he
    rw [hop, ← hsame, ← hdop, Daemon.Journal.get_eq_some h.nodup hd] at hget
    obtain rfl := Option.some.inj hget
    simp only [receiptMatches, Bool.and_eq_true, decide_eq_true_eq] at hmatches
    rw [hmatches.1.2, ProjectionWork.settled, if_pos (permitsSuccessor_running hpermits hne).1]
      at hsettled
    cases hsettled
  · refine hnew (.inl (Daemon.Journal.get_ne_none.2 ?_))
    exact List.mem_map.2 ⟨e, he, hop⟩

/-- So does inserting a recordable receipt. -/
theorem inserted (h : j.Sound c) (hr : j.Recordable c work) (base : ℕ) :
    j.Advances (j.inserted base work) where
  known op hop := .insert (.inr hop)
  work w' hw' := by
    obtain rfl : work = w' := Option.some.inj hw'
    obtain ⟨previous, hprevious, hop, hne, hpermits⟩ | ⟨-, hnew, -⟩ := hr.continues
    · obtain ⟨hrun, hrequest, hboot, hevidence, hintent⟩ := permitsSuccessor_running hpermits hne
      exact .inl ⟨previous, hprevious, hop.symm, hrequest.symm, hboot.symm, hevidence.symm,
        hintent, absurd hrun⟩
    · exact .inr hnew
  retained w hw hrun hretained := by
    obtain ⟨previous, hprevious, -, hne, hpermits⟩ | ⟨hfailed, -⟩ := hr.continues
    · obtain rfl : previous = w := Option.some.inj (hprevious.symm.trans hw)
      exact absurd (permitsSuccessor_running hpermits hne).1 hrun
    · simp [ProjectionWork.retained, hfailed w hw] at hretained
  receipts e' he' := by
    by_cases hop : e'.record.op = work.operation
    · by_cases hold : ∃ e ∈ j.base.operations, e.record.op = work.operation
      · obtain ⟨e, he, heop⟩ := hold
        exact .inl ⟨e, he, hop.trans heop.symm, fun hfinal =>
          absurd hfinal (receipt_running h hr he heop)⟩
      · obtain ⟨previous, hprevious, hsame, -⟩ | ⟨-, hnew, -⟩ := hr.continues
        · obtain ⟨-, -, e, he, heop, -⟩ := h.work previous hprevious
          exact absurd ⟨e, he, heop.trans hsame⟩ hold
        · exact .inr (hop ▸ hnew)
    · obtain rfl | ⟨he, -⟩ := mem_inserted h.nodup he'
      · exact absurd rfl hop
      · exact .inl ⟨e', he, .refl e'⟩
  choice := by
    -- Only a confirmed receipt chooses.
    by_cases hconfirmed : work.outcome = .confirmed
    · refine .inr ⟨work, rfl, hconfirmed, fun hsame => ?_, hr.revision, ?_⟩
      · obtain ⟨previous, hprevious, -, hne, -⟩ | ⟨-, -, -, hrun⟩ := hr.continues
        · exact hne (Option.some.inj (hprevious.symm.trans hsame))
        · rw [hconfirmed] at hrun
          cases hrun
      · rw [hr.revision, Journal.inserted, if_pos hconfirmed]
    · exact .inl (if_neg hconfirmed)

/-- Recording a work. -/
theorem record (h : j.Sound c) (hrecord : j.recordProjection c base work = .ok j') :
    j.Advances j' ∧ j'.zygiskProjection = some work := by
  obtain ⟨rfl, hwork⟩ | ⟨hr, rfl⟩ := recordProjection_eq_ok hrecord
  · exact ⟨.refl j', hwork⟩
  · rw [withWork_eq]
    exact ⟨(inserted h hr base).trans (prune _), rfl⟩

end Advances

end Journal

end VpnHide.Staging

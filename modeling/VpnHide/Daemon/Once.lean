import VpnHide.Daemon.Upkeep

/-!
# Nothing is done twice

Over all runs, with crashes and restarts anywhere, an id that is handed out is new, and larger
than those before it (`issued_ids_increase`), no phase of an operation is dispatched twice
(`dispatched_once`), and a receipt that is settled stays as it is, while nothing more is done
for its operation (`receipt_stands`).
-/

namespace VpnHide.Daemon

open Lib Config

/-! ## What the journal keeps -/

namespace Journal

variable {j j' : Journal} {op : OperationId} {record : OperationRecord} {n : ℕ}

/-- How an operation is settled for good. -/
def Final (o : PhaseOutcome) : Prop := o = .confirmed ∨ o = .failedKnown ∨ o = .unknown

/-- The receipt of an operation, unless it has expired. -/
structure Holds (record : OperationRecord) (j : Journal) : Prop where
  known : j.Known record.op
  same : ∀ e ∈ j.operations, e.record.op = record.op → e.record = record

/-- A restart does not change how a receipt is settled. -/
theorem record_recovered {e : JournalEntry} (h : e.Whole) {o : PhaseOutcome}
    (hsettled : e.record.settled = some o) (hfinal : Final o) {device : Device}
    {f : Option CanonicalConfig} {r : Option ZygiskRevocation} :
    (e.recovered device f r).record = e.record := by
  have hsame : reconcileEntry device f e.fence = e.fence := by
    rw [h.fence, reconcileEntry]
    refine if_pos ?_
    obtain rfl | hsure := eq_or_ne o .unknown
    · simp [hsettled]
    · -- nothing is left to resolve
      have hunknown : e.record.settled ≠ some .unknown :=
        fun heq => hsure (Option.some.inj (hsettled.symm.trans heq))
      have hopen :
          (e.record.phases.any fun p => p.outcome = .unknown || p.outcome = .running) = false := by
        simpa [List.any_eq_false] using fun p hp => ⟨h.unknown hunknown p hp, h.running p hp⟩
      obtain rfl | rfl | rfl := hfinal <;> simp [JournalEntry.isComplete, hsettled, hopen]
  rw [JournalEntry.recovered, h.repaired, recoverEntry, hsame, h.fence]

/-- That a receipt is settled is inherited. -/
theorem heritable_holds {o : PhaseOutcome} (hsettled : record.settled = some o) (hfinal : Final o) :
    Heritable (· = record.op) (Holds record) where
  known _ h _ hop := hop ▸ h.known
  touches _ _ htouches h := by
    refine ⟨h.known.touches htouches, fun e' he' hop => ?_⟩
    obtain ⟨e, he, heq⟩ := htouches.mem he'
    rw [heq] at hop ⊢
    exact h.same e he hop
  prune _ h := ⟨h.known.prune, fun e he => h.same e (mem_of_mem_prune he)⟩
  insert _ _ hop h := by
    refine ⟨.insert (.inr h.known), fun e he heq => ?_⟩
    obtain rfl | he := mem_insert he
    · exact absurd heq hop
    · exact h.same e he heq
  migrate j h := ⟨h.known.migrate, fun e he => h.same e (mem_of_mem_prune (j := j.upgrade) he)⟩
  recover device f j hstored h := by
    refine ⟨h.known.recover hstored, fun e' he' hop => ?_⟩
    rw [operations_recoverJournal hstored] at he'
    obtain ⟨e, he, rfl⟩ := List.mem_map.1 he'
    rw [(e.recast_recovered device f _).op] at hop
    have heq := h.same e he hop
    have hwhole : e.Whole := by
      obtain hwhole | hafloat := hstored.entries e he
      · exact hwhole
      · have hrun := hafloat.settled
        rw [heq, hsettled] at hrun
        cases hrun
    rw [record_recovered hwhole (heq ▸ hsettled) hfinal, heq]

/-- All ids on record have been issued. -/
structure Numbered (n : ℕ) (j : Journal) : Prop where
  le : n ≤ j.issuedThrough
  receipts : ∀ e ∈ j.operations, e.record.op ≤ j.issuedThrough
  expired : j.expiredThrough ≤ j.issuedThrough
  retired : ∀ op ∈ j.retiredIds, op ≤ j.issuedThrough

/-- Known ids have been issued. -/
theorem Numbered.le_of_known (h : j.Numbered n) (hop : j.Known op) : op ≤ j.issuedThrough := by
  obtain hop | hop := hop
  · obtain ⟨e, he, rfl⟩ := List.mem_map.1 (get_ne_none.1 hop)
    exact h.receipts e he
  · rw [isRetired, Bool.or_eq_true, decide_eq_true_eq, List.contains_iff_mem] at hop
    exact hop.elim (fun hle => hle.trans h.expired) (h.retired op)

/-- Expiry issues no ids. -/
theorem foldl_expire_issued (j : Journal) (dropped : List JournalEntry)
    (h : ∀ e ∈ dropped, e.record.op ≤ j.issuedThrough)
    (hexpired : j.expiredThrough ≤ j.issuedThrough) :
    (dropped.foldl expire j).issuedThrough = j.issuedThrough ∧
      (dropped.foldl expire j).expiredThrough ≤ j.issuedThrough := by
  induction dropped generalizing j with
  | nil => exact ⟨rfl, hexpired⟩
  | cons e dropped ih =>
    rw [List.forall_mem_cons] at h
    exact ih (j.expire e) h.2 (max_le hexpired h.1)

/-- So does pruning. -/
theorem Numbered.prune (h : j.Numbered n) : j.prune.Numbered n := by
  obtain ⟨dropped, hperm, hsub, -, heq⟩ := j.prune_eq
  have hdropped : ∀ e ∈ dropped, e.record.op ≤ j.issuedThrough := fun e he =>
    h.receipts e (hperm.mem_iff.2 (List.mem_append_left _ he))
  obtain ⟨hissued, hexpired⟩ := foldl_expire_issued j dropped hdropped h.expired
  have hissued' : j.prune.issuedThrough = j.issuedThrough := by
    rw [heq]
    exact hissued
  have hexpired' : j.prune.expiredThrough ≤ j.issuedThrough := by
    rw [heq]
    exact hexpired
  have hretired : j.prune.retiredIds = j.retiredIds := by
    rw [heq]
    exact (foldl_expire_frame j dropped).2.2.2.2.1
  rw [← hissued'] at hexpired'
  exact ⟨hissued' ▸ h.le, fun e he => hissued' ▸ h.receipts e (hsub.subset he), hexpired',
    hretired ▸ hissued' ▸ h.retired⟩

theorem le_getD_max? {l : List ℕ} {a : ℕ} (h : a ∈ l) : a ≤ (l.max?).getD 0 := by
  obtain ⟨m, hm⟩ := Option.isSome_iff_exists.1 (List.isSome_max?_of_mem h)
  rw [hm, Option.getD_some]
  exact (List.max?_eq_some_iff.1 hm).2 a h

/-- A journal of an older version has its ids issued. -/
theorem Numbered.upgrade (h : j.Numbered n) : j.upgrade.Numbered n := by
  refine ⟨?_, fun e he => ?_, le_max_right _ _, by simp [Journal.upgrade]⟩
  · exact h.le.trans ((le_max_right _ _).trans (le_max_left _ _))
  · have hmem : e.record.op ∈ j.operations.map (·.record.op) := List.mem_map.2 ⟨e, he, rfl⟩
    exact (le_getD_max? hmem).trans ((le_max_left _ _).trans (le_max_left _ _))

/-- That ids have been issued is inherited. -/
theorem heritable_numbered (n : ℕ) : Heritable (fun _ => False) (Numbered n) where
  known _ _ _ := False.elim
  touches _ _ htouches h := by
    refine ⟨h.le.trans htouches.issuedThrough, fun e' he' => ?_, ?_, ?_⟩
    · obtain ⟨e, he, heq⟩ := htouches.mem he'
      rw [heq]
      exact (h.receipts e he).trans htouches.issuedThrough
    · rw [htouches.expiredThrough]
      exact h.expired.trans htouches.issuedThrough
    · rw [htouches.retiredIds]
      exact fun op hop => (h.retired op hop).trans htouches.issuedThrough
  prune _ h := h.prune
  insert j entry _ h := by
    have hle : j.issuedThrough ≤ (j.insert entry).issuedThrough := le_max_left _ _
    refine ⟨h.le.trans hle, fun e he => ?_, h.expired.trans hle, fun op hop =>
      (h.retired op hop).trans hle⟩
    obtain rfl | he := mem_insert he
    · exact le_max_right _ _
    · exact (h.receipts e he).trans hle
  migrate _ h := h.upgrade.prune
  recover device f j hstored h := by
    have hissued : (recoverJournal device f j).issuedThrough = j.issuedThrough := by
      simp only [recoverJournal, fenceUnresolved_eq hstored.projection]
    have hexpired : (recoverJournal device f j).expiredThrough = j.expiredThrough := by
      simp only [recoverJournal, fenceUnresolved_eq hstored.projection]
    have hretired : (recoverJournal device f j).retiredIds = j.retiredIds := by
      simp only [recoverJournal, fenceUnresolved_eq hstored.projection]
    refine ⟨hissued ▸ h.le, fun e' he' => ?_, hexpired ▸ hissued ▸ h.expired, hretired ▸
      hissued ▸ h.retired⟩
    rw [operations_recoverJournal hstored] at he'
    obtain ⟨e, he, rfl⟩ := List.mem_map.1 he'
    rw [hissued, (e.recast_recovered device f _).op]
    exact h.receipts e he

end Journal

/-! ## Ids -/

section Runs

variable {w w' w₁ : World} {up up' : Bool} {granted : List ℕ} {tape tape' : List Answer}

theorem dispatches_nodup_of_nil (h : w.effects = []) : w.dispatches.Nodup := by
  rw [World.dispatches, h]
  exact List.nodup_nil

/-- A run is one that goes on from a first installation. -/
theorem Run.initial (hrun : Run up w granted) : ∃ file, Leads false (.initial file) up w := by
  induction hrun with
  | start file => exact ⟨file, .refl⟩
  | job _ env job hup h ih =>
    obtain ⟨file, hleads⟩ := ih
    exact ⟨file, hleads.job env job hup h⟩
  | crash _ env job hup h ih =>
    obtain ⟨file, hleads⟩ := ih
    exact ⟨file, hleads.crash env job hup h⟩

/-- What an empty journal has, and all steps keep, every run has. -/
theorem Run.descends {P : Journal → Prop} (hrun : Run up w granted)
    (hP : Journal.Heritable (fun _ => False) P) (hempty : P .empty) :
    P w.disk ∧ w.dispatches.Nodup ∧ (up → P w.store.journal) := by
  obtain ⟨file, hleads⟩ := hrun.initial
  have hstart : Descends (fun _ => False) P (.initial file) (.initial file) :=
    .refl hempty (dispatches_nodup_of_nil rfl)
  obtain ⟨⟨-, hdescends⟩, hserves⟩ := hleads.descends hP ⟨down_initial file, hstart⟩ (by simp)
  exact ⟨hdescends.disk, hdescends.once, fun hup => (hserves hup).2.store⟩

/-- In every run all known ids have been issued. -/
theorem Run.numbered (hrun : Run up w granted) :
    w.disk.Numbered 0 ∧ (up → w.store.journal.Numbered 0) := by
  have hempty : Journal.empty.Numbered 0 :=
    ⟨Nat.zero_le _, by simp [Journal.empty], le_rfl, by simp [Journal.empty]⟩
  obtain ⟨hdisk, -, hstore⟩ := hrun.descends (Journal.heritable_numbered 0) hempty
  exact ⟨hdisk, hstore⟩

/-- In every run no phase is dispatched twice. -/
theorem Run.once (hrun : Run up w granted) : w.dispatches.Nodup :=
  (hrun.descends (P := fun _ => True) ⟨by simp, by simp, by simp, by simp, by simp, by simp⟩
    trivial).2.1

/-- An id that is handed out is the next one, on disk as in memory. -/
theorem issued_spec {id : OperationId}
    (h : issueOperationIdDirect tape w = .done (.ok id) tape' w') :
    w.fault = false ∧ id = w.store.journal.issuedThrough + 1 ∧ id < 2 ^ 64 ∧
      w'.effects = w.effects ∧ w'.disk = w'.store.journal ∧
      w'.store.journal = { w.store.journal with issuedThrough := id } := by
  have hsafe :
      issueOperationIdDirect.Safe (fun result w' => ∀ id, result = .ok id → w.fault = false ∧
        id = w.store.journal.issuedThrough + 1 ∧ id < 2 ^ 64 ∧ w'.effects = w.effects ∧
        w'.disk = w'.store.journal ∧
        w'.store.journal = { w.store.journal with issuedThrough := id }) (fun _ => True) w := by
    refine .get_bind ?_
    dsimp only
    split_ifs with hrefused
    · exact .pure (by simp)
    · simp only [Bool.or_eq_true, decide_eq_true_eq, not_or, Bool.not_eq_true, not_le] at hrefused
      refine .bind (safe_writeAtomic trivial fun result => ?_)
      by_cases hresult : result = .written
      · subst hresult
        rw [if_neg (not_not.2 rfl)]
        refine .modify_bind (.pure fun id hid => ?_)
        obtain rfl := Except.ok.inj hid
        exact ⟨hrefused.1, rfl, hrefused.2, rfl, rfl, rfl⟩
      · rw [if_pos hresult]
        exact .bind (safe_freezeStorageFault (.pure (by simp)))
  have htape := hsafe tape
  rw [h] at htape
  exact htape id rfl

/-- Handing out an id goes on with a run. -/
theorem Run.issue {id : OperationId} (hrun : Run true w granted)
    (h : issueOperationIdDirect tape w = .done (.ok id) tape' w') :
    ∃ granted', Run true w' granted' := by
  have hjob : Job.issue.run ⟨false, false, false, fun _ => .ok ()⟩ tape w =
      .done true tape' w' := by
    change Prog.bind issueOperationIdDirect _ tape w = _
    rw [Prog.bind, h]
    rfl
  exact ⟨_, hrun.job _ .issue (.inr rfl) hjob⟩

/-- An id that is handed out was not known before. -/
theorem Run.issued_new {id : OperationId} (hrun : Run true w granted)
    (hissue : issueOperationIdDirect tape w = .done (.ok id) tape' w') :
    id < 2 ^ 64 ∧ ¬ w.store.journal.Known id ∧ ∀ e ∈ w.effects, e.op ≠ id := by
  obtain ⟨hfault, hnext, hlt, -⟩ := issued_spec hissue
  have hunknown : ¬ w.store.journal.Known id := fun hknown =>
    Nat.not_succ_le_self _ (hnext ▸ (hrun.numbered.2 rfl).le_of_known hknown)
  exact ⟨hlt, hunknown, fun e he hop => hunknown (hop ▸ ((hrun.safe.2 rfl).idle hfault).known e he)⟩

/-- The ids that are handed out increase over every run, whatever happens between them, and one that
    is handed out was not known before: there is no receipt of it, and nothing was done for it. -/
theorem issued_ids_increase {id : OperationId} (hrun : Run true w granted)
    (hissue : issueOperationIdDirect tape w = .done (.ok id) tape' w₁) :
    (id < 2 ^ 64 ∧ ¬ w.store.journal.Known id ∧ ∀ e ∈ w.effects, e.op ≠ id) ∧
      ∀ {w₂ w₃ : World} {id' : OperationId} {tape₂ tape₃ : List Answer}, Leads true w₁ true w₂ →
        issueOperationIdDirect tape₂ w₂ = .done (.ok id') tape₃ w₃ →
        id < id' ∧ id' < 2 ^ 64 ∧ ¬ w₂.store.journal.Known id' ∧ ∀ e ∈ w₂.effects, e.op ≠ id' := by
  refine ⟨hrun.issued_new hissue, fun {w₂ w₃ id' tape₂ tape₃} hleads hissue' => ?_⟩
  obtain ⟨-, -, -, -, hdisk, hjournal⟩ := issued_spec hissue
  obtain ⟨granted₁, hrun₁⟩ := hrun.issue hissue
  obtain ⟨granted₂, hrun₂⟩ := hrun₁.leads hleads
  -- The id is below the next one of the journal,
  have hnumbered : w₁.store.journal.Numbered id := by
    have h := hrun₁.numbered.2 rfl
    refine ⟨?_, h.receipts, h.expired, h.retired⟩
    rw [hjournal]
  have hserves : Serves (fun _ => False) (Journal.Numbered id) w₁ w₁ :=
    ⟨.refl (hdisk ▸ hnumbered) hrun₁.once, hnumbered⟩
  -- and that stays so over whatever leads on.
  obtain ⟨-, hup⟩ :=
    hleads.descends (Journal.heritable_numbered id) ⟨hrun₁.safe.1, hserves.toDescends⟩
    fun _ => ⟨hrun₁.safe.2 rfl, hserves⟩
  refine ⟨?_, hrun₂.issued_new hissue'⟩
  rw [(issued_spec hissue').2.1]
  exact Nat.lt_succ_of_le (hup rfl).2.store.le

/-! ## Effects and receipts -/

/-- No phase of an operation is dispatched twice, over every run, and an operation that was
    dispatched is known on disk, at every point where Core may crash. -/
theorem dispatched_once (hrun : Run up w granted) :
    w.dispatches.Nodup ∧ ∀ x ∈ w.dispatches, w.disk.Known x.1 :=
  ⟨hrun.once, fun _ hx => hrun.safe.1.grounded.known _ (mem_dispatches.1 hx)⟩

/-- A receipt that is settled on disk stays as it is over every run that goes on, unless it expires,
    and then its id is retired; nothing more is done for its operation. What memory has agrees with
    it, unless storage had failed when it was settled and Core has not been started again since. -/
theorem receipt_stands {e : JournalEntry} {o : PhaseOutcome} (hrun : Run up w granted)
    (he : e ∈ w.disk.operations) (hsettled : e.record.settled = some o) (hfinal : Journal.Final o)
    (hleads : Leads up w up' w') :
    (∀ e' ∈ w'.disk.operations, e'.record.op = e.record.op → e'.record = e.record) ∧
      w'.disk.Known e.record.op ∧ (up' → (up → w.fault = false) ∨ w'.fault = false →
        ∀ e', w'.store.journal.get e.record.op = some e' → e'.record = e.record) ∧
      ∃ notes, w'.effects = notes ++ w.effects ∧ ∀ n ∈ notes, n.op ≠ e.record.op := by
  obtain ⟨hdown, hup⟩ := hrun.safe
  -- Ids are distinct, so that a receipt of this id is this receipt.
  have hholds : w.disk.Holds e.record := by
    refine ⟨.inl (Journal.get_ne_none.2 (List.mem_map.2 ⟨e, he, rfl⟩)), fun e' he' hop => ?_⟩
    exact congrArg _ (List.inj_on_of_nodup_map hdown.grounded.stored.nodup he' he hop)
  have hP := Journal.heritable_holds hsettled hfinal
  have hdescends : Descends (· = e.record.op) (Journal.Holds e.record) w w := .refl hholds hrun.once
  -- Where storage has not failed, memory and disk have it alike,
  have hserves :
      up → w.fault = false → Up w ∧ Serves (· = e.record.op) (Journal.Holds e.record) w w :=
    fun hisUp hfault => ⟨hup hisUp, hdescends, ((hup hisUp).idle hfault).disk ▸ hholds⟩
  -- and where it has, the disk has it until Core is started again.
  have hweathers : up → Up w ∧ Weathers (· = e.record.op) (Journal.Holds e.record) w w := by
    intro hisUp
    cases hfault : w.fault with
    | false => exact ⟨hup hisUp, .inl (hserves hisUp hfault).2⟩
    | true => exact ⟨hup hisUp, .inr ⟨hfault, hdescends⟩⟩
  obtain ⟨⟨-, hlater⟩, hstill⟩ :=
    hleads.keeps (fun env => hP.upheld_weathers env w) ⟨hdown, hdescends⟩ hweathers
  refine ⟨hlater.disk.same, hlater.disk.known, fun hisUp hsound e' hget => ?_, hlater.effects⟩
  obtain ⟨he', hop⟩ := Journal.mem_of_get hget
  have hstore : w'.store.journal.Holds e.record := by
    obtain hfault | hfault := hsound
    · exact ((hleads.descends hP ⟨hdown, hdescends⟩ fun h => hserves h (hfault h)).2 hisUp).2.store
    · obtain h | ⟨hfailed, -⟩ := (hstill hisUp).2
      · exact h.store
      · cases hfault.symm.trans hfailed
  exact hstore.same e' he' hop

/-- What leads on may be followed by jobs. -/
theorem Leads.follow {up'' : Bool} {w'' : World} {env : Env} {jobs : List (Job × List Answer)}
    (hleads : Leads up w up' w') (h : Daemon.follow env up' w' jobs = some (up'', w'')) :
    Leads up w up'' w'' := by
  induction jobs generalizing up' w' with
  | nil =>
    obtain ⟨rfl, rfl⟩ := Prod.mk.inj (Option.some.inj h)
    exact hleads
  | cons next jobs ih =>
    obtain ⟨job, tape⟩ := next
    rw [Daemon.follow] at h
    split_ifs at h with hcan
    have hup : (∃ device, job = .load device) ∨ up' := by
      cases job with
      | load device => exact .inl ⟨device, rfl⟩
      | _ => exact .inr (by simpa [Job.restarts] using hcan)
    split at h
    next hdone => exact ih (hleads.job env job hup hdone) h
    next hcrash => exact ih (hleads.crash env job hup hcrash) h

end Runs

section Examples

/-- An edit whose write is uncertain, and has landed. -/
def oneEdit : List (Job × List Answer) :=
  loaded :: issued 1 (.edit 1 (.toggle .debug true)) (answersTo .unknown true)

/-- Its id is used again, before and after a restart, with another base. -/
def submittedAgain : List (Job × List Answer) :=
  [(.command 1 (.edit 2 (.toggle .debug false)), answersTo .confirmed true), loaded,
    (.command 1 (.edit 2 (.toggle .debug false)), answersTo .confirmed true)]

/-- The id that is handed out next, when the journal can be written. -/
def nextIssued (w : World) : Option (OperationId × World) :=
  match issueOperationIdDirect [.write .written] w with
  | .done (.ok id) _ w' => some (id, w')
  | _ => none

theorem done_of_nextIssued {w w' : World} {id : OperationId} (h : nextIssued w = some (id, w')) :
    ∃ tape', issueOperationIdDirect [.write .written] w = .done (.ok id) tape' w' := by
  rw [nextIssued] at h
  split at h
  next hdone =>
    obtain ⟨rfl, rfl⟩ := Prod.mk.inj (Option.some.inj h)
    exact ⟨_, hdone⟩
  next => cases h

/-- The ids before and after one edit. -/
theorem issued_ids_increase_oneEdit : ∃ w w₁ w₂ w₃, nextIssued w = some (1, w₁) ∧
    follow plainEnv true w₁ ((oneEdit.drop 2) ++ [loaded]) = some (true, w₂) ∧
    nextIssued w₂ = some (2, w₃) ∧
    (¬ w.store.journal.Known 1 ∧ ∀ e ∈ w.effects, e.op ≠ 1) ∧
    1 < 2 ∧ 2 < 2 ^ 64 ∧ ¬ w₂.store.journal.Known 2 ∧ ∀ e ∈ w₂.effects, e.op ≠ 2 := by
  have hran : (follow plainEnv false (.initial (some .default)) [loaded]).any
      (fun x => x.1 && (nextIssued x.2).any fun y =>
      y.1 = 1 && (follow plainEnv true y.2 ((oneEdit.drop 2) ++ [loaded])).any fun z => z.1 &&
        (nextIssued z.2).any fun t => t.1 = 2) := by
    decide +kernel
  obtain ⟨⟨up, w⟩, hfollow, hw⟩ := (Option.any_eq_true _ _).1 hran
  simp only [Bool.and_eq_true, decide_eq_true_eq, Option.any_eq_true] at hw
  obtain ⟨rfl, ⟨id, w₁⟩, hissue, rfl, ⟨up₂, w₂⟩, hfollow₂, rfl, ⟨id', w₃⟩, hissue', rfl⟩ := hw
  obtain ⟨granted, hrun⟩ := (Run.start _).follow hfollow
  obtain ⟨_, hdone⟩ := done_of_nextIssued hissue
  obtain ⟨_, hdone'⟩ := done_of_nextIssued hissue'
  obtain ⟨⟨-, hnew⟩, hlater⟩ := issued_ids_increase hrun hdone
  exact ⟨w, w₁, w₂, w₃, hissue, hfollow₂, hissue', hnew, hlater (Leads.refl.follow hfollow₂) hdone'⟩

/-- The edit is submitted again after it was settled, and its receipt stands. -/
theorem receipt_stands_submittedAgain :
    ∃ w w', follow plainEnv false (.initial (some .default)) oneEdit = some (true, w) ∧
    follow plainEnv true w submittedAgain = some (true, w') ∧
    (∀ e' ∈ w'.disk.operations, e'.record.op = 1 →
      e'.record = ⟨1, [⟨.persist, .unknown⟩], some .unknown⟩) ∧
    (∀ e', w'.store.journal.get 1 = some e' →
      e'.record = ⟨1, [⟨.persist, .unknown⟩], some .unknown⟩) ∧
    ∃ notes, w'.effects = notes ++ w.effects ∧ ∀ n ∈ notes, n.op ≠ 1 := by
  have hran : (follow plainEnv false (.initial (some .default)) oneEdit).any (fun x => x.1 &&
      !x.2.fault && x.2.disk.operations.map (·.record) =
        [⟨1, [⟨.persist, .unknown⟩], some .unknown⟩] &&
      (follow plainEnv true x.2 submittedAgain).any fun y => y.1) := by
    decide +kernel
  obtain ⟨⟨up, w⟩, hfollow, hw⟩ := (Option.any_eq_true _ _).1 hran
  simp only [Bool.and_eq_true, Bool.not_eq_true', decide_eq_true_eq, Option.any_eq_true] at hw
  obtain ⟨⟨⟨rfl, hfault⟩, hrecords⟩, ⟨up', w'⟩, hfollow', rfl⟩ := hw
  obtain ⟨granted, hrun⟩ := (Run.start _).follow hfollow
  obtain ⟨e, he, hrecord⟩ :
      ∃ e ∈ w.disk.operations, e.record = ⟨1, [⟨.persist, .unknown⟩], some .unknown⟩ :=
    List.mem_map.1 (hrecords ▸ List.mem_singleton_self _)
  obtain ⟨hdisk, -, hmemory, hnotes⟩ :=
    receipt_stands hrun he (o := .unknown) (by rw [hrecord]) (.inr (.inr rfl))
    (Leads.refl.follow hfollow')
  rw [hrecord] at hdisk hmemory hnotes
  exact ⟨w, w', hfollow, hfollow', hdisk, hmemory rfl (.inl fun _ => hfault), hnotes⟩

/-- The edit is submitted again, and nothing is dispatched again. -/
theorem dispatched_once_submittedAgain :
    ∃ w, follow plainEnv false (.initial (some .default)) (oneEdit ++ submittedAgain) =
    some (true, w) ∧ w.dispatches = [(1, .persist)] ∧ w.dispatches.Nodup ∧
      ∀ x ∈ w.dispatches, w.disk.Known x.1 := by
  have hran : (follow plainEnv false (.initial (some .default)) (oneEdit ++ submittedAgain)).any
      (fun x =>
      x.1 && x.2.dispatches = [(1, .persist)]) := by
    decide +kernel
  obtain ⟨⟨up, w⟩, hfollow, hw⟩ := (Option.any_eq_true _ _).1 hran
  simp only [Bool.and_eq_true, decide_eq_true_eq] at hw
  obtain ⟨rfl, hdispatches⟩ := hw
  obtain ⟨granted, hrun⟩ := (Run.start _).follow hfollow
  exact ⟨w, hfollow, hdispatches, dispatched_once hrun⟩

end Examples

end VpnHide.Daemon

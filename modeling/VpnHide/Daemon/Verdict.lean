import VpnHide.Daemon.Naming

/-!
# The verdict on an operation

Wherever an operation crashes, its receipt on disk tells what was done for it (`Recorded`). A
restart reads the config file and the files of Zygisk, and comes to a verdict on each phase
(`Verdict`): one that was dispatched is never forgotten, it is Confirmed only with proof, and
what stays Unknown is held.
-/

namespace VpnHide.Daemon

open Lib Config

variable {d : Departure} {w w₀ w' : World} {op : OperationId} {e entry : JournalEntry} {j : Journal}
  {s : ConfigStore} {env : Env} {r : Request} {o : PlanOutcome} {hk : Hook}
  {readback : Bool} {device : Device}

/-! ## What is on record -/

/-- The receipt of an operation tells what was done for it. -/
structure Recorded (w : World) (e : JournalEntry) : Prop where
  persist : ⟨.persist, .confirmed⟩ ∈ e.record.phases → e.proof.matches w.file
  confirmed : ∀ p, p ≠ .persist → ⟨p, .confirmed⟩ ∈ e.record.phases →
    .phase e.record.op p (some .confirmed) ∈ w.effects ∨
      (p = .native ∧ e.candidate = none ∧ .revocation e.record.op (some true) ∈ w.effects)
  dispatched : ∀ p o, .phase e.record.op p o ∈ w.effects → ∃ x, ⟨p, x⟩ ∈ e.record.phases ∧
    (x = .running ∨ x = .unknown ∨ .phase e.record.op p (some x) ∈ w.effects)
  /-- A repair without a config dispatches no phase, and revokes a grant. -/
  repair : e.candidate = none → (∀ p o, .phase e.record.op p o ∉ w.effects) ∧
    (w.disk.zygiskRevocation.bind (·.operation) = some e.record.op →
      w.disk.revocationUncertain = false → .revocation e.record.op (some true) ∈ w.effects)
  supersededBy : e.supersededBy = none
  supersededPhases : e.supersededPhases = []

/-- What the journal on disk tells of an operation. -/
def World.Reports (w : World) (op : OperationId) : Prop :=
  ∀ e ∈ w.disk.operations, e.record.op = op → Recorded w e

/-- The reports depend on the files and effects only. -/
theorem World.Reports.congr (h : w.Reports op) (hfile : w'.file = w.file)
    (heffects : w'.effects = w.effects) (hdisk : w'.disk = w.disk) : w'.Reports op := by
  intro e he hop
  obtain ⟨hpersist, hconfirmed, hdispatched, hrepair, hby, hphases⟩ := h e (hdisk ▸ he) hop
  rw [← hfile] at hpersist
  rw [← heffects] at hconfirmed hdispatched hrepair
  rw [← hdisk] at hrepair
  exact ⟨hpersist, hconfirmed, hdispatched, hrepair, hby, hphases⟩

/-- Nothing is reported of what is not known. -/
theorem reports_of_not_known (h : ¬ w.disk.Known op) : w.Reports op := fun e he hop =>
  absurd (.inl (Journal.get_ne_none.2 (List.mem_map.2 ⟨e, he, hop⟩))) h

/-! ## In flight -/

/-- The proof of a receipt is about the target. -/
theorem Own.proof_matches (h : Own d.op e) : e.proof.matches d.op.target := by
  rw [JournalEntry.proof_matches h.candidate, h.command, Operation.target]
  simp only [Option.some.injEq, d.reset]

/-- A receipt in flight shows what was dispatched. -/
theorem Ready.recorded (h : Ready d.trip w w.disk) (haloft : Aloft d.trip w)
    (he : e ∈ w.disk.operations) (hop : e.record.op = d.op.op) : Recorded w e := by
  obtain ⟨hown, hshown, -⟩ := h.eq_own he hop
  change Own d.op e at hown
  change Shown d.op d.start.landed w.landed w.effects e.record.phases at hshown
  refine ⟨fun hp => ?_, fun p _ hp => ?_, fun p o heffect => ?_, fun hnone => ?_, hown.supersededBy,
    hown.supersededPhases⟩
  · have hlanded : w.landed = d.op.admission.commitRevision :: d.start.landed := hshown.persist _ hp
    obtain ⟨hlanded', -⟩ | ⟨-, hfile, -⟩ := haloft.file
    · exact absurd (hlanded.symm.trans hlanded') d.trip.landed_ne
    · rw [hfile]
      exact hown.proof_matches
  · rw [hop]
    obtain hrun | hnot | heffect := hshown.outcome _ hp
    · cases hrun
    · cases hnot
    · exact .inl heffect
  · rw [hop] at heffect ⊢
    obtain ⟨q, hq, rfl, hne⟩ := hshown.dispatched p o heffect
    obtain hrun | hnot | heffect := hshown.outcome _ hq
    · exact ⟨_, hq, .inl hrun⟩
    · exact absurd hnot hne
    · exact ⟨_, hq, .inr (.inr heffect)⟩
  · rw [hown.candidate] at hnone
    cases hnone

/-- In flight an operation is reported. -/
theorem Aloft.reports (h : Aloft d.trip w) (hnew : ¬ d.start.disk.Known d.op.op) :
    w.Reports d.op.op := by
  obtain ⟨hdisk, -⟩ | hready := h.disk
  · exact reports_of_not_known (hdisk ▸ hnew)
  · exact fun e he hop => hready.recorded h he hop

/-- The receipt that settles an operation tells how its phases ended. -/
theorem Landed.recorded (h : Landed d hk o w) (he : Ended d.op o e) : Recorded w e := by
  have hphases : e.record.phases = o.phases := congrArg (·.phases) he.record
  have hop : e.record.op = d.op.op := congrArg (·.op) he.record
  refine ⟨fun hp => ?_, fun p hne hp => ?_, fun p x heffect => ?_, fun hnone => ?_, he.supersededBy,
    he.supersededPhases⟩
  · rw [hphases] at hp
    have hfile := (h.settles (List.any_eq_true.2 ⟨_, hp, by simp⟩)).file
    rw [hfile]
    have htarget : (d.final o).2 = d.op.target := by
      rw [Departure.final]
      cases hchanged : d.op.changed with
      | true => rw [if_pos (h.log.tallies.persisted.2 ⟨hchanged, hp⟩)]
      | false =>
        have hkept : ¬ o.persisted := fun hpersisted => by
          have hch := (h.log.tallies.persisted.1 hpersisted).1
          simp [hchanged] at hch
        rw [if_neg hkept]
        exact (d.unchanged hchanged).1.symm
    rw [htarget]
    exact he.proof_matches
  · rw [hphases] at hp
    rw [hop]
    obtain heffect | ⟨hpersist, -⟩ := (h.log.sure _ hp).confirmed rfl
    · exact .inl heffect
    · exact absurd hpersist hne
  · rw [hop] at heffect ⊢
    rw [hphases]
    obtain ⟨q, hq, rfl⟩ := List.mem_map.1 (h.log.dispatched p x heffect)
    exact ⟨_, hq, .inr ((h.log.sure q hq).dispatched x heffect)⟩
  · rw [he.candidate] at hnone
    cases hnone

/-- A receipt of the operation is not superseded. -/
theorem mem_of_mem_supersede {c : Operation} (he : e ∈ (supersede r c o j).operations)
    (hop : e.record.op = c.op) :
    e ∈ j.operations := by
  rw [supersede] at he
  split_ifs at he
  · obtain ⟨e', he', rfl⟩ := List.mem_map.1 he
    rw [(yields_supersedeEntry c o e').record] at hop
    rwa [supersedeEntry, if_pos hop]
  · exact he

/-- A receipt of an operation that is not a repair tells of its effects. -/
structure Tells (w : World) (entry : JournalEntry) : Prop where
  recorded : Recorded w entry
  candidate : entry.candidate ≠ none

/-- An operation is reported by its receipt. -/
theorem Tells.reports (h : Tells w entry) (hfile : w'.file = w.file)
    (heffects : w'.effects = w.effects) (hop : entry.record.op = op)
    (hdisk : ∀ e ∈ w'.disk.operations, e.record.op = op → e = entry) : w'.Reports op := by
  intro e he hop'
  obtain rfl := hdisk e he hop'
  exact ⟨hfile ▸ h.recorded.persist, heffects ▸ h.recorded.confirmed, heffects ▸
    h.recorded.dispatched, fun hnone => absurd hnone h.candidate, h.recorded.supersededBy,
      h.recorded.supersededPhases⟩

theorem Tells.safe_takeOver {c : Operation} (h : Tells w entry) (hfile : w'.file = w.file)
    (heffects : w'.effects = w.effects) (hop : entry.record.op = c.op)
    (hj : ∀ e ∈ j.operations, e.record.op = c.op → e = entry) (hdisk : w'.disk = j) :
    Prog.Safe (do
      let j' ← Daemon.prune (Daemon.supersede r c o j)
      let s := { s with journal := j', fieldRevisions := j'.fieldRevisions }
      if (← writeAtomic j') ≠ .written then do
        freezeStorageFault { s with journal := j }
        pure (Except.ok c.op : Except SubmitError OperationId)
      else do
        installStore s
        pure (.ok c.op)) (fun _ w' => w'.Reports c.op) (·.Reports c.op) w' := by
  have hsuper : ∀ e ∈ (supersede r c o j).prune.operations, e.record.op = c.op → e = entry :=
    fun e he hop' =>
    hj e (mem_of_mem_supersede (Journal.mem_of_mem_prune he) hop') hop'
  rw [← hdisk] at hj
  refine .bind
    (safe_prune (.bind (safe_writeAtomic (h.reports hfile heffects hop hj) fun result => ?_)))
  by_cases hresult : result = .written
  · subst hresult
    rw [if_neg (not_not.2 rfl)]
    exact .bind (safe_installStore (.pure (h.reports hfile heffects hop hsuper)))
  · rw [if_pos hresult]
    refine .bind (safe_freezeStorageFault (.pure ?_))
    split_ifs
    · exact h.reports hfile heffects hop hsuper
    · exact h.reports hfile heffects hop hj

/-- A settled operation is reported. -/
theorem Landed.safe_settle_reports (h : Landed d hk o w) (hnew : ¬ d.start.disk.Known d.op.op)
    (r : Request) :
    (settle r d.op { d.store with journal := hk.journal } o).Safe (fun _ w' => w'.Reports d.op.op)
      (·.Reports d.op.op) w := by
  obtain ⟨fields, hsettled⟩ := settledJournal_eq d hk.journal o
  have hended := h.sails.carries.ended o
  have hrecorded := h.recorded hended
  have hnodup :
      ((hk.journal.insert (d.op.settledEntry o hk.journal)).operations.map (·.record.op)).Nodup :=
    Journal.nodup_insert h.sails.carries.sound.nodup
  have hmem := hk.journal.entry_mem_insert (d.op.settledEntry o hk.journal)
  rw [settle]
  generalize commitOutcome d.op { d.store with journal := hk.journal } o = s at hsettled ⊢
  rw [hsettled]
  generalize d.op.settledEntry o hk.journal = entry at hended hrecorded hnodup hmem ⊢
  have hop : entry.record.op = d.op.op := congrArg (·.op) hended.record
  -- The receipt is not pruned, and no other one has its name.
  have hpruned : ∀ e ∈ (Journal.prune { hk.journal.insert entry with
      configRevision := (d.final o).1, fieldRevisions :=
    fields }).operations, e.record.op = d.op.op → e = entry :=
    fun e he hop' => by
      have he' := Journal.mem_of_mem_prune he
      exact List.inj_on_of_nodup_map hnodup he' hmem (hop'.trans hop.symm)
  generalize ({ hk.journal.insert entry with
      configRevision := (d.final o).1, fieldRevisions := fields } : Journal) = j
    at hpruned ⊢
  have htells : Tells w entry := ⟨hrecorded, by simp [hended.candidate]⟩
  have hflying := h.aloft.reports hnew
  refine .bind (safe_prune (.bind (safe_writeAtomic (hflying.congr rfl rfl rfl) fun result => ?_)))
  -- A write that fails freezes the store: the settled receipt reports then, or the one before it.
  by_cases hresult : result = .written
  swap
  · rw [if_pos hresult]
    refine .bind (safe_freezeStorageFault (.pure ?_))
    split_ifs
    · exact htells.reports rfl rfl hop hpruned
    · exact hflying.congr rfl rfl rfl
  · subst hresult
    rw [if_neg (not_not.2 rfl)]
    exact htells.safe_takeOver rfl rfl hop hpruned rfl

/-! ## A request -/

/-- A dispatched operation is reported. -/
theorem Embarks.safe_dispatch_reports (h : Embarks d.start d.store readback) (hidle : Idle d.start)
    (hnew : ¬ d.start.disk.Known d.op.op) (r : Request) :
    (dispatch r d.op d.store).Safe (fun _ w' => w'.Reports d.op.op)
    (·.Reports d.op.op) d.start := by
  refine .bind (safe_prune (.bind (safe_installStore ?_)))
  have hfresh := hidle.fresh hnew
  have hlog : Logged d .empty (World.install { d.start with
      pruned := (d.start.file, d.store.journal.insert (admittedEntry d.op)) :: d.start.pruned }
      { d.store with journal := (d.store.journal.insert (admittedEntry d.op)).prune }) :=
    ⟨by simp [PlanOutcome.empty], fun p x hp => absurd rfl (hfresh _ hp), fun _ => rfl,
      PlanOutcome.tallies_empty⟩
  refine .seq (safe_runPlan (h.cruising hidle hnew) hlog rfl (by simp [PlanOutcome.empty]))
    (fun _ haloft => haloft.reports hnew) ?_
  rintro ⟨hk, o⟩ w hlanded
  exact hlanded.safe_settle_reports hnew r

/-- An executed operation is reported. -/
theorem Embarks.safe_execute_reports (h : Embarks w s readback) (hidle : Idle w) (hr : r.Regular)
    (hresources : checkResources env r w.store.journal = .ok ())
    (hedit : isRepair r.edit || r.lease → w.store.journal.persistHeld = false ∨ readback)
    (hnew : ¬ w.disk.Known r.op) :
    Prog.Safe (do
      match ← admitRequest env r readback s with
      | .error error => pure (.error error)
      | .ok (s, c) => dispatch r c s) (fun _ w' => w'.Reports r.op) (·.Reports r.op) w := by
  refine .seq (safe_admitRequest env r readback s w)
    (fun w' heq => heq ▸ reports_of_not_known hnew) ?_
  rintro result w' ⟨rfl, hresult⟩
  cases result with
  | error error => exact .pure (reports_of_not_known hnew)
  | ok admitted =>
    obtain ⟨s', c⟩ := admitted
    obtain ⟨rfl, hadmits⟩ := hresult s' c rfl
    obtain ⟨d, rfl, rfl, rfl⟩ := h.departure hr hadmits hresources hedit
    rw [← hadmits.op] at hnew ⊢
    exact h.safe_dispatch_reports hidle hnew r

/-! ## A repair without a config -/

section Quiet

variable {op : OperationId}

/-- Nothing that is done is a phase. -/
def World.Phaseless (op : OperationId) (w : World) : Prop := ∀ p o, .phase op p o ∉ w.effects

/-- A transition dispatches no phase. -/
theorem safe_persistTransitionJournal_phaseless (h : w.Phaseless op) (j : Journal) :
    (persistTransitionJournal j).Safe (fun _ => World.Phaseless op) (World.Phaseless op) w := by
  refine .get_bind (.bind (safe_writeAtomic h fun result => ?_))
  have hwritten : World.Phaseless op (if result.lands then { w with disk := j } else w) := by
    split_ifs <;> exact h
  generalize (if result.lands then { w with disk := j } else w) = w₁ at hwritten
  split_ifs
  · exact .bind (.get_bind (safe_installStore (.pure hwritten)))
  · exact .bind (safe_freezeStorageFault (.pure hwritten))

/-- A note dispatches no phase. -/
theorem safe_note_phaseless (h : w.Phaseless op) {e : Effect} (he : ∀ op p o, e ≠ .phase op p o)
    {C : World → Prop} :
    (note e).Safe (fun _ => World.Phaseless op) C w :=
  .modify fun p o hmem => (List.mem_cons.1 hmem).elim (fun heq => he op p o heq.symm) (h p o)

/-- A revocation dispatches no phase. -/
theorem safe_revoke_phaseless (h : w.Phaseless op) (j : Journal) :
    (revoke op j).Safe (fun _ => World.Phaseless op) (World.Phaseless op) w := by
  refine .ask_bind h fun answer sameGrant _ => ?_
  cases sameGrant with
  | none => exact .pure h
  | some sameGrant =>
    dsimp only
    split_ifs
    · exact .pure h
    · refine .seq (safe_persistTransitionJournal_phaseless h _) (fun _ => id) ?_
      intro result w₁ h₁
      cases result with
      | refused => exact .pure h₁
      | uncertain landed => exact .pure h₁
      | written =>
        refine .seq (safe_note_phaseless h₁ (by simp)) (fun _ => id) ?_
        intro _ w₂ h₂
        refine .ask_bind h₂ fun answer ok _ => ?_
        refine .seq (safe_note_phaseless h₂ (by simp)) (fun _ => id) ?_
        intro _ w₃ h₃
        exact .seq (safe_persistTransitionJournal_phaseless h₃ _) (fun _ => id) fun _ _ h₄ =>
          .pure h₄

end Quiet

/-- A receipt of a repair, in flight or settled. -/
theorem recorded_revocationEntry {x : PhaseOutcome} {settled : Option PhaseOutcome}
    (hphaseless : w.Phaseless r.op)
    (hconfirmed : x = .confirmed → .revocation r.op (some true) ∈ w.effects)
    (hrevoked : w.disk.zygiskRevocation.bind (·.operation) = some r.op →
      w.disk.revocationUncertain = false → .revocation r.op (some true) ∈ w.effects) :
    Recorded w (revocationEntry r s x settled) := by
  refine ⟨fun hp => ?_, fun p _ hp => ?_, fun p o hp => absurd hp (hphaseless p o),
    fun _ => ⟨hphaseless, hrevoked⟩, rfl, rfl⟩
  · simp [revocationEntry] at hp
  · obtain ⟨rfl, rfl⟩ := PhaseRecord.mk.inj (List.mem_singleton.1 hp)
    exact .inr ⟨rfl, rfl, hconfirmed rfl⟩

/-- A repair in flight is reported. -/
theorem Aloft.reports_repair {h : Idle w} (haloft : Aloft (repairTrip r w h) w')
    (hnew : ¬ w.disk.Known r.op) (huncertain : w.disk.revocationUncertain)
    (hphaseless : w'.Phaseless r.op) : w'.Reports r.op := by
  obtain ⟨hdisk, -⟩ | hready := haloft.disk
  · exact reports_of_not_known (hdisk ▸ hnew)
  · intro e he hop
    have hown : e = revocationEntry r w.store .running none := (hready.eq_own he hop).1
    rw [hown]
    refine recorded_revocationEntry hphaseless (by simp) fun hrevoked hsure => ?_
    exact (hready.revoked hrevoked hsure).resolve_left fun hstart => by
      simp [repairTrip, huncertain] at hstart

/-- A repair is reported. -/
theorem Idle.safe_executeRevocationRepair_reports (h : Idle w) (hnew : ¬ w.disk.Known r.op)
    (huncertain : w.disk.revocationUncertain) :
    (executeRevocationRepair r w.store).Safe (fun _ w' => w'.Reports r.op) (·.Reports r.op) w := by
  obtain ⟨haloft₁, hready₁⟩ := h.ready_repairTrip hnew
  -- Nothing has been done yet in the name of the repair.
  have hphaseless₁ : World.Phaseless r.op { w with
      pruned := (w.file, w.store.journal.insert (revocationEntry r w.store .running none)) ::
        w.pruned } :=
    fun p o hmem => h.fresh hnew _ hmem rfl
  refine .bind
    (safe_prune (.seq ((haloft₁.safe_revoke hready₁).and (safe_revoke_phaseless hphaseless₁ _))
      (fun w' hw' => hw'.1.reports_repair hnew huncertain hw'.2) ?_))
  rintro revocation w' ⟨⟨haloft', hready', -, -, hhalts, hconfirmed⟩, hphaseless'⟩
  have hflying := haloft'.reports_repair hnew huncertain hphaseless'
  -- The receipt says what the phases have come to.
  have hsettled : ∀ w'' : World, w''.effects = w'.effects →
      w''.disk = revocation.journal.insert (revocationEntry r w.store
        (revocation.stop.getD .confirmed) (some (revocation.stop.getD .confirmed))) →
      w''.Reports r.op := by
    intro w'' heffects hdisk e he hop
    have hnodup := @Journal.nodup_insert revocation.journal (revocationEntry r w.store
      (revocation.stop.getD .confirmed) (some (revocation.stop.getD .confirmed)))
        hready'.carries.sound.nodup
    obtain rfl := List.inj_on_of_nodup_map hnodup (hdisk ▸ he) (Journal.entry_mem_insert _ _) hop
    rw [World.Phaseless, ← heffects] at hphaseless'
    refine recorded_revocationEntry hphaseless' (fun hout => ?_) fun hrevoked hsure => ?_
    · rw [heffects]
      refine hconfirmed ?_
      cases hstop : revocation.stop with
      | none => rfl
      | some x =>
        rw [hstop, Option.getD_some] at hout
        subst hout
        obtain hx | hx := hhalts.outcome hstop <;> cases hx
    · rw [hdisk] at hrevoked hsure
      rw [heffects]
      exact (hready'.revoked hrevoked hsure).resolve_left fun hstart => by
        simp [repairTrip, huncertain] at hstart
  refine .get_bind ?_
  -- A store at fault is not written again.
  by_cases hfault : w'.fault = true
  · rw [if_pos hfault]
    exact .pure hflying
  · rw [if_neg hfault]
    refine .bind (safe_writeAtomic hflying fun result => ?_)
    by_cases hresult : result = .written
    · subst hresult
      rw [if_neg (not_not.2 rfl)]
      exact .bind (safe_installStore (.pure (hsettled _ rfl rfl)))
    · rw [if_pos hresult]
      refine .bind (safe_freezeStorageFault (.pure ?_))
      split_ifs
      · exact hsettled _ rfl rfl
      · exact hflying.congr rfl rfl rfl

/-! ## Execution -/

/-- Every request is reported. -/
theorem Up.safe_executeEditOpts_reports (h : Up w) (hr : r.Regular) (hnew : ¬ w.disk.Known r.op) :
    (executeEditOpts env r).Safe (fun _ w' => w'.Reports r.op) (·.Reports r.op) w := by
  have hquiet := reports_of_not_known hnew
  refine .get_bind ?_
  dsimp only
  split
  next => exact .pure hquiet
  next => exact .pure hquiet
  next hdedupe _ =>
    have hidle := h.idle (new_of_dedupe hdedupe).1
    by_cases hrepair : isRevocationRepair r w.store
    · rw [if_pos hrepair]
      simp only [isRevocationRepair, Bool.and_eq_true] at hrepair
      exact hidle.safe_executeRevocationRepair_reports hnew (hidle.disk ▸ hrepair.2)
    · rw [if_neg hrepair]
      split
      next => exact .pure hquiet
      next hresources =>
        by_cases hedit : (isRepair r.edit || r.lease) = true
        · rw [if_pos hedit]
          refine .seq (safe_reconcileHeldPersist w) (fun w' heq => heq ▸ hquiet) ?_
          rintro result w' ⟨rfl, hresult⟩
          cases result with
          | error error => exact .pure hquiet
          | ok reconciled =>
            obtain ⟨readback, s⟩ := reconciled
            have hread := hresult readback s rfl
            exact (hidle.embarks_of_reconciles hread).safe_execute_reports hidle hr hresources
              (fun _ => hread.known) hnew
        · rw [if_neg hedit]
          exact .bind (.pure (hidle.embarks.safe_execute_reports hidle hr hresources
            (fun he => absurd he hedit) hnew))

theorem op_requestOf {command : CoreCommand} (h : requestOf env op command s = .ok r) :
    r.op = op := by
  cases command with
  | edit base edit | reapply base kind =>
    obtain rfl := Except.ok.inj h
    rfl
  | setSuperkey base remember superkey | clearSuperkey base | cleanupLegacy | fullReset capturing
  | importConfig base config cleanupLegacy =>
    simp only [requestOf] at h
    split_ifs at h
    all_goals
      obtain rfl := Except.ok.inj h
      rfl
  | migrateLegacy base mode apply =>
    simp only [requestOf] at h
    cases hmigrated : apply (s.config.getD .default) with
    | error error =>
      rw [hmigrated] at h
      cases h
    | ok config =>
      rw [hmigrated] at h
      change (if _ then _ else _) = _ at h
      split_ifs at h
      obtain rfl := Except.ok.inj h
      rfl
  | prepareSelfTargets base persistOnly prepare =>
    simp only [requestOf] at h
    cases hprepared : prepare s.config with
    | error error =>
      rw [hprepared] at h
      cases h
    | ok edit =>
      rw [hprepared] at h
      obtain rfl := Except.ok.inj h
      rfl

/-- Every command is reported. -/
theorem Up.safe_executeCommand_reports (h : Up w) (op : OperationId) (command : CoreCommand)
    (hnew : ¬ w.disk.Known op) :
    (executeCommand env op command).Safe (fun _ w' => w'.Reports op) (·.Reports op) w := by
  have hquiet := reports_of_not_known hnew
  refine .get_bind ?_
  split_ifs
  · exact .pure hquiet
  split
  next => exact .pure hquiet
  next => exact .pure hquiet
  next hrequest =>
    obtain rfl := op_requestOf hrequest
    exact h.safe_executeEditOpts_reports (regular_requestOf hrequest) hnew

/-! ## The verdict -/

/-- What the config file and the files of Zygisk show of a phase. -/
def Evident (device : Device) (f : Option CanonicalConfig) (e : JournalEntry) (x : PhaseOutcome) :
    ConfigPhase → Prop
  | .persist => x = if e.proof.matches f then .confirmed else .failedKnown
  | .native => x = reconcileNative device e.nativeIntent
  | _ => False

/-- What a restart makes of an operation, by what was done in the world `w`. -/
structure Verdict (device : Device) (w : World) (e : JournalEntry) : Prop where
  settled : e.record.settled ≠ none
  persist : ⟨.persist, .confirmed⟩ ∈ e.record.phases → e.proof.matches w.file
  confirmed : ∀ p, p ≠ .persist → ⟨p, .confirmed⟩ ∈ e.record.phases →
    .phase e.record.op p (some .confirmed) ∈ w.effects ∨ Evident device w.file e .confirmed p ∨
      (p = .native ∧ e.candidate = none ∧ .revocation e.record.op (some true) ∈ w.effects)
  dispatched : ∀ p o, .phase e.record.op p o ∈ w.effects → ∃ x, ⟨p, x⟩ ∈ e.record.phases ∧
    (x = .unknown ∨ .phase e.record.op p (some x) ∈ w.effects ∨ Evident device w.file e x p)
  unknown : ∀ p, ⟨p, .unknown⟩ ∈ e.record.phases →
    e.record.settled = some .unknown ∧ p ∈ e.heldPhases

/-- A phase that is looked up is evident. -/
theorem resolvePhase_evident {candidate : CanonicalConfig}
    (hcandidate : e.candidate = some candidate) (p : ConfigPhase) :
    resolvePhase device w.file e candidate p = .unknown ∨
      Evident device w.file e (resolvePhase device w.file e candidate p) p := by
  cases p with
  | persist => exact .inr (JournalEntry.resolvePhase_persist hcandidate)
  | native => exact .inr rfl
  | _ => exact .inl rfl

/-- A phase that stays unknown is held. -/
theorem unknown_held (hwhole : e.Whole) (hby : e.supersededBy = none)
    (hphases : e.supersededPhases = []) {p : ConfigPhase} (hp : ⟨p, .unknown⟩ ∈ e.record.phases) :
    e.record.settled = some .unknown ∧ p ∈ e.heldPhases := by
  have hsettled : e.record.settled = some .unknown := by
    by_contra hsure
    exact hwhole.unknown hsure _ hp rfl
  exact ⟨hsettled, JournalEntry.held_of_unresolved (q := ⟨p, .unknown⟩) hby hsettled hp rfl
    (by simp [hphases])⟩

variable {f : Option ZygiskRevocation}

/-- The verdict on a whole receipt. -/
theorem Recorded.verdict_whole (h : Recorded w e) (hwhole : e.Whole) :
    Verdict device w (e.recovered device w.file f) := by
  have hcast := e.recast_recovered device w.file f
  have hphases := (@JournalEntry.Whole.recovered_cases device w.file f e hwhole).1
  have hwhole' : (e.recovered device w.file f).Whole := hwhole.recovered
  refine ⟨hwhole'.settled, fun hp => ?_, fun p hne hp => ?_, fun p o heffect => ?_, fun p hp => ?_⟩
  · rw [hcast.proof]
    exact h.persist (hphases ▸ hp)
  · rw [hcast.op, hcast.candidate]
    exact (h.confirmed p hne (hphases ▸ hp)).imp_right .inr
  · rw [hcast.op] at heffect ⊢
    rw [hphases]
    obtain ⟨x, hx, rfl | hunknown | hdone⟩ := h.dispatched p o heffect
    · exact absurd rfl (hwhole.running _ hx)
    · exact ⟨x, hx, .inl hunknown⟩
    · exact ⟨x, hx, .inr (.inl hdone)⟩
  · exact unknown_held hwhole' (hcast.supersededBy.trans h.supersededBy)
      (hcast.supersededPhases.trans h.supersededPhases) hp

/-- What is evident before a restart is evident after it. -/
theorem evident_recovered {x : PhaseOutcome} {p : ConfigPhase} :
    Evident device w.file (e.recovered device w.file f) x p ↔ Evident device w.file e x p := by
  have hcast := e.recast_recovered device w.file f
  cases p with
  | persist => simp only [Evident, hcast.proof]
  | native => simp only [Evident, hcast.nativeIntent]
  | _ => rfl

/-- A phase in flight, after the evidence. -/
theorem resolved_cases {candidate : CanonicalConfig} (hcandidate : e.candidate = some candidate)
    (q : PhaseRecord) :
    (JournalEntry.resolved device w.file e candidate q = q ∧ q.outcome ≠ .running ∧
      q.outcome ≠ .unknown) ∨
      ∃ x, JournalEntry.resolved device w.file e candidate q = ⟨q.phase, x⟩ ∧
        (x = .unknown ∨ Evident device w.file e x q.phase) := by
  rw [JournalEntry.resolved]
  split_ifs with hpending
  · exact .inr ⟨_, rfl, resolvePhase_evident hcandidate q.phase⟩
  · exact .inl ⟨rfl, not_or.1 hpending⟩

theorem mem_of_mem_fenced {p : ConfigPhase} {x : PhaseOutcome} {phases : List PhaseRecord}
    (hx : x ≠ .unknown) (hp : ⟨p, x⟩ ∈ phases.map JournalEntry.fenced) : ⟨p, x⟩ ∈ phases := by
  obtain ⟨q, hq, heq⟩ := List.mem_map.1 hp
  rw [JournalEntry.fenced] at heq
  split_ifs at heq
  · exact absurd (PhaseRecord.mk.inj heq).2.symm hx
  · exact heq ▸ hq

/-- The verdict on a receipt in flight. -/
theorem Recorded.verdict_afloat (h : Recorded w e) (hafloat : e.Afloat) :
    Verdict device w (e.recovered device w.file w.disk.zygiskRevocation) := by
  have hcast := e.recast_recovered device w.file w.disk.zygiskRevocation
  have hwhole : (e.recovered device w.file w.disk.zygiskRevocation).Whole := hafloat.recovered
  have hunknown := fun p => @unknown_held _ hwhole (hcast.supersededBy.trans h.supersededBy)
    (hcast.supersededPhases.trans h.supersededPhases) p
  obtain ⟨hrepair, hop, hsure, hphases, -⟩ | ⟨hnone, hphases, -⟩ |
      ⟨candidate, hcandidate, hphases, -⟩ :=
    @JournalEntry.Afloat.recovered_cases device w.file w.disk.zygiskRevocation e hafloat
  · -- the revocation of a repair was confirmed
    have hnone := JournalEntry.candidate_of_isRevocationOnlyRepair hrepair
    obtain ⟨hphaseless, hrevoked⟩ := h.repair hnone
    refine ⟨hwhole.settled, fun hp => ?_, fun p _ hp => .inr (.inr ?_),
      fun p o heffect => ?_, hunknown⟩
    · simp [hphases] at hp
    · rw [hphases] at hp
      obtain ⟨rfl, -⟩ := PhaseRecord.mk.inj (List.mem_singleton.1 hp)
      rw [hcast.op, hcast.candidate]
      refine ⟨rfl, hnone, hrevoked hop ?_⟩
      rw [Journal.revocationUncertain]
      exact hsure
    · rw [hcast.op] at heffect
      exact absurd heffect (hphaseless p o)
  · -- there is no evidence for one
    refine ⟨hwhole.settled, fun hp => ?_, fun p hne hp => ?_, fun p o heffect => ?_, hunknown⟩
    · rw [hcast.proof]
      exact h.persist (mem_of_mem_fenced (by simp) (hphases ▸ hp))
    · rw [hcast.op, hcast.candidate]
      exact (h.confirmed p hne (mem_of_mem_fenced (by simp) (hphases ▸ hp))).imp_right .inr
    · rw [hcast.op] at heffect
      exact absurd heffect ((h.repair hnone).1 p o)
  · have hresolved := fun q => @resolved_cases w e device candidate hcandidate q
    refine ⟨hwhole.settled, fun hp => ?_, fun p hne hp => ?_, fun p o heffect => ?_, hunknown⟩
    · rw [hphases] at hp
      rw [hcast.proof]
      obtain ⟨q, hq, heq⟩ := List.mem_map.1 hp
      obtain ⟨hsame, -⟩ | ⟨x, hx, hevident⟩ := hresolved q
      · rw [hsame] at heq
        exact h.persist (heq ▸ hq)
      · rw [hx] at heq
        obtain ⟨hphase, rfl⟩ := PhaseRecord.mk.inj heq
        rw [hphase] at hevident
        obtain hevident | hevident := hevident
        · cases hevident
        · by_contra hmiss
          simp [Evident, hmiss] at hevident
    · rw [hphases] at hp
      rw [hcast.op, hcast.candidate, evident_recovered]
      obtain ⟨q, hq, heq⟩ := List.mem_map.1 hp
      obtain ⟨hsame, -⟩ | ⟨x, hx, hevident⟩ := hresolved q
      · rw [hsame] at heq
        exact (h.confirmed p hne (heq ▸ hq)).imp_right .inr
      · rw [hx] at heq
        obtain ⟨rfl, rfl⟩ := PhaseRecord.mk.inj heq
        exact .inr (.inl (hevident.resolve_left (by simp)))
    · rw [hcast.op] at heffect ⊢
      rw [hphases]
      obtain ⟨x, hx, hdone⟩ := h.dispatched p o heffect
      have hmem :=
        List.mem_map.2 ⟨_, hx, (rfl : JournalEntry.resolved device w.file e candidate ⟨p, x⟩ = _)⟩
      obtain ⟨hsame, hrun, hsure⟩ | ⟨y, hy, hevident⟩ := hresolved ⟨p, x⟩
      · rw [hsame] at hmem
        exact ⟨x, hmem, .inr (.inl ((hdone.resolve_left hrun).resolve_left hsure))⟩
      · rw [hy] at hmem
        refine ⟨y, hmem, hevident.imp_right fun hevident => .inr ?_⟩
        rw [evident_recovered]
        exact hevident

/-- The verdict of a restart. -/
theorem World.Reports.verdict (h : w.Reports op) (hstored : w.disk.Stored)
    (he : e ∈ (w.reloadedJournal device).operations) (hop : e.record.op = op) :
    Verdict device w e := by
  rw [World.reloadedJournal, Journal.operations_recoverJournal hstored.upgrade.prune] at he
  obtain ⟨e, hmem, rfl⟩ := List.mem_map.1 he
  rw [(e.recast_recovered device w.file _).op] at hop
  have hdisk : e ∈ w.disk.operations := Journal.mem_of_mem_prune (j := w.disk.upgrade) hmem
  have hrecorded := h e hdisk hop
  have hrevocation : w.disk.upgrade.prune.zygiskRevocation = w.disk.zygiskRevocation :=
    w.disk.upgrade.zygiskRevocation_prune
  rw [hrevocation]
  obtain hwhole | hafloat := hstored.entries e hdisk
  · exact hrecorded.verdict_whole hwhole
  · exact hrecorded.verdict_afloat hafloat

/-- Wherever a command crashes, and also where it ends, a restart comes to a verdict on its
    operation: what was dispatched is known, Confirmed has its proof, and what is uncertain is
    held. -/
theorem restart_verdict {granted : List ℕ} {command : CoreCommand} {env' : Env}
    {tape tape' tape'' : List Answer} {w'' : World} (hrun : Run true w granted)
    (hnew : ¬ w.disk.Known op)
    (hended : (executeCommand env op command tape w).state = w')
    (hload : loadWithJournal env' device tape' w' = .done true tape'' w'') :
    (∀ p o, .phase op p o ∈ w'.effects → w''.store.journal.Known op) ∧
      ∀ e ∈ w''.store.journal.operations, e.record.op = op → Verdict device w' e ∧
        ∀ p, ⟨p, .unknown⟩ ∈ e.record.phases → p ∈ w''.store.journal.heldResources := by
  have hup : Up w := hrun.safe.2 rfl
  -- Wherever the command has ended or crashed, the disk reports what was done.
  have hreports : w'.Reports op :=
    hended ▸ (hup.safe_executeCommand_reports op command hnew).state tape
  have hdown : Down w' := hended ▸
    ((hup.safe_executeCommand op command).mono (fun _ _ => Up.toDown) fun _ => id).state tape
  have hreloaded := hdown.grounded.safe_loadWithJournal env' device tape'
  rw [hload] at hreloaded
  obtain ⟨-, hrewrites, hok⟩ := hreloaded
  obtain ⟨-, hidle, hjournal⟩ := hok rfl
  refine ⟨fun p o heffect => hidle.known (.phase op p o) (hrewrites.effects ▸ heffect),
    fun e he hop => ?_⟩
  have hverdict := hreports.verdict hdown.grounded.stored (hjournal ▸ he) hop
  refine ⟨hverdict, fun p hp => ?_⟩
  -- A phase of unknown end is held by its own receipt.
  rw [Journal.mem_heldResources, Journal.holds]
  simp only [List.mem_append, List.mem_flatMap, or_assoc]
  exact .inr (.inl ⟨e, he, (hverdict.unknown p hp).2⟩)

section Examples

/-- An edit that crashes after its write is dispatched. -/
def cutOff (w : World) : World :=
  (executeCommand plainEnv 1 (.edit 1 (.toggle .debug true)) [.write .written, .fence true] w).state

/-- A command that is cut off, and the restart after it. -/
theorem restart_verdict_cutOff : ∃ w w'' : World,
    follow plainEnv false (.initial (some .default)) [loaded, (.issue, [.write .written])] =
      some (true, w) ∧
    .phase 1 .persist none ∈ (cutOff w).effects ∧ w''.store.journal.Known 1 ∧
    w''.store.journal.operations.map (·.record) =
      [⟨1, [⟨.persist, .failedKnown⟩], some .failedKnown⟩] ∧
    ∀ e ∈ w''.store.journal.operations, e.record.op = 1 → Verdict plainDevice (cutOff w) e := by
  have hran : (follow plainEnv false (.initial (some .default))
      [loaded, (.issue, [.write .written])]).any (fun x =>
      x.1 && (x.2.disk.get 1).isNone && !x.2.disk.isRetired 1 &&
        (.phase 1 .persist none ∈ (cutOff x.2).effects) &&
      (loadWithJournal plainEnv plainDevice [.write .written] (cutOff x.2)).result? = some true &&
      (loadWithJournal plainEnv plainDevice [.write .written]
        (cutOff x.2)).state.store.journal.operations.map
        (·.record) = [⟨1, [⟨.persist, .failedKnown⟩], some .failedKnown⟩]) := by
    decide +kernel
  obtain ⟨⟨up, w⟩, hfollow, hw⟩ := (Option.any_eq_true _ _).1 hran
  simp only [Bool.and_eq_true, decide_eq_true_eq, Option.isNone_iff_eq_none, Bool.not_eq_true']
    at hw
  obtain ⟨⟨⟨⟨⟨rfl, hget⟩, hretired⟩, heffect⟩, hresult⟩, hrecords⟩ := hw
  have hnew : ¬ w.disk.Known 1 := by simp [Journal.Known, hget, hretired]
  obtain ⟨granted, hrun⟩ := (Run.start _).follow hfollow
  cases hload : loadWithJournal plainEnv plainDevice [.write .written] (cutOff w) with
  | crashed w'' => simp [hload, Outcome.result?] at hresult
  | done ok tape'' w'' =>
    rw [hload] at hresult hrecords
    obtain rfl := Option.some.inj hresult
    obtain ⟨hknown, hverdict⟩ := restart_verdict hrun hnew rfl hload
    exact ⟨w, w'', hfollow, heffect, hknown _ _ heffect, hrecords, fun e he hop =>
      (hverdict e he hop).1⟩

end Examples

end VpnHide.Daemon

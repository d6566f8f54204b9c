import VpnHide.Daemon.Admission

/-!
# Executing a request

An operation departs from an idle world with its receipt in memory (`Departure.cruising`), its
plan runs, and it is settled; a repair without a config only finishes a revocation. Whatever
the environment answers, Core is up again at the end, and may be started again from wherever it
crashes (`Up.safe_executeEditOpts`).
-/

namespace VpnHide.Daemon

open Lib Config

variable {t : Trip} {d : Departure} {w w' : World} {s : ConfigStore} {env : Env} {r : Request}
  {c : Operation} {j : Journal} {entry : JournalEntry} {readback : Bool}

/-! ## Departing -/

/-- A new operation starts. -/
theorem Stands.sails (h : Stands t.start t.store.snapshot t.store.journal)
    (hnew : ¬ t.store.journal.Known t.op)
    (hrevocation : t.store.journal.zygiskRevocation = t.start.disk.zygiskRevocation)
    (hw : Rewrites t.start w)
    (hop : entry.record.op = t.op) (hown : t.own entry) (hrun : entry.record.settled = none) :
    Sails t w (t.store.journal.insert entry) := by
  have hops : ∀ e ∈ t.store.journal.operations, e.record.op ≠ entry.record.op := by
    intro e he heq
    exact hnew (.inl (Journal.get_ne_none.2 (List.mem_map.2 ⟨e, he, heq.trans hop⟩)))
  have hsound : (t.store.journal.insert entry).Sound (· = t.op) t.store.configRevision :=
    h.sound.insert le_rfl (fun _ _ => False.elim) (t.own_admitted entry hown) fun hfly =>
      absurd hop hfly
  refine ⟨⟨hsound, ⟨_, entry, Journal.insert_new hops, hop, hrun, hown⟩,
    ⟨rfl, rfl, rfl, rfl, rfl, rfl⟩, fun op hop => .insert (.inr hop)⟩, fun hkept _ => ?_,
    fun hkept => ?_, ?_, fun _ hsure => .inl ?_⟩
  · exact (h.witnessed (hw.kept hkept)).insert hrun fun e he heq => absurd heq (hops e he)
  · exact (h.attempted (hw.kept hkept)).insert hrun
  · exact h.matched.imp_right (·.insert fun e he heq => absurd heq (hops e he))
  · rw [Journal.revocationUncertain, ← hrevocation]
    exact hsure

/-- Nothing is dispatched yet. -/
theorem aloft_start (hw : Rewrites t.start w) (hdisk : w.disk = t.start.disk)
    (hstore : w.store.snapshot = t.store.snapshot) (hlive : w.live = t.start.live)
    (hfresh : ∀ e ∈ t.start.effects, e.op ≠ t.op) (hnames : w.Kept → w.Names) : Aloft t w := by
  have heffects := hw.effects
  exact ⟨.inl ⟨hdisk, hw.landed, hstore, heffects ▸ hfresh⟩, .inl ⟨hw.landed, hw.file⟩, .inl hstore,
    hlive, fun e he => .inl (heffects ▸ he), fun e he => heffects ▸ he, hw.pruned, hnames⟩

/-- The operation is new. -/
theorem Idle.fresh {op : OperationId} (h : Idle w) (hnew : ¬ w.disk.Known op) :
    ∀ e ∈ w.effects, e.op ≠ op := by
  rintro e he rfl
  exact hnew (h.disk ▸ h.known e he)

/-- An operation that begins where Core is idle is lawful. -/
theorem Embarks.lawful (h : Embarks d.start d.store readback) (hidle : Idle d.start) :
    d.trip.Lawful :=
  ⟨hidle, fun op hop => (h.known op).1 hop, h.resumes⟩

theorem own_admittedEntry (c : Operation) : Own c (admittedEntry c) :=
  ⟨rfl, rfl, rfl, rfl, rfl, rfl, rfl⟩

/-- The world in which the plan of an operation starts. -/
theorem Embarks.cruising (h : Embarks d.start d.store readback) (hidle : Idle d.start)
    (hnew : ¬ d.start.disk.Known d.op.op) :
    Cruising d ⟨(d.store.journal.insert (admittedEntry d.op)).prune, []⟩ d.op.plan
      (World.install { d.start with
          pruned := (d.start.file, d.store.journal.insert (admittedEntry d.op)) :: d.start.pruned }
        { d.store with journal := (d.store.journal.insert (admittedEntry d.op)).prune }) := by
  set j := d.store.journal.insert (admittedEntry d.op)
  set w : World := d.start.install { d.store with journal := j.prune }
  have hw : Rewrites d.start w := ⟨rfl, rfl, rfl, fun _ => id⟩
  -- Nothing has been done yet in the name of the operation,
  have haloft : Aloft d.trip w :=
    aloft_start (t := d.trip) hw rfl rfl rfl (hidle.fresh hnew) fun hkept =>
    (hidle.names (hw.kept hkept)).install (h.follows (hw.kept hkept))
  have hnew' : ¬ d.store.journal.Known d.op.op := fun hknown => hnew ((h.known _).2 hknown)
  have hsails : Sails d.trip w j := Stands.sails (t := d.trip) h.stands hnew' h.revocation hw rfl
    (own_admittedEntry d.op) rfl
  have hsails' := hsails.prune haloft
  have hfresh := hidle.fresh hnew
  refine ⟨haloft.prune _, hsails', fun hidle' => ⟨hsails', ?_⟩, ⟨[], rfl, by simp, by simp⟩,
    by simp, fun p o hp => absurd rfl (hfresh _ hp), fun _ => rfl⟩
  change Shown d.op d.start.landed d.start.landed d.start.effects (j.prune.phasesOf d.op.op)
  have hmem : admittedEntry d.op ∈ j.prune.operations :=
    Journal.mem_prune_of_running (d.store.journal.entry_mem_insert _) rfl
  have hget : j.prune.get d.op.op = some (admittedEntry d.op) :=
    Journal.get_eq_some hsails'.carries.sound.nodup hmem
  -- and its receipt says so of every phase.
  have hphases : j.prune.phasesOf d.op.op = d.op.plan.map (⟨·, .notAttempted⟩) := by
    rw [Journal.phasesOf, hget]
    rfl
  rw [hphases]
  have hnone : ∀ p o, ⟨p, o⟩ ∈ d.op.plan.map (fun q => (⟨q, .notAttempted⟩ : PhaseRecord)) →
      p ∈ d.op.plan ∧ o = .notAttempted := by
    intro p o hp
    obtain ⟨q, hq, heq⟩ := List.mem_map.1 hp
    obtain ⟨rfl, rfl⟩ := PhaseRecord.mk.inj heq
    exact ⟨hq, rfl⟩
  refine ⟨by simp [Function.comp_def], fun p hp => .inr (.inl (hnone p.phase p.outcome hp).2),
    fun p o hp => absurd rfl (hfresh _ hp), fun o hp => ?_, fun _ => rfl⟩
  obtain ⟨hplan, rfl⟩ := hnone _ _ hp
  refine ⟨rfl, ?_⟩
  -- The file is written only if the config changes.
  by_contra hchanged
  exact hidle' (Bool.eq_true_of_not_eq_false hchanged) hplan

/-- A dispatch keeps the invariant. -/
theorem Embarks.safe_dispatch (h : Embarks d.start d.store readback) (hidle : Idle d.start)
    (hord : d.start.Ordered) (hnew : ¬ d.start.disk.Known d.op.op) (r : Request) :
    (dispatch r d.op d.store).Safe (fun _ => Up) Down d.start := by
  have hlawful := h.lawful hidle
  refine .bind (safe_prune (.bind (safe_installStore ?_)))
  have hcruise := h.cruising hidle hnew
  have hfresh := hidle.fresh hnew
  have hlog : Logged d .empty (World.install { d.start with
      pruned := (d.start.file, d.store.journal.insert (admittedEntry d.op)) :: d.start.pruned }
      { d.store with journal := (d.store.journal.insert (admittedEntry d.op)).prune }) :=
    ⟨by simp [PlanOutcome.empty], fun p x hp => absurd rfl (hfresh _ hp), fun _ => rfl,
      PlanOutcome.tallies_empty⟩
  refine .seq (safe_runPlan hcruise hlog rfl (by simp [PlanOutcome.empty]))
    (fun _ haloft => haloft.down hlawful hord) ?_
  rintro ⟨hk, o⟩ w hlanded
  exact hlanded.safe_settle hlawful hord r

/-! ## Writing a store -/

/-- Storage fails, and memory stays as it is. -/
theorem Down.freeze (h : Down w) : Up (World.install { w with fault := true } w.store) := by
  have hw : Rewrites w (World.install { w with fault := true } w.store) :=
    ⟨rfl, rfl, rfl, fun _ => id⟩
  refine ⟨⟨⟨h.grounded.stored, h.grounded.known, fun hkept => ?_⟩, h.ordered.rewrites hw⟩,
    fun hfault => by cases hfault⟩
  obtain ⟨hnames, r, hresumes⟩ := h.grounded.names hkept
  have hfrozen : World.Names { w with fault := true } := ⟨hnames.pairwise, hnames.store⟩
  exact ⟨hfrozen.install (.refl _), r, hresumes.congr rfl rfl rfl⟩

section Write

variable {α : Type} {a b : α} {Q : α → World → Prop}

/-- The disk names one config. -/
theorem Down.names (h : Down w) (hkept : w.Kept) : w.Names := (h.grounded.names hkept).1

/-- A journal that stands has reached the disk. -/
theorem Down.write (h : Down w) (hstands : Stands w s.snapshot j)
    (hfollows : w.Kept → Follows s.snapshot w.store.snapshot) : Down { w with disk := j } := by
  have hw : Rewrites w { w with disk := j } := ⟨rfl, rfl, rfl, fun _ => id⟩
  exact ⟨(hstands.rewrites hw).grounded rfl
    (fun hkept => ⟨(h.names hkept).pairwise, (h.names hkept).store⟩) hfollows,
    h.ordered.rewrites hw⟩

/-- A write of the journal keeps the invariant. -/
theorem Down.idle_write (h : Down w) (hstands : Stands w s.snapshot s.journal)
    (hfollows : w.Kept → Follows s.snapshot w.store.snapshot) :
    Up (World.install { w with disk := s.journal } s) ∧
      Idle (World.install { w with disk := s.journal } s) := by
  have hw : Rewrites w { w with disk := s.journal } := ⟨rfl, rfl, rfl, fun _ => id⟩
  have hw' : Rewrites w (World.install { w with disk := s.journal } s) :=
    ⟨rfl, rfl, rfl, fun _ => id⟩
  have hidle : Idle (World.install { w with disk := s.journal } s) :=
    (hstands.rewrites hw).idle rfl (fun hkept => ⟨(h.names hkept).pairwise, (h.names hkept).store⟩)
      hfollows
  exact ⟨⟨⟨hidle.grounded, h.ordered.rewrites hw'⟩, fun _ => hidle⟩, hidle⟩

/-- A store that is written before memory takes it over. -/
theorem Down.safe_write (h : Down w) (hstands : Stands w s.snapshot s.journal)
    (hfollows : w.Kept → Follows s.snapshot w.store.snapshot) (ha : ∀ w', Up w' → w'.fault → Q a w')
    (hb : ∀ w', Up w' → Idle w' → w'.store = s → Q b w') :
    Prog.Safe (do
      if (← writeAtomic s.journal) ≠ .written then do
        freezeStorageFault w.store
        pure a
      else do
        installStore s
        pure b) Q Down w := by
  refine .bind (safe_writeAtomic h fun result => ?_)
  by_cases hresult : result = .written
  · subst hresult
    rw [if_neg (not_not.2 rfl)]
    obtain ⟨hup, hidle⟩ := h.idle_write hstands hfollows
    exact .bind (safe_installStore (.pure (hb _ hup hidle rfl)))
  · rw [if_pos hresult]
    refine .bind (safe_freezeStorageFault (.pure (ha _ ?_ rfl)))
    split_ifs
    · exact (h.write hstands hfollows).freeze
    · exact h.freeze

end Write

/-! ## Repairing without a config -/

/-- A repair that only finishes a revocation, from an idle world. -/
def repairTrip (r : Request) (w : World) (h : Idle w) : Trip where
  op := r.op
  own e := e = revocationEntry r w.store .running none
  store := w.store
  start := w
  target := none
  commit := 0
  shows landed _ phases := landed = w.landed ∧ phases = [⟨.native, .running⟩]
  revision := h.revision
  shows_confirmed landed effects phases hshows hp := by
    rw [hshows.2] at hp
    simp at hp
  own_confirmed e hown hconf := by
    rw [hown] at hconf
    cases hconf
  own_admitted e hown := by simp [hown, revocationEntry]
  own_afloat e landed effects hown hrun _ := by
    subst hown
    exact ⟨rfl, by simp [revocationEntry], rfl, rfl, rfl, .inr (by simp [revocationEntry])⟩
  own_landed e effects _ hshows := absurd hshows.1 (List.cons_ne_self _ _)
  own_attempted e landed effects hown hshows hp := by
    rw [hshows.2] at hp
    simp at hp
  shows_note _ _ _ _ hshows _ := hshows

/-- The config is not touched. -/
theorem not_reserved_repairTrip (h : Idle w) : ¬ (repairTrip r w h).Reserved := fun hreserved =>
  absurd hreserved.1 (Nat.not_lt_zero _)

/-- A repair leaves the config alone. -/
theorem Aloft.file_repairTrip {h : Idle w} (haloft : Aloft (repairTrip r w h) w') :
    w'.landed = w.landed ∧ w'.file = w.file ∧ w'.store.snapshot = w.store.snapshot := by
  obtain ⟨hlanded, hfile⟩ | ⟨-, -, hreserved⟩ := haloft.file
  · exact ⟨hlanded, hfile, haloft.snapshot hlanded⟩
  · exact absurd hreserved (not_reserved_repairTrip h)

/-- The receipt of a repair holds no config. -/
theorem not_held_revocationEntry (s : ConfigStore) (outcome : PhaseOutcome)
    (settled : Option PhaseOutcome) :
    ConfigPhase.persist ∉ (revocationEntry r s outcome settled).heldPhases := by
  intro hheld
  obtain ⟨-, -, hmem, -⟩ := JournalEntry.settled_of_held hheld
  simp [revocationEntry] at hmem

/-- The journal that settles the repair stands. -/
theorem Ready.stands_repair {h : Idle w} (hready : Ready (repairTrip r w h) w' j)
    (haloft : Aloft (repairTrip r w h) w') {outcome : PhaseOutcome} (hrun : outcome ≠ .running) :
    Stands w' w.store.snapshot (j.insert (revocationEntry r w.store outcome (some outcome))) := by
  set e := revocationEntry r w.store outcome (some outcome)
  obtain ⟨hlanded, hfile, -⟩ := haloft.file_repairTrip
  -- A repair holds no write of the config.
  have hnot : ConfigPhase.persist ∉ e.heldPhases := not_held_revocationEntry _ _ _
  have hkept : w'.Kept → w.Kept := haloft.kept_start
  have hcarries := hready.carries
  have hwhole : e.Whole := by
    refine ⟨by simp [e, revocationEntry], by simp [e, revocationEntry], fun p hp => ?_,
      fun hne p hp hout => ?_, .inr (.inr (.inr (by simp [e, revocationEntry])))⟩
    · rw [List.mem_singleton.1 hp]
      exact hrun
    · rw [List.mem_singleton.1 hp] at hout
      exact hne (congrArg some hout)
  refine ⟨hcarries.sound.insert le_rfl (fun op hne hfly => hne hfly) (by simp [e, revocationEntry])
    fun _ => ⟨hwhole, fun hconf => by simp [e, revocationEntry, JournalEntry.persistConfirmed]
      at hconf⟩,
    fun e' he' => ?_, fun hk => ?_, ?_, fun hk e' he' hheld => ?_, fun hk => ?_⟩
  · refine .insert ?_
    obtain hold | hnew := haloft.effects e' he'
    · exact .inr (hcarries.known _ (h.known e' hold))
    · exact .inl hnew
  · exact (h.revision (hkept hk)).trans (loadedRevision_congr hcarries.keeps.configRevision).symm
  · rw [hfile]
    exact hready.matched.imp_right (·.insert fun e' he' hop => hcarries.running he' hop)
  · obtain rfl | he' := Journal.mem_insert he'
    · exact absurd hheld hnot
    · exact hready.attempted hk e' he' hheld
  · -- So that what a readback finds is what it found before.
    have hwitnessed : Witnessed w.file w.store.config w.store.configRevision w.landed j :=
      hready.witnessed hk hlanded
    have hholder := @Carries.persistHolder_insert _ w.file _ _ _ hcarries e rfl
    rw [if_neg fun hheld => hnot hheld.1] at hholder
    rw [hfile, hlanded]
    refine hwitnessed.of_readback fun p a hp _ _ => ?_
    rw [Journal.readback_eq] at hp ⊢
    rw [hholder]
    exact hp

/-- A repair that begins where Core is idle is lawful. -/
theorem Idle.lawful_repairTrip (h : Idle w) : (repairTrip r w h).Lawful :=
  ⟨h, fun op hop => (h.disk ▸ hop : w.store.journal.Known op), h.resumes⟩

theorem Halts.getD_ne_running {stop : Option PhaseOutcome} (h : Halts stop) :
    stop.getD .confirmed ≠ .running := by
  obtain rfl | rfl | rfl := h <;> simp

/-- The world of a repair that is about to revoke. -/
theorem Idle.ready_repairTrip (h : Idle w) (hnew : ¬ w.disk.Known r.op) :
    Aloft (repairTrip r w h) { w with
      pruned := (w.file, w.store.journal.insert (revocationEntry r w.store .running none)) ::
        w.pruned } ∧
    Ready (repairTrip r w h) { w with
      pruned := (w.file, w.store.journal.insert (revocationEntry r w.store .running none)) ::
        w.pruned }
      (w.store.journal.insert (revocationEntry r w.store .running none)).prune := by
  have hw : Rewrites w w := ⟨rfl, rfl, rfl, fun _ => id⟩
  have haloft : Aloft (repairTrip r w h) w :=
    aloft_start (t := repairTrip r w h) hw rfl rfl rfl (h.fresh hnew) h.names
  have hsails :
      Sails (repairTrip r w h) w
        (w.store.journal.insert (revocationEntry r w.store .running none)) :=
    Stands.sails (t := repairTrip r w h) h.stands (h.disk ▸ hnew)
      (congrArg (·.zygiskRevocation) h.disk.symm) hw
      rfl rfl rfl
  set entry := revocationEntry r w.store .running none
  have hsails₁ := hsails.prune haloft
  have hmem : entry ∈ (w.store.journal.insert entry).prune.operations :=
    Journal.mem_prune_of_running (w.store.journal.entry_mem_insert _) rfl
  have hget : (w.store.journal.insert entry).prune.get r.op = some entry :=
    Journal.get_eq_some hsails₁.carries.sound.nodup hmem
  refine ⟨haloft.prune _, hsails₁, rfl, ?_⟩
  change Journal.phasesOf _ r.op = _
  rw [Journal.phasesOf, hget]
  rfl

/-- A repair keeps the invariant. -/
theorem Idle.safe_executeRevocationRepair (h : Idle w) (hord : w.Ordered)
    (hnew : ¬ w.disk.Known r.op) :
    (executeRevocationRepair r w.store).Safe (fun _ => Up) Down w := by
  have hlawful : (repairTrip r w h).Lawful := h.lawful_repairTrip
  obtain ⟨haloft₁, hready₁⟩ := h.ready_repairTrip hnew
  refine .bind (safe_prune ?_)
  refine .seq (haloft₁.safe_revoke hready₁) (fun _ haloft' => haloft'.down hlawful hord) ?_
  rintro revocation w' ⟨haloft', hready', hquiet, -, hhalts, -⟩
  have hdown : Down w' := haloft'.down hlawful hord
  have hstands := hready'.stands_repair haloft' hhalts.getD_ne_running
  obtain ⟨-, -, hstore⟩ := haloft'.file_repairTrip
  have hfollows : w'.Kept → Follows w.store.snapshot w'.store.snapshot := fun _ => hstore ▸ .refl _
  refine .get_bind ?_
  by_cases hfault : w'.fault = true
  · rw [if_pos hfault]
    exact .pure ⟨hdown, fun hno => by simp [hfault] at hno⟩
  · rw [if_neg hfault]
    refine @Down.safe_write w'
      { w.store with journal := revocation.journal.insert (revocationEntry r w.store
        (revocation.stop.getD .confirmed) (some (revocation.stop.getD .confirmed))) } _ _ _ _
      hdown hstands hfollows
      (fun _ hup _ => hup) fun _ hup _ _ => hup

/-! ## Executing -/

/-- What is not a duplicate is new. -/
theorem new_of_dedupe {fault : Bool} {op : OperationId} {base : ℕ} {edit : ConfigEdit}
    {intent : CommandIntent} (h : dedupe fault j op base edit intent = none) :
    fault = false ∧ ¬ j.Known op := by
  refine ⟨?_, fun hknown => ?_⟩
  · cases fault with
    | false => rfl
    | true => cases h
  · obtain ⟨answer, hanswer, -⟩ := dedupe_of_known hknown fault base edit intent
    rw [h] at hanswer
    cases hanswer

/-- A request whose store is ready is admitted and executed, or refused. -/
theorem Embarks.safe_execute (h : Embarks w s readback) (hidle : Idle w) (hord : w.Ordered)
    (hr : r.Regular) (hresources : checkResources env r w.store.journal = .ok ())
    (hedit : isRepair r.edit || r.lease → w.store.journal.persistHeld = false ∨ readback)
    (hnew : ¬ w.disk.Known r.op) (hup : Up w) :
    Prog.Safe (do
      match ← admitRequest env r readback s with
      | .error error => pure (.error error)
      | .ok (s, c) => dispatch r c s) (fun _ => Up) Down w := by
  refine .seq (safe_admitRequest env r readback s w) (fun w' heq => heq ▸ hup.toDown) ?_
  rintro result w' ⟨rfl, hresult⟩
  cases result with
  | error error => exact .pure hup
  | ok admitted =>
    obtain ⟨s', c⟩ := admitted
    obtain ⟨rfl, hadmits⟩ := hresult s' c rfl
    obtain ⟨d, rfl, rfl, rfl⟩ := h.departure hr hadmits hresources hedit
    exact h.safe_dispatch hidle hord (hadmits.op ▸ hnew) r

/-- Every request keeps the invariant. -/
theorem Up.safe_executeEditOpts (h : Up w) (hr : r.Regular) :
    (executeEditOpts env r).Safe (fun _ => Up) Down w := by
  refine .get_bind ?_
  dsimp only
  split
  next => exact .pure h
  next => exact .pure h
  next hdedupe _ =>
    obtain ⟨hfault, hnew⟩ := new_of_dedupe hdedupe
    have hidle := h.idle hfault
    rw [← hidle.disk] at hnew
    by_cases hrepair : isRevocationRepair r w.store
    · rw [if_pos hrepair]
      exact hidle.safe_executeRevocationRepair h.ordered hnew
    · rw [if_neg hrepair]
      split
      next => exact .pure h
      next hresources =>
        by_cases hedit : (isRepair r.edit || r.lease) = true
        · rw [if_pos hedit]
          refine .seq (safe_reconcileHeldPersist w) (fun w' heq => heq ▸ h.toDown) ?_
          rintro result w' ⟨rfl, hresult⟩
          cases result with
          | error error => exact .pure h
          | ok reconciled =>
            obtain ⟨readback, s⟩ := reconciled
            have hread := hresult readback s rfl
            exact (hidle.embarks_of_reconciles hread).safe_execute hidle h.ordered hr hresources
              (fun _ => hread.known) hnew h
        · rw [if_neg hedit]
          exact .bind (.pure (hidle.embarks.safe_execute hidle h.ordered hr hresources
            (fun he => absurd he hedit) hnew h))

end VpnHide.Daemon

import VpnHide.Daemon.Flight

/-!
# Transitions in flight

The programs that write the journal while an operation runs, up to the revocation of a grant,
keep the world in flight: wherever they crash it is `Aloft`, and where they end, the journal
they return may be on disk, and shows the same phases as the one that is (`Docked`).
-/

namespace VpnHide.Daemon

open Lib Config

variable {t : Trip} {w w' : World} {j j' : Journal} {C : World → Prop}

/-! ## Memory and disk -/

theorem safe_installStore {s : ConfigStore} {Q : Unit → World → Prop} (h : Q () (w.install s)) :
    (installStore s).Safe Q C w :=
  .modify_bind (.modify h)

/-- A write of the journal in flight. -/
theorem Aloft.safe_writeAtomic (h : Aloft t w) (hj : Ready t w j) :
    (writeAtomic j).Safe (fun result w' => Aloft t w' ∧ Quiet w w' ∧ w'.store = w.store ∧
      (w'.disk = j ∨ (result ≠ .written ∧ w'.disk = w.disk))) (Aloft t) w := by
  refine .ask_bind h fun answer result _ => .modify_bind (.pure ?_)
  cases hlands : result.lands with
  | true => exact ⟨h.write hj, .of_eq rfl (fun _ => id) rfl, rfl, .inl rfl⟩
  | false =>
    refine ⟨h, .refl w, rfl, .inr ⟨fun hresult => ?_, rfl⟩⟩
    rw [hresult] at hlands
    cases hlands

/-- What a receipt changes of the snapshot. -/
theorem snapshot_takeOver (s : ConfigStore) (e : JournalEntry) :
    (takeOver s e).snapshot = s.snapshot ∨
    ∃ a, e.admission = some a ∧ e.persistConfirmed ∧
      (takeOver s e).snapshot = (a.commitRevision, if e.command = some .fullReset then none
        else e.candidate) := by
  rw [takeOver]
  split
  next => exact .inl rfl
  next a ha =>
    by_cases hcond : (e.persistConfirmed && s.configRevision < a.commitRevision) = true
    · rw [if_pos hcond]
      rw [Bool.and_eq_true] at hcond
      exact .inr ⟨a, ha, hcond.1, rfl⟩
    · rw [if_neg hcond]
      exact .inl rfl

/-- Only the operation in flight has a config that is not taken over yet. -/
theorem Carries.foldl_takeOver {op : OperationId} {P : JournalEntry → Prop} {s s' : ConfigStore}
    (h : Carries op P s j) (hs : s.configRevision ≤ s'.configRevision) :
    ∃ e, j.get op = some e ∧ P e ∧ j.operations.foldl takeOver s' = takeOver s' e := by
  obtain ⟨entries, e, hops, hop, -, hP⟩ := h.last
  have hget : j.get op = some e := hop ▸ Journal.get_eq_some h.sound.nodup (by simp [hops])
  refine ⟨e, hget, hP, ?_⟩
  have hnodup := h.sound.nodup
  rw [hops, List.map_append, List.nodup_append] at hnodup
  have hfold : entries.foldl takeOver s' = s' := by
    have hentries : ∀ d ∈ entries, takeOver s' d = s' := by
      intro d hd
      have hne : d.record.op ≠ op := fun heq =>
        hnodup.2.2 d.record.op (List.mem_map.2 ⟨d, hd, rfl⟩) e.record.op (by simp)
          (heq.trans hop.symm)
      rw [takeOver]
      split
      next => rfl
      next a ha =>
        refine if_neg fun hcond => ?_
        rw [Bool.and_eq_true, decide_eq_true_eq] at hcond
        have hle := h.sound.confirmed d (by simp [hops, hd]) hne hcond.1 a ha
        omega
    clear hops hnodup
    induction entries with
    | nil => rfl
    | cons d entries ih =>
      rw [List.forall_mem_cons] at hentries
      rw [List.foldl_cons, hentries.1]
      exact ih hentries.2
  rw [hops, List.foldl_append, hfold]
  rfl

/-- The revision does not go back in flight. -/
theorem Aloft.le_configRevision (h : Aloft t w) :
    t.store.configRevision ≤ w.store.configRevision := by
  obtain heq | ⟨heq, hlanded⟩ := h.store
  · exact (congrArg Prod.fst heq).ge
  · obtain ⟨hlanded', -⟩ | ⟨-, -, hlt⟩ := h.file
    · simp [hlanded] at hlanded'
    · exact hlt.1.le.trans (congrArg Prod.fst heq).ge

/-- Progress is shown in flight. -/
theorem Aloft.safe_publishProgress (h : Aloft t w) (hj : Ready t w j) :
    (publishProgress j).Safe (fun _ w' => Aloft t w' ∧ Quiet w w' ∧ w'.disk = w.disk ∧
      (w'.store.snapshot = w.store.snapshot ∨ ⟨.persist, .confirmed⟩ ∈ j.phasesOf t.op)) C w := by
  set s : ConfigStore := { w.store with journal := j }
  have hle : t.store.configRevision ≤ s.configRevision := h.le_configRevision
  obtain ⟨e, hget, hown, heq⟩ := hj.carries.foldl_takeOver hle
  have htaken : ((takeOver s e).snapshot = w.store.snapshot) ∨
      ((takeOver s e).snapshot = (t.commit, t.target) ∧
        ⟨.persist, .confirmed⟩ ∈ j.phasesOf t.op) := by
    obtain hsame | ⟨a, ha, hconf, hsnapshot⟩ := snapshot_takeOver s e
    · exact .inl hsame
    · obtain ⟨a', ha', hcommit, htarget⟩ := t.own_confirmed e hown hconf
      obtain rfl : a' = a := Option.some.inj (ha'.symm.trans ha)
      refine .inr ⟨hsnapshot.trans (Prod.ext hcommit htarget), ?_⟩
      rw [Journal.phasesOf, hget]
      exact JournalEntry.persistConfirmed_iff.1 hconf
  refine .get_bind (safe_installStore ?_)
  change Aloft t (w.install (j.operations.foldl takeOver s)) ∧ _
  rw [heq]
  refine ⟨h.install ?_, .of_eq rfl (fun _ => id) rfl, rfl, htaken.imp_right (·.2)⟩
  exact htaken.imp_right fun htaken => ⟨htaken.1, t.shows_confirmed _ _ _ hj.shown htaken.2⟩

/-- Storage fails in flight. -/
theorem Aloft.safe_freezeStorageFault (h : Aloft t w) {s : ConfigStore}
    (hs : s.snapshot = w.store.snapshot) :
    (freezeStorageFault s).Safe (fun _ w' => Aloft t w' ∧ Quiet w w' ∧ w'.disk = w.disk) C w :=
  .modify_bind (safe_installStore ⟨h.freeze.install (.inl hs), .of_eq rfl (fun _ => id) rfl, rfl⟩)

/-- A transition in flight. -/
theorem Aloft.safe_persistTransitionJournal (h : Aloft t w) (hj : Ready t w j) :
    (persistTransitionJournal j).Safe (fun result w' => Aloft t w' ∧ Quiet w w' ∧
      (w'.disk = j ∨ (result ≠ .written ∧ w'.disk = w.disk))) (Aloft t) w := by
  refine .get_bind (.seq (h.safe_writeAtomic hj) (fun _ => id) ?_)
  rintro result w' ⟨haloft, hquiet, hstore, hdisk⟩
  split_ifs with hresult
  · refine .seq (haloft.safe_publishProgress (hj.quiet hquiet)) (fun _ => id) ?_
    rintro - w'' ⟨haloft', hquiet', hdisk', -⟩
    exact .pure ⟨haloft', hquiet.trans hquiet',
      .inl (hdisk'.trans (hdisk.resolve_right fun hne => hne.1 hresult))⟩
  · refine .seq (haloft.safe_freezeStorageFault (by rw [hstore])) (fun _ => id) ?_
    rintro - w'' ⟨haloft', hquiet', hdisk'⟩
    refine .pure ⟨haloft', hquiet.trans hquiet', ?_⟩
    rw [hdisk']
    exact hdisk

/-! ## Transitions -/

/-- A world in flight between writes: what is on disk shows the same phases as the journal. -/
structure Docked (t : Trip) (w : World) (j : Journal) : Prop where
  aloft : Aloft t w
  ready : Ready t w j
  disk : Ready t w w.disk
  phases : w.disk.phasesOf t.op = j.phasesOf t.op

/-- What is on disk is docked. -/
theorem Docked.of_disk (h : Aloft t w) (hj : Ready t w j) (hdisk : w.disk = j) : Docked t w j :=
  ⟨h, hj, hdisk ▸ hj, by rw [hdisk]⟩

/-- A journal with the same phases may have reached the disk. -/
theorem Docked.write (h : Docked t w j) (haloft : Aloft t w') (hquiet : Quiet w w')
    (hj : Ready t w j') (hphases : j'.phasesOf t.op = j.phasesOf t.op)
    (hdisk : w'.disk = j' ∨ w'.disk = w.disk) : Docked t w' j' := by
  obtain hdisk | hdisk := hdisk
  · exact .of_disk haloft (hj.quiet hquiet) hdisk
  · exact ⟨haloft, hj.quiet hquiet, hdisk ▸ h.disk.quiet hquiet, by rw [hdisk, h.phases, hphases]⟩

/-- A transition at the dock. -/
theorem Docked.safe_persistTransitionJournal (h : Docked t w j) (hj : Ready t w j')
    (hphases : j'.phasesOf t.op = j.phasesOf t.op) :
    (persistTransitionJournal j').Safe (fun _ w' => Docked t w' j' ∧ Quiet w w') (Aloft t) w := by
  refine (h.aloft.safe_persistTransitionJournal hj).mono ?_ fun _ => id
  rintro result w' ⟨haloft, hquiet, hdisk⟩
  exact ⟨h.write haloft hquiet hj hphases (hdisk.imp_right (·.2)), hquiet⟩

/-- Receipts that are alike are docked as well. -/
theorem Docked.alike (h : Docked t w j) (halike : j.Alike j')
    (hrevoked : j'.zygiskRevocation.bind (·.operation) = some t.op →
      j'.revocationUncertain = false → t.start.disk.revocationUncertain = false ∨
        .revocation t.op (some true) ∈ w.effects) : Docked t w j' :=
  ⟨h.aloft, h.ready.alike halike hrevoked, h.disk,
    h.phases.trans (h.ready.carries.phasesOf_alike halike).symm⟩

/-- An effect is noted at the dock. -/
theorem Docked.safe_note (h : Docked t w j) {e : Effect} (hop : e.op = t.op)
    (he : ∀ op p o, e ≠ .phase op p o) :
    (note e).Safe (fun _ w' => Docked t w' j ∧ Quiet w w' ∧ e ∈ w'.effects) C w := by
  have hquiet : Quiet w { w with effects := e :: w.effects } :=
    ⟨rfl, fun _ => id, [e], rfl, by simpa using he⟩
  refine .modify
    ⟨⟨h.aloft.note hop (h.disk.quiet hquiet), h.ready.quiet hquiet, h.disk.quiet hquiet, h.phases⟩,
    hquiet, List.mem_cons_self⟩

/-- What a phase ends with before it is dispatched. -/
def Halts (stop : Option PhaseOutcome) : Prop :=
  stop = none ∨ stop = some .failedKnown ∨ stop = some .unknown

/-- What a transition leaves: a journal with the same phases. -/
structure Passes (t : Trip) (w : World) (j : Journal) (w' : World) (j' : Journal) : Prop where
  docked : Docked t w' j'
  quiet : Quiet w w'
  phases : j'.phasesOf t.op = j.phasesOf t.op

/-- The revocation is not dispatched before a journal with its intent is on disk. -/
theorem Aloft.safe_revoke (h : Aloft t w) (hready : Ready t w j) :
    (revoke t.op j).Safe
    (fun revocation w' => Aloft t w' ∧ Ready t w' revocation.journal ∧ Quiet w w' ∧
      (Docked t w j → Passes t w j w' revocation.journal) ∧ Halts revocation.stop ∧
      (revocation.stop = none → .revocation t.op (some true) ∈ w'.effects)) (Aloft t) w := by
  refine .ask_bind h fun answer sameGrant _ => ?_
  cases sameGrant with
  | none => exact .pure ⟨h, hready, .refl w, fun hd => ⟨hd, .refl w, rfl⟩, .inr (.inl rfl), by simp⟩
  | some sameGrant =>
    dsimp only
    split_ifs
    · exact .pure ⟨h, hready, .refl w, fun hd => ⟨hd, .refl w, rfl⟩, .inr (.inl rfl), by simp⟩
    · -- the journal with the intent to revoke, and with the outcome
      have halike : ∀ state, j.Alike { j.transferRevocation t.op sameGrant with
          zygiskRevocation := some ⟨some t.op, state⟩ } := fun state =>
        (Journal.alike_transferRevocation j t.op sameGrant).trans
          (Journal.alike_of_eq rfl ⟨rfl, rfl, rfl, rfl, rfl, rfl⟩ rfl rfl rfl rfl)
      have hphases := fun state => hready.carries.phasesOf_alike (halike state)
      have hintent :=
        hready.alike (halike .running)
          (by simp [Journal.revocationUncertain, ZygiskRevocation.uncertain])
      refine .seq (h.safe_persistTransitionJournal hintent) (fun _ => id) ?_
      rintro result w₁ ⟨haloft₁, hquiet₁, hdisk₁⟩
      have hpasses := fun hd : Docked t w j =>
        (⟨hd.write haloft₁ hquiet₁ hintent (hphases .running) (hdisk₁.imp_right (·.2)),
          hquiet₁, hphases .running⟩ :
          Passes t w j w₁ _)
      cases result with
      | refused =>
        exact .pure ⟨haloft₁, hintent.quiet hquiet₁, hquiet₁, hpasses, .inr (.inl rfl), by simp⟩
      | uncertain landed =>
        exact .pure ⟨haloft₁, hintent.quiet hquiet₁, hquiet₁, hpasses, .inr (.inr rfl), by simp⟩
      | written =>
        have hdocked₁ :=
          Docked.of_disk haloft₁ (hintent.quiet hquiet₁) (hdisk₁.resolve_right fun hne => hne.1 rfl)
        refine .seq (hdocked₁.safe_note rfl (by simp)) (fun _ => id) ?_
        rintro - w₂ ⟨hdocked₂, hquiet₂, -⟩
        refine .ask_bind hdocked₂.aloft fun answer ok _ => ?_
        refine .seq (hdocked₂.safe_note rfl (by simp)) (fun _ => id) ?_
        rintro - w₃ ⟨hdocked₃, hquiet₃, hnoted⟩
        have houtcome := (hready.quiet ((hquiet₁.trans hquiet₂).trans hquiet₃)).alike
          (halike (if ok then .confirmed else .unknown)) (by
            cases ok with
            | true => exact fun _ _ => .inr hnoted
            | false => simp [Journal.revocationUncertain, ZygiskRevocation.uncertain])
        refine .seq (hdocked₃.safe_persistTransitionJournal houtcome ?_) (fun _ => id) ?_
        · rw [hphases, hphases]
        · rintro result w₄ ⟨hdocked₄, hquiet₄⟩
          have hquiet := ((hquiet₁.trans hquiet₂).trans hquiet₃).trans hquiet₄
          refine .pure ⟨hdocked₄.aloft, hdocked₄.ready, hquiet,
            fun _ => ⟨hdocked₄, hquiet, hphases _⟩, ?_, ?_⟩
          · dsimp only
            split_ifs
            · exact .inl rfl
            · exact .inr (.inr rfl)
          · intro hstop
            dsimp only at hstop
            split_ifs at hstop with hok
            rw [Bool.and_eq_true] at hok
            obtain ⟨-, rfl⟩ := hok
            exact hquiet₄.mem hnoted

/-- A revocation at the dock. -/
theorem Docked.safe_revoke (h : Docked t w j) :
    (revoke t.op j).Safe
    (fun revocation w' => Passes t w j w' revocation.journal ∧ Halts revocation.stop ∧
      (revocation.stop = none → .revocation t.op (some true) ∈ w'.effects)) (Aloft t) w :=
  (h.aloft.safe_revoke h.ready).mono (fun _ _ ⟨_, _, _, hpasses, hrest⟩ => ⟨hpasses h, hrest⟩)
    fun _ => id

end VpnHide.Daemon

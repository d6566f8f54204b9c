import VpnHide.Daemon.Transitions

/-!
# The phases of an operation

What the receipt on disk shows while a plan runs (`Shown`): every phase that was dispatched is
on record as running, or with the outcome that it had. The hooks around a phase keep this, so
that it holds wherever the phase crashes (`Cruising.safe_runPhase`).
-/

namespace VpnHide.Daemon

open Lib Config

/-! ## What a receipt shows -/

/-- Whether an outcome of the write of the config agrees with what reached the file. -/
def Fits (c : Operation) (before landed : List ℕ) : PhaseOutcome → Prop
  | .confirmed => landed = c.admission.commitRevision :: before
  | .failedKnown => landed = before
  | .notAttempted => landed = before ∧ c.changed = false
  | .running => True
  | .unknown => True

/-- What the records of the phases show of what was done. -/
structure Shown (c : Operation) (before landed : List ℕ) (effects : List Effect)
    (phases : List PhaseRecord) : Prop where
  plan : phases.map (·.phase) = c.plan
  outcome : ∀ p ∈ phases, p.outcome = .running ∨ p.outcome = .notAttempted ∨
    .phase c.op p.phase (some p.outcome) ∈ effects
  dispatched : ∀ p o, .phase c.op p o ∈ effects →
    ∃ q ∈ phases, q.phase = p ∧ q.outcome ≠ .notAttempted
  persist : ∀ o, ⟨.persist, o⟩ ∈ phases → Fits c before landed o
  idle : .persist ∉ c.plan → landed = before

/-- An operation that is admitted, with the store it was admitted to and the world before. -/
structure Departure where
  op : Operation
  store : ConfigStore
  start : World
  revision : start.Kept → store.configRevision = loadedRevision store.config store.journal
  reset : op.reset ↔ op.command = .fullReset
  nodup : op.plan.Nodup
  /-- The config is written first. -/
  head : .persist ∉ op.plan.tail
  /-- The revision of a change is newer than all that may have landed. -/
  commit : op.changed → .persist ∈ op.plan → store.configRevision < op.admission.commitRevision ∧
    (start.Kept → ∀ n ∈ start.landed, n < op.admission.commitRevision)
  /-- Without a change, what is on file is known. -/
  unchanged : op.changed = false → op.target = store.config ∧ op.admission.commitRevision =
    store.configRevision
  file : op.changed = false → .persist ∈ op.plan → start.file = store.config ∧
    (start.Kept → ∀ n ∈ start.landed, n ≤ store.configRevision)

/-- The part of an operation that leaves for the plan. -/
def Departure.trip (d : Departure) : Trip where
  op := d.op.op
  own := Own d.op
  store := d.store
  start := d.start
  target := d.op.target
  commit := d.op.admission.commitRevision
  shows := Shown d.op d.start.landed
  revision := d.revision
  shows_confirmed _ _ _ h hmem := h.persist _ hmem
  own_confirmed e hown _ := by
    refine ⟨d.op.admission, hown.admission, rfl, ?_⟩
    rw [hown.command, hown.candidate, Operation.target]
    simp only [Option.some.injEq, d.reset]
  own_admitted e hown := by simp [hown.admission]
  own_afloat e landed effects hown hrun hshown := by
    refine ⟨hrun, hshown.plan ▸ d.nodup, hown.supersededBy, hown.supersededPhases,
      hown.finalizedUnknown, .inl ?_⟩
    simp [hown.candidate]
  own_landed e effects hown hshown := by
    have hne : d.op.admission.commitRevision :: d.start.landed ≠ d.start.landed :=
      List.cons_ne_self _ _
    have hplan : .persist ∈ e.record.phases.map (·.phase) := by
      rw [hshown.plan]
      by_contra hidle
      exact hne (hshown.idle hidle)
    obtain ⟨⟨phase, o⟩, hp, rfl⟩ := List.mem_map.1 hplan
    have hfits := hshown.persist o hp
    refine ⟨o, hp, ?_, d.op.admission, hown.admission, rfl⟩
    have hmatch : e.proof.matches d.op.target := by
      rw [JournalEntry.proof_matches hown.candidate, hown.command, Operation.target]
      simp only [Option.some.injEq, d.reset]
    cases o with
    | confirmed => exact .inl rfl
    | failedKnown => exact absurd hfits hne
    | notAttempted => exact absurd hfits.1 hne
    | running | unknown => exact .inr ⟨rfl, by simp, hmatch⟩
  own_attempted e landed effects hown hshown hp a ha := by
    obtain rfl := Option.some.inj (hown.admission.symm.trans ha)
    exact (d.unchanged (hshown.persist _ hp).2).2.le
  shows_note landed effects phases e h he := by
    refine ⟨h.plan, fun p hp => ?_, fun p o hmem => ?_, h.persist, h.idle⟩
    · exact (h.outcome p hp).imp_right (Or.imp_right (List.mem_cons_of_mem e))
    · obtain heq | hmem := List.mem_cons.1 hmem
      · exact absurd heq.symm (he _ _ _)
      · exact h.dispatched p o hmem

variable {d : Departure} {w w' : World} {hk : Hook} {p : ConfigPhase} {rest : List ConfigPhase}

/-! ## Between phases -/

/-- The world in flight before the phases `rest`. -/
structure Cruising (d : Departure) (hk : Hook) (rest : List ConfigPhase) (w : World) : Prop where
  aloft : Aloft d.trip w
  sails : Sails d.trip w hk.journal
  /-- Only a receipt of a write that is still ahead must not be on disk yet. -/
  ready : (d.op.changed → .persist ∉ rest) → Ready d.trip w hk.journal
  suffix : ∃ done, d.op.plan = done ++ rest ∧
    (.persist ∈ done → d.op.changed → ∃ x ∈ hk.completed, x.1 = .persist) ∧
    ∀ x ∈ hk.completed, x.1 ∈ done
  completed : ∀ x ∈ hk.completed, x.2 ≠ .notAttempted ∧
    .phase d.op.op x.1 (some x.2) ∈ w.effects ∧
    (x.1 = .persist → Fits d.op d.start.landed w.landed x.2)
  dispatched : ∀ p o, .phase d.op.op p o ∈ w.effects → ∃ x ∈ hk.completed, x.1 = p
  landed : (∀ x ∈ hk.completed, x.1 ≠ .persist) → w.landed = d.start.landed

/-- An outcome is that of a phase that is completed, or the phase is not. -/
theorem Operation.outcomeOf_cases (completed : List (ConfigPhase × PhaseOutcome))
    (p : ConfigPhase) :
    (∃ x ∈ completed, x.1 = p ∧ Operation.outcomeOf completed p = x.2) ∨
      ((∀ x ∈ completed, x.1 ≠ p) ∧ Operation.outcomeOf completed p = .notAttempted) := by
  rw [outcomeOf]
  cases hfind : completed.find? (·.1 = p) with
  | none => exact .inr ⟨fun x hx => by simpa using List.find?_eq_none.1 hfind x hx, rfl⟩
  | some x =>
    exact .inl ⟨x, List.mem_of_find?_eq_some hfind, by simpa using List.find?_some hfind, rfl⟩

/-- What is on record when the phase `p` is dispatched, or when it is completed: `f` gives the
    outcome of the phase itself. -/
theorem Cruising.shown (h : Cruising d hk rest w) {f : ConfigPhase → PhaseOutcome}
    (hf : ∀ q, f q = .running ∨ f q = Operation.outcomeOf hk.completed q)
    (hpersist : d.op.changed → .persist ∈ rest → f .persist = .running) :
    Shown d.op d.start.landed w.landed w.effects (d.op.plan.map fun q => ⟨q, f q⟩) := by
  obtain ⟨done, hplan, hdone, hcompleted⟩ := h.suffix
  have hmem : ∀ q o, ⟨q, o⟩ ∈ d.op.plan.map (fun q => (⟨q, f q⟩ : PhaseRecord)) →
      q ∈ d.op.plan ∧ o = f q := by
    intro q o hq
    obtain ⟨q', hq', heq⟩ := List.mem_map.1 hq
    obtain ⟨rfl, rfl⟩ := PhaseRecord.mk.inj heq
    exact ⟨hq', rfl⟩
  refine ⟨by simp [Function.comp_def], fun q hq => ?_, fun q o hq => ?_,
    fun o ho => ?_, fun hidle => ?_⟩
  · obtain ⟨-, hout⟩ := hmem q.phase q.outcome hq
    rw [hout]
    obtain hrun | hof := hf q.phase
    · exact .inl hrun
    · rw [hof]
      obtain ⟨x, hx, hxq, hxo⟩ | ⟨-, hnone⟩ := Operation.outcomeOf_cases hk.completed q.phase
      · rw [hxo, ← hxq]
        exact .inr (.inr (h.completed x hx).2.1)
      · exact .inr (.inl hnone)
  · obtain ⟨x, hx, rfl⟩ := h.dispatched q o hq
    have hin : x.1 ∈ d.op.plan := hplan ▸ List.mem_append_left _ (hcompleted x hx)
    refine ⟨⟨x.1, f x.1⟩, List.mem_map.2 ⟨x.1, hin, rfl⟩, rfl, ?_⟩
    obtain hrun | hof := hf x.1
    · simp [hrun]
    · obtain ⟨y, hy, -, hyo⟩ | ⟨hnone, -⟩ := Operation.outcomeOf_cases hk.completed x.1
      · rw [hof, hyo]
        exact (h.completed y hy).1
      · exact absurd rfl (hnone x hx)
  · obtain ⟨hin, rfl⟩ := hmem .persist o ho
    obtain hrun | hof := hf .persist
    · rw [hrun]
      trivial
    · obtain ⟨x, hx, hxp, hxo⟩ | ⟨hnone, hnot⟩ := Operation.outcomeOf_cases hk.completed .persist
      · rw [hof, hxo]
        exact (h.completed x hx).2.2 hxp
      · rw [hof, hnot]
        refine ⟨h.landed hnone, Bool.eq_false_iff.2 fun hchanged => ?_⟩
        -- a write that is done is completed, and one ahead is running
        rw [hplan] at hin
        obtain hin | hin := List.mem_append.1 hin
        · obtain ⟨x, hx, hxp⟩ := hdone hin hchanged
          exact hnone x hx hxp
        · have hrun := hpersist hchanged hin
          rw [hof, hnot] at hrun
          cases hrun
  · refine h.landed fun x hx hxp => hidle ?_
    rw [hplan, ← hxp]
    exact List.mem_append_left _ (hcompleted x hx)

/-- A quiet step keeps the cruise. -/
theorem Cruising.quiet (h : Cruising d hk rest w) (hquiet : Quiet w w') (haloft : Aloft d.trip w') :
    Cruising d hk rest w' where
  aloft := haloft
  sails := h.sails.quiet hquiet
  ready hrest := (h.ready hrest).quiet hquiet
  suffix := h.suffix
  completed x hx := by
    obtain ⟨hout, heffect, hfits⟩ := h.completed x hx
    rw [hquiet.landed]
    exact ⟨hout, hquiet.mem heffect, hfits⟩
  dispatched p o hmem := h.dispatched p o (hquiet.phase.1 hmem)
  landed hnone := hquiet.landed.trans (h.landed hnone)

/-- Another journal that shows the same. -/
theorem Cruising.journal (h : Cruising d hk rest w) {hk' : Hook}
    (hcompleted : hk'.completed = hk.completed) (hsails : Sails d.trip w hk'.journal)
    (hready : (d.op.changed → .persist ∉ rest) → Ready d.trip w hk'.journal) :
    Cruising d hk' rest w :=
  ⟨h.aloft, hsails, hready, hcompleted ▸ h.suffix, hcompleted ▸ h.completed, hcompleted ▸
    h.dispatched, hcompleted ▸ h.landed⟩

/-- The phases as they are shown while one runs. -/
theorem Cruising.shown_running (h : Cruising d hk (p :: rest) w) :
    Shown d.op d.start.landed w.landed w.effects (d.op.phasesRunning hk.completed p) := by
  refine h.shown (fun q => ?_) fun _ hpersist => ?_
  · split_ifs
    · exact .inl rfl
    · exact .inr rfl
  · -- the config is written first
    obtain ⟨done, hplan, -⟩ := h.suffix
    obtain rfl | hin := List.mem_cons.1 hpersist
    · simp
    · refine absurd ?_ d.head
      rw [hplan]
      cases done with
      | nil => exact hin
      | cons q done => exact List.mem_append_right _ hpersist

/-! ## Before a phase -/

theorem safe_upsert {j : Journal} {entry : JournalEntry} {Q : Journal → World → Prop}
    {C : World → Prop}
    (h : Q (j.insert entry).prune { w with pruned := (w.file, j.insert entry) :: w.pruned }) :
    (upsert j entry).Safe Q C w :=
  .modify_bind (.pure h)

/-- Recording the receipt with other phases. -/
theorem Cruising.safe_record (h : Cruising d hk rest w) {phases : List PhaseRecord}
    (intent : Option NativeIntent) {finalizedUnknown : Bool} (hfinal : finalizedUnknown = false)
    (hshown : Shown d.op d.start.landed w.landed w.effects phases) :
    (upsert hk.journal
      (d.op.entry (hk.journal.get d.op.op) finalizedUnknown intent phases none)).Safe
      (fun j w' => Cruising d { hk with journal := j } rest w' ∧ Ready d.trip w' j ∧ Quiet w w' ∧
        w'.disk = w.disk ∧ j.phasesOf d.op.op = phases ∧ w'.store = w.store) (Aloft d.trip) w := by
  have hown := h.sails.carries.own_entry intent phases hfinal
  have hsails := (h.sails.insert (t := d.trip) rfl hown rfl).prune h.aloft
  have hphases : (hk.journal.insert
      (d.op.entry (hk.journal.get d.op.op) finalizedUnknown intent phases none)).prune.phasesOf
        d.op.op = phases :=
    h.sails.carries.phasesOf_insert rfl rfl
  refine safe_upsert ?_
  set w₁ : World := { w with pruned := (w.file, _) :: w.pruned } with hw₁
  have hquiet : Quiet w w₁ := .of_eq rfl (fun _ => List.mem_cons_of_mem _) rfl
  have hready : Ready d.trip w₁ _ := ⟨hsails, hphases.symm ▸ hshown⟩
  exact ⟨(h.quiet hquiet (h.aloft.prune _)).journal rfl hsails fun _ => hready, hready,
    hquiet, rfl, hphases, rfl⟩

/-- Taking down that a phase runs keeps the cruise. -/
theorem Cruising.safe_recordPhaseRunning (h : Cruising d hk (p :: rest) w)
    (intent : Option NativeIntent) :
    (recordPhaseRunning d.op hk p intent).Safe (fun r w' => Cruising d r.2 (p :: rest) w' ∧
      Ready d.trip w' r.2.journal ∧ Quiet w w' ∧ r.2.completed = hk.completed ∧
      r.2.journal.phasesOf d.op.op = d.op.phasesRunning hk.completed p ∧
      (w'.disk = r.2.journal ∨ (r.1 ≠ .written ∧ w'.disk = w.disk))) (Aloft d.trip) w := by
  refine .seq (h.safe_record _ rfl h.shown_running) (fun _ => id) ?_
  rintro j w₁ ⟨hcruise, hready, hquiet₁, hdisk₁, hphases, -⟩
  refine .seq (hcruise.aloft.safe_writeAtomic hready) (fun _ => id) ?_
  rintro result w₂ ⟨haloft, hquiet₂, -, hdisk⟩
  refine .pure ⟨hcruise.quiet hquiet₂ haloft, hready.quiet hquiet₂, hquiet₁.trans hquiet₂, rfl,
    hphases, ?_⟩
  rw [← hdisk₁]
  exact hdisk

/-- The phase is on record as running, on disk too. -/
structure Boarded (d : Departure) (hk : Hook) (p : ConfigPhase) (rest : List ConfigPhase)
    (w : World) : Prop where
  cruising : Cruising d hk (p :: rest) w
  docked : Docked d.trip w hk.journal
  phases : hk.journal.phasesOf d.op.op = d.op.phasesRunning hk.completed p

/-- What stays the same before a phase is dispatched. -/
structure Waits (hk hk' : Hook) (w w' : World) : Prop where
  completed : hk'.completed = hk.completed
  quiet : Quiet w w'

/-- Waiting goes on. -/
theorem Waits.trans {hk hk' hk'' : Hook} {w w' w'' : World} (h : Waits hk hk' w w')
    (h' : Waits hk' hk'' w' w'') :
    Waits hk hk'' w w'' :=
  ⟨h'.completed.trans h.completed, h.quiet.trans h'.quiet⟩

/-- A transition of the journal while the phase is on record as running. -/
theorem Boarded.passes (h : Boarded d hk p rest w) {j : Journal}
    (hpass : Passes d.trip w hk.journal w' j) :
    Boarded d { hk with journal := j } p rest w' :=
  ⟨(h.cruising.quiet hpass.quiet hpass.docked.aloft).journal rfl hpass.docked.ready.toSails fun _ =>
    hpass.docked.ready,
    hpass.docked, hpass.phases.trans h.phases⟩

/-- Progress is shown on board. -/
theorem Boarded.safe_publishProgress (h : Boarded d hk p rest w) :
    (publishProgress hk.journal).Safe (fun _ w' => Boarded d hk p rest w' ∧ Quiet w w')
    (Aloft d.trip) w := by
  refine (h.docked.aloft.safe_publishProgress h.docked.ready).mono ?_ fun _ => id
  rintro - w' ⟨haloft, hquiet, hdisk, -⟩
  refine ⟨⟨h.cruising.quiet hquiet haloft, ⟨haloft, h.docked.ready.quiet hquiet, ?_, ?_⟩, h.phases⟩,
    hquiet⟩
  · rw [hdisk]
    exact h.docked.disk.quiet hquiet
  · rw [hdisk]
    exact h.docked.phases

/-- A revocation on board. -/
theorem Boarded.safe_revoke (h : Boarded d hk p rest w) :
    (revoke d.op.op hk.journal).Safe (fun revocation w' => Halts revocation.stop ∧
      Boarded d { hk with journal := revocation.journal } p rest w' ∧
      Quiet w w') (Aloft d.trip) w := by
  refine h.docked.safe_revoke.mono ?_ fun _ => id
  rintro revocation w' ⟨hpass, hhalts, -⟩
  exact ⟨hhalts, h.passes hpass, hpass.quiet⟩

/-- The targets of Zygisk are retired on board. -/
theorem Boarded.safe_retire (h : Boarded d hk p rest w) :
    (retire d.op hk.journal).Safe
    (fun r w' => Halts r.1 ∧ Boarded d { hk with journal := r.2 } p rest w' ∧
      Quiet w w') (Aloft d.trip) w := by
  refine .ask_bind h.docked.aloft fun answer needed _ => ?_
  rcases needed with _ | _ | _
  · exact .pure ⟨.inl rfl, h, .refl w⟩
  · exact .pure ⟨.inr (.inl rfl), h, .refl w⟩
  · refine .seq h.safe_revoke (fun _ => id) ?_
    rintro revocation w' ⟨hhalts, hboarded, hquiet⟩
    exact .pure ⟨hhalts, hboarded, hquiet⟩

/-- The startup may be uncertain. -/
theorem Boarded.startup (h : Boarded d hk p rest w) (uncertain : Bool) :
    Boarded d { hk with journal := { hk.journal with nativeStartupUncertain := uncertain } } p
      rest w := by
  have halike : hk.journal.Alike { hk.journal with nativeStartupUncertain := uncertain } :=
    Journal.alike_of_eq rfl ⟨rfl, rfl, rfl, rfl, rfl, rfl⟩ rfl rfl rfl rfl
  have hdocked := h.docked.alike halike h.docked.ready.revoked
  exact ⟨h.cruising.journal rfl hdocked.ready.toSails fun _ => hdocked.ready, hdocked,
    (h.docked.ready.carries.phasesOf_alike halike).trans h.phases⟩

/-- Recording the phase again, with its recipient. -/
theorem Boarded.safe_recordPhaseRunning (h : Boarded d hk p rest w) (intent : Option NativeIntent) :
    (recordPhaseRunning d.op hk p intent).Safe
      (fun r w' => Boarded d r.2 p rest w' ∧ Waits hk r.2 w w') (Aloft d.trip) w := by
  refine (h.cruising.safe_recordPhaseRunning intent).mono ?_ fun _ => id
  rintro ⟨result, hk'⟩ w' ⟨hcruise, hready, hquiet, hcompleted, hphases, hdisk⟩
  refine ⟨⟨hcruise, ⟨hcruise.aloft, hready, ?_, ?_⟩, hcompleted ▸ hphases⟩, hcompleted, hquiet⟩
  · obtain hdisk | ⟨-, hdisk⟩ := hdisk
    · rw [hdisk]
      exact hready
    · rw [hdisk]
      exact h.docked.disk.quiet hquiet
  · obtain hdisk | ⟨-, hdisk⟩ := hdisk
    · rw [hdisk]
    · rw [hdisk]
      exact (h.docked.phases.trans h.phases).trans hphases.symm

/-- An activation on board. -/
theorem Boarded.safe_activate (h : Boarded d hk .native rest w) :
    (activate d.op hk).Safe
      (fun r w' => Halts r.1 ∧ Boarded d r.2 .native rest w' ∧ Waits hk r.2 w w')
    (Aloft d.trip) w := by
  refine .ask_bind h.docked.aloft fun answer activation _ => ?_
  -- An activation that does not begin ends the phase at once.
  cases activation with
  | none => exact .pure ⟨.inl rfl, h, rfl, .refl w⟩
  | refused => exact .pure ⟨.inr (.inl rfl), h, rfl, .refl w⟩
  | begun intent =>
    refine .seq ((h.startup true).safe_recordPhaseRunning intent) (fun _ => id) ?_
    rintro ⟨result, hk₁⟩ w₁ ⟨hboarded₁, hwaits₁⟩
    dsimp only
    split_ifs
    · exact .pure ⟨.inr (.inr rfl), hboarded₁, hwaits₁.completed, hwaits₁.quiet⟩
    · refine .seq hboarded₁.safe_publishProgress (fun _ => id) ?_
      rintro - w₂ ⟨hboarded₂, hquiet₂⟩
      refine .seq hboarded₂.safe_retire (fun _ => id) ?_
      rintro ⟨stop, j⟩ w₃ ⟨hhalts, hboarded₃, hquiet₃⟩
      have hquiet := (hwaits₁.quiet.trans hquiet₂).trans hquiet₃
      cases stop with
      | some outcome => exact .pure ⟨hhalts, hboarded₃, hwaits₁.completed, hquiet⟩
      | none =>
        refine .ask_bind hboarded₃.docked.aloft fun answer ok _ => ?_
        split_ifs
        · exact .pure ⟨.inr (.inr rfl), hboarded₃, hwaits₁.completed, hquiet⟩
        · refine .seq (hboarded₃.docked.safe_note rfl (by simp)) (fun _ => id) ?_
          rintro - w₄ ⟨hdocked₄, hquiet₄, -⟩
          have hboarded₄ := hboarded₃.passes ⟨hdocked₄, hquiet₄, rfl⟩
          refine .ask_bind hdocked₄.aloft fun answer uncertain _ => ?_
          have hboarded₅ := hboarded₄.startup uncertain
          refine .seq (hdocked₄.safe_persistTransitionJournal hboarded₅.docked.ready
            (hboarded₅.phases.trans hboarded₄.phases.symm)) (fun _ => id) ?_
          rintro result w₅ ⟨hdocked₅, hquiet₅⟩
          refine .pure ⟨?_, hboarded₅.passes ⟨hdocked₅, hquiet₅, rfl⟩, hwaits₁.completed,
            (hquiet.trans hquiet₄).trans hquiet₅⟩
          dsimp only
          split_ifs
          · exact .inl rfl
          · exact .inr (.inr rfl)

/-- The end of a revocation keeps the cruise. -/
theorem Cruising.safe_finishRevocation (h : Cruising d hk (.native :: rest) w) :
    (finishRevocation d.op hk).Safe
      (fun r w' => Halts r.1 ∧ Cruising d r.2 (.native :: rest) w' ∧ Waits hk r.2 w w')
    (Aloft d.trip) w := by
  refine .seq (h.safe_recordPhaseRunning none) (fun _ => id) ?_
  rintro ⟨result, hk₁⟩ w₁ ⟨hcruise₁, hready₁, hquiet₁, hcompleted₁, hphases₁, hdisk₁⟩
  dsimp only
  split_ifs with hresult
  · exact .pure ⟨.inr (.inr rfl), hcruise₁, hcompleted₁, hquiet₁⟩
  · have hdisk := hdisk₁.resolve_right fun hne => hresult hne.1
    have hboarded₁ : Boarded d hk₁ .native rest w₁ :=
      ⟨hcruise₁, .of_disk hcruise₁.aloft hready₁ hdisk, hcompleted₁ ▸ hphases₁⟩
    refine .seq hboarded₁.safe_publishProgress (fun _ => id) ?_
    rintro - w₂ ⟨hboarded₂, hquiet₂⟩
    refine .seq hboarded₂.safe_revoke (fun _ => id) ?_
    rintro revocation w₃ ⟨hhalts, hboarded₃, hquiet₃⟩
    exact .pure ⟨hhalts, hboarded₃.cruising, hcompleted₁, (hquiet₁.trans hquiet₂).trans hquiet₃⟩

/-- Evidence is taken down. -/
theorem Cruising.safe_recordEvidence (h : Cruising d hk rest w) (hready : Ready d.trip w hk.journal)
    (evidence : Bool) :
    (recordEvidence hk evidence).Safe (fun _ w' => Cruising d hk rest w' ∧ Quiet w w')
    (Aloft d.trip) w := by
  rw [recordEvidence]
  split_ifs
  · refine (h.aloft.safe_persistTransitionJournal hready).mono ?_ fun _ => id
    rintro result w' ⟨haloft, hquiet, -⟩
    exact ⟨h.quiet hquiet haloft, hquiet⟩
  · exact .pure ⟨h, .refl w⟩

/-- A start is prepared. -/
theorem Cruising.safe_prepareStartup (h : Cruising d hk rest w)
    (hready : Ready d.trip w hk.journal) :
    (prepareStartup hk).Safe (fun r w' => Halts r.1 ∧ Cruising d hk rest w' ∧ Quiet w w')
    (Aloft d.trip) w := by
  refine .ask_bind h.aloft fun answer ⟨evidence, refused, intent⟩ _ => ?_
  refine .seq (h.safe_recordEvidence hready evidence) (fun _ => id) ?_
  rintro result w' ⟨hcruise, hquiet⟩
  split_ifs
  · exact .pure ⟨.inr (.inr rfl), hcruise, hquiet⟩
  · exact .pure ⟨.inr (.inl rfl), hcruise, hquiet⟩
  · exact .pure ⟨.inl rfl, hcruise, hquiet⟩

/-- The end of what comes before a phase: when it is to be dispatched, it is on record. -/
def Cleared (d : Departure) (hk : Hook) (p : ConfigPhase) (rest : List ConfigPhase) (w : World)
    (r : Option PhaseOutcome × Hook) (w' : World) : Prop :=
  Halts r.1 ∧ Cruising d r.2 (p :: rest) w' ∧ Waits hk r.2 w w' ∧
    (r.1 = none → Boarded d r.2 p rest w')

/-- An intent is taken down. -/
theorem Cruising.safe_recordIntent (h : Cruising d hk (p :: rest) w)
    (intent : Option NativeIntent) :
    (recordIntent d.op hk p intent).Safe (Cleared d hk p rest w) (Aloft d.trip) w := by
  refine .seq (h.safe_recordPhaseRunning intent) (fun _ => id) ?_
  rintro ⟨result, hk₁⟩ w₁ ⟨hcruise₁, hready₁, hquiet₁, hcompleted₁, hphases₁, hdisk₁⟩
  cases result with
  | refused => exact .pure ⟨.inr (.inl rfl), hcruise₁, ⟨hcompleted₁, hquiet₁⟩, by simp⟩
  | uncertain landed => exact .pure ⟨.inr (.inr rfl), hcruise₁, ⟨hcompleted₁, hquiet₁⟩, by simp⟩
  | written =>
    have hdisk := hdisk₁.resolve_right fun hne => hne.1 rfl
    have hboarded₁ : Boarded d hk₁ p rest w₁ :=
      ⟨hcruise₁, .of_disk hcruise₁.aloft hready₁ hdisk, hcompleted₁ ▸ hphases₁⟩
    refine .seq hboarded₁.safe_publishProgress (fun _ => id) ?_
    rintro - w₂ ⟨hboarded₂, hquiet₂⟩
    have hwaits₂ : Waits hk hk₁ w w₂ := ⟨hcompleted₁, hquiet₁.trans hquiet₂⟩
    refine .ask_bind hboarded₂.docked.aloft fun answer valid _ => ?_
    split_ifs with hvalid hnative hcleanup
    · exact .pure ⟨.inr (.inl rfl), hboarded₂.cruising, hwaits₂, by simp⟩
    · subst hnative
      refine hboarded₂.safe_activate.mono ?_ fun _ => id
      rintro r w₃ ⟨hhalts, hboarded₃, hwaits₃⟩
      exact ⟨hhalts, hboarded₃.cruising, hwaits₂.trans hwaits₃, fun _ => hboarded₃⟩
    · refine .seq hboarded₂.safe_retire (fun _ => id) ?_
      rintro r w₃ ⟨hhalts, hboarded₃, hquiet₃⟩
      exact .pure ⟨hhalts, hboarded₃.cruising, ⟨hcompleted₁, hwaits₂.quiet.trans hquiet₃⟩, fun _ =>
        hboarded₃⟩
    · exact .pure ⟨.inl rfl, hboarded₂.cruising, hwaits₂, fun _ => hboarded₂⟩

/-- Where the plan is at a phase other than the first, the config needs no write any more. -/
theorem Cruising.ready_of_ne (h : Cruising d hk (p :: rest) w) (hp : p ≠ .persist) :
    Ready d.trip w hk.journal := by
  refine h.ready fun _ hpersist => ?_
  obtain ⟨done, hplan, -⟩ := h.suffix
  have hin : .persist ∈ rest := (List.mem_cons.1 hpersist).resolve_left hp.symm
  refine d.head ?_
  rw [hplan]
  cases done with
  | nil => exact hin
  | cons q done => exact List.mem_append_right _ hpersist

/-- What comes before the native phase keeps the cruise. -/
theorem Cruising.safe_beforeRevocation (h : Cruising d hk (p :: rest) w) :
    (beforeRevocation d.op hk p).Safe
      (fun r w' => Halts r.1 ∧ Cruising d r.2 (p :: rest) w' ∧ Waits hk r.2 w w')
    (Aloft d.trip) w := by
  rw [beforeRevocation]
  split_ifs with hrevocation
  · rw [Bool.and_eq_true, decide_eq_true_eq] at hrevocation
    obtain ⟨rfl, -⟩ := hrevocation
    exact h.safe_finishRevocation
  · exact .pure ⟨.inl rfl, h, rfl, .refl w⟩

/-- What comes before a start keeps the cruise. -/
theorem Cruising.safe_beforeStartup (h : Cruising d hk (p :: rest) w) :
    (beforeStartup hk p).Safe (fun r w' => Halts r.1 ∧ Cruising d hk (p :: rest) w' ∧ Quiet w w')
    (Aloft d.trip) w := by
  rw [beforeStartup]
  split_ifs with hnative
  · exact h.safe_prepareStartup (h.ready_of_ne (by simp [hnative]))
  · exact .pure ⟨.inl rfl, h, .refl w⟩

/-- What comes before a phase keeps the cruise. -/
theorem Cruising.safe_before (h : Cruising d hk (p :: rest) w) :
    (before d.op hk p).Safe (Cleared d hk p rest w) (Aloft d.trip) w := by
  refine .seq h.safe_beforeRevocation (fun _ => id) ?_
  rintro ⟨stop, hk₁⟩ w₁ ⟨hhalts₁, hcruise₁, hwaits₁⟩
  cases stop with
  | some outcome => exact .pure ⟨hhalts₁, hcruise₁, hwaits₁, by simp⟩
  | none =>
    refine .seq hcruise₁.safe_beforeStartup (fun _ => id) ?_
    rintro ⟨stop, intent⟩ w₂ ⟨hhalts₂, hcruise₂, hquiet₂⟩
    have hwaits₂ : Waits hk hk₁ w w₂ := ⟨hwaits₁.completed, hwaits₁.quiet.trans hquiet₂⟩
    cases stop with
    | some outcome => exact .pure ⟨hhalts₂, hcruise₂, hwaits₂, by simp⟩
    | none =>
      refine (hcruise₂.safe_recordIntent intent).mono ?_ fun _ => id
      rintro r w₃ ⟨hhalts₃, hcruise₃, hwaits₃, hboarded₃⟩
      exact ⟨hhalts₃, hcruise₃, hwaits₂.trans hwaits₃, hboarded₃⟩

/-! ## The effect -/

/-- A phase that is still to come is not done. -/
theorem Cruising.not_mem_done (h : Cruising d hk (p :: rest) w) : ∀ x ∈ hk.completed, x.1 ≠ p := by
  obtain ⟨done, hplan, -, hcompleted⟩ := h.suffix
  have hnodup := d.nodup
  rw [hplan, List.nodup_append] at hnodup
  exact fun x hx => hnodup.2.2 x.1 (hcompleted x hx) p List.mem_cons_self

/-- The phase is on record as running, so that its effect may be done. -/
theorem Shown.dispatch {c : Operation} {before landed : List ℕ} {effects : List Effect}
    {phases : List PhaseRecord} {q : PhaseRecord} (h : Shown c before landed effects phases)
    (hq : q ∈ phases) (hout : q.outcome ≠ .notAttempted)
    (o : Option PhaseOutcome) :
    Shown c before landed (.phase c.op q.phase o :: effects) phases where
  plan := h.plan
  outcome p hp := (h.outcome p hp).imp_right (Or.imp_right (List.mem_cons_of_mem _))
  dispatched p o' hmem := by
    obtain heq | hmem := List.mem_cons.1 hmem
    · cases heq
      exact ⟨q, hq, rfl, hout⟩
    · exact h.dispatched p o' hmem
  persist := h.persist
  idle := h.idle

/-- While the config is on record as running, it may reach its file. -/
theorem Shown.land {c : Operation} {before landed : List ℕ} {effects : List Effect}
    {phases : List PhaseRecord} (h : Shown c before landed effects phases)
    (hpersist : ∀ o, ⟨.persist, o⟩ ∈ phases → o = .running)
    (hplan : .persist ∈ c.plan) (landed' : List ℕ) : Shown c before landed' effects phases where
  plan := h.plan
  outcome := h.outcome
  dispatched := h.dispatched
  persist o ho := by
    rw [hpersist o ho]
    trivial
  idle hidle := absurd hplan hidle

/-- The phase that runs is shown as running. -/
theorem mem_phasesRunning {c : Operation} {completed : List (ConfigPhase × PhaseOutcome)}
    (hp : p ∈ c.plan) :
    ⟨p, .running⟩ ∈ c.phasesRunning completed p :=
  List.mem_map.2 ⟨p, hp, by simp⟩

/-- The other phases are shown as they are. -/
theorem outcome_of_mem_phasesRunning {c : Operation} {completed : List (ConfigPhase × PhaseOutcome)}
    {o : PhaseOutcome} (h : ⟨p, o⟩ ∈ c.phasesRunning completed p) : o = .running := by
  obtain ⟨q, -, heq⟩ := List.mem_map.1 h
  obtain ⟨rfl, rfl⟩ := PhaseRecord.mk.inj heq
  simp

/-- The phase and what it does to the config file. -/
structure Flown (d : Departure) (hk : Hook) (p : ConfigPhase) (rest : List ConfigPhase) (w : World)
    (o : PhaseOutcome) (w' : World) : Prop where
  aloft : Aloft d.trip w'
  ready : Ready d.trip w' hk.journal
  possible : possible p o
  effects : w'.effects = .phase d.op.op p (some o) :: .phase d.op.op p none :: w.effects
  landed : p ≠ .persist → w'.landed = w.landed
  persist : p = .persist → Fits d.op d.start.landed w'.landed o
  store : w'.store = w.store

theorem Sails.effect {t : Trip} {j : Journal} (h : Sails t w j) (e : Effect) :
    Sails t { w with effects := e :: w.effects } j :=
  ⟨h.carries, h.witnessed, h.attempted, h.matched, fun hop hsure =>
    (h.revoked hop hsure).imp_right (List.mem_cons_of_mem e)⟩

/-- The config reaches its file. -/
theorem Aloft.land {t : Trip} (h : Aloft t w) (hlanded : w.landed = t.start.landed)
    (hcommit : t.Reserved)
    (hdisk : Ready t { w with file := t.target, landed := t.commit :: w.landed } w.disk) :
    Aloft t { w with file := t.target, landed := t.commit :: w.landed } := by
  refine ⟨.inr hdisk, .inr ⟨congrArg _ hlanded, rfl, hcommit⟩, ?_, h.live, h.effects, h.old,
    h.pruned, fun hkept => ⟨(h.names hkept).pairwise, (h.names hkept).store⟩⟩
  exact h.store.imp_right fun hstore => ⟨hstore.1, congrArg _ hlanded⟩

/-- A write that lands keeps what sails. -/
theorem Sails.land {t : Trip} {j : Journal} (h : Sails t w j) (hlanded : w.landed = t.start.landed)
    (file : Option CanonicalConfig) : Sails t { w with file, landed := t.commit :: w.landed } j :=
  ⟨h.carries, fun _ heq => absurd (congrArg List.length heq) (by simp [hlanded]), h.attempted,
    h.matched, h.revoked⟩

/-- A dispatch leaves the dock. -/
theorem Docked.dispatch {j : Journal} {q : PhaseRecord} (h : Docked d.trip w j)
    (hq : q ∈ j.phasesOf d.op.op) (hout : q.outcome ≠ .notAttempted) (o : Option PhaseOutcome) :
    Docked d.trip { w with effects := .phase d.op.op q.phase o :: w.effects } j := by
  have hready : ∀ {j'}, Ready d.trip w j' → j'.phasesOf d.op.op = j.phasesOf d.op.op →
      Ready d.trip { w with effects := .phase d.op.op q.phase o :: w.effects } j' := fun hj heq =>
    ⟨hj.toSails.effect _, hj.shown.dispatch (heq.symm ▸ hq) hout o⟩
  have hdisk := hready h.disk h.phases
  exact ⟨h.aloft.note rfl hdisk, hready h.ready rfl, hdisk, h.phases⟩

/-- The write of the config lands. -/
theorem Docked.land {j : Journal} (h : Docked d.trip w j)
    (hrunning : ∀ o, ⟨.persist, o⟩ ∈ j.phasesOf d.op.op → o = .running)
    (hplan : .persist ∈ d.op.plan)
    (hchanged : d.op.changed) (hlanded : w.landed = d.start.landed) :
    Docked d.trip { w with file := d.op.target, landed := d.op.admission.commitRevision ::
      w.landed } j := by
  have hready : ∀ {j'}, Ready d.trip w j' → j'.phasesOf d.op.op = j.phasesOf d.op.op →
      Ready d.trip { w with file := d.op.target, landed := d.op.admission.commitRevision ::
        w.landed } j' :=
    fun hj heq =>
      ⟨hj.toSails.land hlanded _, hj.shown.land (fun o ho => hrunning o (heq ▸ ho)) hplan _⟩
  have hdisk := hready h.disk h.phases
  exact ⟨h.aloft.land hlanded (d.commit hchanged hplan) hdisk, hready h.ready rfl, hdisk, h.phases⟩

/-- The effect of a phase that is on record as running. -/
theorem Boarded.safe_perform (h : Boarded d hk p rest w) (hchanged : p = .persist → d.op.changed) :
    (perform d.op p).Safe (Flown d hk p rest w) (Aloft d.trip) w := by
  obtain ⟨done, hplan, -⟩ := h.cruising.suffix
  have hmem : p ∈ d.op.plan := by simp [hplan]
  have hrunning : ⟨p, .running⟩ ∈ hk.journal.phasesOf d.op.op := h.phases ▸ mem_phasesRunning hmem
  refine .modify_bind ?_
  have hdocked₁ := h.docked.dispatch hrunning (by simp) none
  refine .ask_bind hdocked₁.aloft fun answer ⟨o, landed⟩ hread => ?_
  have hpossible : possible p o := by
    cases answer <;> simp only [Option.ite_none_right_eq_some, Option.some.injEq, Prod.mk.injEq,
        reduceCtorEq] at hread
    obtain ⟨hpossible, rfl, -⟩ := hread
    exact hpossible
  refine .modify_bind (.bind ?_)
  split_ifs with hlands
  · -- the config has reached its file
    have hlands' : p = .persist ∧ (o = .confirmed ∨ o = .unknown ∧ landed = true) := by
      simpa [lands] using hlands
    obtain ⟨rfl, hout⟩ := hlands'
    have hlanded : w.landed = d.start.landed := h.cruising.landed h.cruising.not_mem_done
    have hdocked₂ := hdocked₁.land (fun o ho => outcome_of_mem_phasesRunning (h.phases ▸ ho)) hmem
      (hchanged rfl) hlanded
    have hdocked₃ := hdocked₂.dispatch hrunning (by simp) (some o)
    refine .modify
      (.pure ⟨hdocked₃.aloft, hdocked₃.ready, hpossible, rfl, absurd rfl, fun _ => ?_, rfl⟩)
    obtain rfl | ⟨rfl, -⟩ := hout
    · exact congrArg _ hlanded
    · trivial
  · have hdocked₂ := hdocked₁.dispatch hrunning (by simp) (some o)
    refine .modify
      (.pure ⟨hdocked₂.aloft, hdocked₂.ready, hpossible, rfl, fun _ => rfl, fun hp => ?_, rfl⟩)
    subst hp
    have hlanded : w.landed = d.start.landed := h.cruising.landed h.cruising.not_mem_done
    cases o with
    | confirmed => simp [lands] at hlands
    | failedKnown => exact hlanded
    | notAttempted => simp [possible] at hpossible
    | running => trivial
    | unknown => trivial

/-! ## After the effect -/

theorem Flown.mem {o : PhaseOutcome} (h : Flown d hk p rest w o w') {e : Effect}
    (he : e ∈ w.effects) :
    e ∈ w'.effects := by
  rw [h.effects]
  exact List.mem_cons_of_mem _ (List.mem_cons_of_mem _ he)

theorem Flown.effect {o : PhaseOutcome} (h : Flown d hk p rest w o w') :
    .phase d.op.op p (some o) ∈ w'.effects := by
  rw [h.effects]
  exact List.mem_cons_self

/-- The phase is done. -/
theorem Flown.cruising {o : PhaseOutcome} (h : Flown d hk p rest w o w')
    (hcruise : Cruising d hk (p :: rest) w) (hout : o ≠ .notAttempted) :
    Cruising d { hk with completed := hk.completed ++ [(p, o)] } rest w' := by
  obtain ⟨done, hplan, hdone, hcompleted⟩ := hcruise.suffix
  refine ⟨h.aloft, h.ready.toSails, fun _ => h.ready,
    ⟨done ++ [p], by simp [hplan], fun hin hchanged => ?_, ?_⟩, fun x hx => ?_,
    fun q o' hq => ?_, fun hnone => ?_⟩
  · obtain hin | hin := List.mem_append.1 hin
    · obtain ⟨x, hx, hxp⟩ := hdone hin hchanged
      exact ⟨x, List.mem_append_left _ hx, hxp⟩
    · exact ⟨(p, o), by simp, (List.mem_singleton.1 hin).symm⟩
  · intro x hx
    obtain hx | hx := List.mem_append.1 hx
    · exact List.mem_append_left _ (hcompleted x hx)
    · rw [List.mem_singleton.1 hx]
      simp
  · obtain hx | hx := List.mem_append.1 hx
    · obtain ⟨hx₁, hx₂, hx₃⟩ := hcruise.completed x hx
      refine ⟨hx₁, h.mem hx₂, fun hxp => ?_⟩
      rw [h.landed fun hp => hcruise.not_mem_done x hx (hxp.trans hp.symm)]
      exact hx₃ hxp
    · rw [List.mem_singleton.1 hx]
      exact ⟨hout, h.effect, h.persist⟩
  · rw [h.effects] at hq
    simp only [List.mem_cons, Effect.phase.injEq, true_and] at hq
    obtain ⟨rfl, -⟩ | ⟨rfl, -⟩ | hq := hq
    · exact ⟨(q, o), by simp, rfl⟩
    · exact ⟨(q, o), by simp, rfl⟩
    · obtain ⟨x, hx, hxq⟩ := hcruise.dispatched q o' hq
      exact ⟨x, List.mem_append_left _ hx, hxq⟩
  · rw [h.landed (hnone (p, o) (by simp))]
    exact hcruise.landed fun x hx => hnone x (List.mem_append_left _ hx)

/-- A phase that is not dispatched, and not that of the config, is left behind. -/
theorem Cruising.skip (h : Cruising d hk (p :: rest) w) (hp : p = .persist → d.op.changed = false) :
    Cruising d hk rest w := by
  obtain ⟨done, hplan, hdone, hcompleted⟩ := h.suffix
  refine ⟨h.aloft, h.sails, fun hrest => h.ready fun hchanged hin => ?_,
    ⟨done ++ [p], by simp [hplan], ?_,
    fun x hx => List.mem_append_left _ (hcompleted x hx)⟩, h.completed, h.dispatched, h.landed⟩
  · obtain heq | hin := List.mem_cons.1 hin
    · rw [hp heq.symm] at hchanged
      cases hchanged
    · exact hrest hchanged hin
  · intro hin hchanged
    obtain hin | hin := List.mem_append.1 hin
    · exact hdone hin hchanged
    · rw [hp (List.mem_singleton.1 hin).symm] at hchanged
      cases hchanged

/-- What the outcome that a phase ends with says. -/
structure Sure (d : Departure) (w : World) (p : ConfigPhase) (x : PhaseOutcome) : Prop where
  running : x ≠ .running
  confirmed : x = .confirmed → .phase d.op.op p (some .confirmed) ∈ w.effects ∨
    (p = .persist ∧ d.op.changed = false)
  dispatched : ∀ o, .phase d.op.op p o ∈ w.effects →
    x = .unknown ∨ .phase d.op.op p (some x) ∈ w.effects
  persist : p = .persist → x ≠ .notAttempted ∧ (d.op.changed → Fits d.op d.start.landed w.landed x)

/-- A phase has run, and the plan goes on unless the outcome stops it. -/
structure Ran (d : Departure) (p : ConfigPhase) (rest : List ConfigPhase) (w : World)
    (r : PhaseOutcome × Hook) (w' : World) : Prop where
  aloft : Aloft d.trip w'
  sails : Sails d.trip w' r.2.journal
  sure : Sure d w' p r.1
  old : ∀ e ∈ w.effects, e ∈ w'.effects
  dispatched : ∀ q o, .phase d.op.op q o ∈ w'.effects → q = p ∨ .phase d.op.op q o ∈ w.effects
  landed : (p = .persist ∧ d.op.changed) ∨ w'.landed = w.landed
  next : stops p r.1 = false → Cruising d r.2 rest w'
  /-- A config is taken over only when its write is known. -/
  taken : p = .persist → r.1 = .unknown → w'.store.snapshot = d.store.snapshot

/-- A phase that is still to come was not dispatched. -/
theorem Cruising.not_dispatched (h : Cruising d hk (p :: rest) w) {o : Option PhaseOutcome} :
    .phase d.op.op p o ∉ w.effects := by
  intro hmem
  obtain ⟨x, hx, hxp⟩ := h.dispatched p o hmem
  exact h.not_mem_done x hx hxp

/-- What stops a phase is a known failure or unknown. -/
theorem Halts.outcome {stop : Option PhaseOutcome} {x : PhaseOutcome} (h : Halts stop)
    (hstop : stop = some x) :
    x = .failedKnown ∨ x = .unknown := by
  obtain h | h | h := h
  · cases hstop.symm.trans h
  · exact .inl (Option.some.inj (hstop.symm.trans h))
  · exact .inr (Option.some.inj (hstop.symm.trans h))

/-- What a phase dispatches is itself. -/
theorem Flown.dispatched {o : PhaseOutcome} (h : Flown d hk p rest w o w') {q : ConfigPhase}
    {o' : Option PhaseOutcome} (hq : .phase d.op.op q o' ∈ w'.effects) :
    q = p ∨ .phase d.op.op q o' ∈ w.effects := by
  rw [h.effects] at hq
  simp only [List.mem_cons, Effect.phase.injEq, true_and] at hq
  tauto

/-- The outcome that the effect had is sure, also when it is taken for uncertain. -/
theorem Flown.sure {o x : PhaseOutcome} (h : Flown d hk p rest w o w') (hx : x = o ∨ x = .unknown) :
    Sure d w' p x := by
  have hpossible := h.possible
  simp only [Daemon.possible, Bool.and_eq_true, decide_eq_true_eq, Bool.not_eq_true',
    Bool.and_eq_false_iff, decide_eq_false_iff_not] at hpossible
  obtain rfl | rfl := hx
  · exact ⟨hpossible.1, fun hx => .inl (hx ▸ h.effect), fun _ _ => .inr h.effect,
      fun hp => ⟨hpossible.2.resolve_left (absurd hp), fun _ => h.persist hp⟩⟩
  · exact ⟨by simp, by simp, fun _ _ => .inl rfl, fun _ => ⟨by simp, fun _ => trivial⟩⟩

/-- What is sure stays so. -/
theorem Sure.quiet {x : PhaseOutcome} (h : Sure d w p x) (hquiet : Quiet w w') : Sure d w' p x := by
  refine ⟨h.running, fun hx => (h.confirmed hx).imp_left hquiet.mem, fun o ho => ?_, ?_⟩
  · exact (h.dispatched o (hquiet.phase.1 ho)).imp_right hquiet.mem
  · rw [hquiet.landed]
    exact h.persist

/-- The config has not landed before its phase. -/
theorem Cruising.landed_persist (h : Cruising d hk (.persist :: rest) w) :
    w.landed = d.start.landed :=
  h.landed h.not_mem_done

/-- The outcome of the phase that is completed last. -/
theorem outcomeOf_append {completed : List (ConfigPhase × PhaseOutcome)} {o : PhaseOutcome}
    {q : ConfigPhase} (h : ∀ x ∈ completed, x.1 ≠ p) (hq : q = p) :
    Operation.outcomeOf (completed ++ [(p, o)]) q = o := by
  have hfind : completed.find? (·.1 = p) = none := List.find?_eq_none.2 (by simpa using h)
  simp [Operation.outcomeOf, hq, List.find?_append, hfind]

/-- What comes after a phase keeps the invariant. -/
theorem Flown.safe_after {w₀ : World} {o : PhaseOutcome} (h : Flown d hk p rest w₀ o w)
    (hcruise : Cruising d hk (p :: rest) w₀) (hchanged : p = .persist → d.op.changed) :
    (after d.op hk p o).Safe (Ran d p rest w₀) (Aloft d.trip) w := by
  have hnext : stops p o = false → o ≠ .notAttempted := by
    rintro hstops rfl
    simp [stops] at hstops
  rw [after]
  dsimp only
  split_ifs with hp
  · -- the outcome of the write is on disk before anything else is dispatched
    have hout : o ≠ .notAttempted := by
      simpa [hp] using ((h.sure (.inl rfl)).persist hp).1
    have hcruise₁ := h.cruising hcruise hout
    have hshown := hcruise₁.shown (fun _ => .inr rfl) fun hch hin => by
      obtain ⟨done, hplan, -⟩ := hcruise.suffix
      have hnodup := d.nodup
      rw [hplan, hp, List.nodup_append, List.nodup_cons] at hnodup
      exact absurd hin hnodup.2.1.1
    have hsnapshot : w.store.snapshot = d.store.snapshot := by
      rw [h.store]
      exact hcruise.aloft.snapshot (hp ▸ hcruise).landed_persist
    have hran : ∀ {hk' : Hook} {w' : World} {x : PhaseOutcome}, x = o ∨ x = .unknown →
        Cruising d hk' rest w' → Quiet w w' →
        (x = .unknown → w'.store.snapshot = d.store.snapshot) → Ran d p rest w₀ (x, hk') w' :=
      fun hx hcruise' hquiet htaken =>
      ⟨hcruise'.aloft, hcruise'.sails, (h.sure hx).quiet hquiet, fun e he => hquiet.mem (h.mem he),
        fun q o' hq => h.dispatched (hquiet.phase.1 hq), .inl ⟨hp, hchanged hp⟩,
        fun _ => hcruise', fun _ => htaken⟩
    refine .seq (hcruise₁.safe_record none hcruise.sails.carries.finalizedUnknown_get hshown)
      (fun _ => id) ?_
    rintro j w₂ ⟨hcruise₂, hready₂, hquiet₂, -, hphases₂, hstore₂⟩
    refine .seq (hcruise₂.aloft.safe_writeAtomic hready₂) (fun _ => id) ?_
    rintro result w₃ ⟨haloft₃, hquiet₃, hstore₃, -⟩
    have hcruise₃ := hcruise₂.quiet hquiet₃ haloft₃
    have hsnapshot₃ : w₃.store.snapshot = d.store.snapshot := by
      rw [hstore₃, hstore₂]
      exact hsnapshot
    split_ifs with hresult
    · exact .pure (hran (.inr rfl) hcruise₃ (hquiet₂.trans hquiet₃) fun _ => hsnapshot₃)
    · refine .seq (haloft₃.safe_publishProgress (hready₂.quiet hquiet₃)) (fun _ => id) ?_
      rintro - w₄ ⟨haloft₄, hquiet₄, -, hstore₄⟩
      refine .pure (hran (.inl rfl) (hcruise₃.quiet hquiet₄ haloft₄)
        ((hquiet₂.trans hquiet₃).trans hquiet₄) fun hx => ?_)
      obtain hstore₄ | hconf := hstore₄
      · exact hstore₄.trans hsnapshot₃
      · -- the outcome on record is that of the write
        change _ ∈ j.phasesOf d.op.op at hconf
        rw [hphases₂] at hconf
        obtain ⟨q, -, heq⟩ := List.mem_map.1 hconf
        obtain ⟨rfl, hout'⟩ := PhaseRecord.mk.inj heq
        rw [outcomeOf_append hcruise.not_mem_done hp.symm, hx] at hout'
        cases hout'
  · exact .pure ⟨h.aloft, h.ready.toSails, h.sure (.inl rfl), fun _ => h.mem,
      fun _ _ => h.dispatched, .inr (h.landed hp), fun hstops => h.cruising hcruise (hnext hstops),
      fun hp' => absurd hp' hp⟩

/-! ## A phase -/

/-- A phase that is blocked was not dispatched. -/
theorem Cruising.blocked (h : Cruising d hk (p :: rest) w) {hk' : Hook} {x : PhaseOutcome}
    (h' : Cruising d hk' (p :: rest) w') (hquiet : Quiet w w')
    (hx : x = .failedKnown ∨ x = .unknown) :
    Ran d p rest w (x, hk') w' := by
  have hlanded : p = .persist → w'.landed = d.start.landed := by
    rintro rfl
    exact h'.landed h'.not_mem_done
  refine ⟨h'.aloft, h'.sails,
    ⟨?_, ?_, fun o ho => absurd ho h'.not_dispatched, fun hp => ⟨?_, fun _ => ?_⟩⟩,
    fun e => hquiet.mem, fun q o hq => .inr (hquiet.phase.1 hq), .inr hquiet.landed,
    fun hstops => h'.skip ?_, fun hp _ => h'.aloft.snapshot (hlanded hp)⟩
  · obtain rfl | rfl := hx <;> simp
  · obtain rfl | rfl := hx <;> simp
  · obtain rfl | rfl := hx <;> simp
  · obtain rfl | rfl := hx
    · exact hlanded hp
    · trivial
  · rintro rfl
    obtain rfl | rfl := hx <;> simp [stops] at hstops

/-- A phase keeps the invariant. -/
theorem Cruising.safe_runPhase (h : Cruising d hk (p :: rest) w)
    (hchanged : p = .persist → d.op.changed) :
    (runPhase d.op hk p).Safe (Ran d p rest w) (Aloft d.trip) w := by
  refine .seq h.safe_before (fun _ => id) ?_
  rintro ⟨blocked, hk₁⟩ w₁ ⟨hhalts, hcruise₁, hwaits, hboarded⟩
  cases blocked with
  | some fail => exact .pure (h.blocked hcruise₁ hwaits.quiet (hhalts.outcome rfl))
  | none =>
    refine .seq ((hboarded rfl).safe_perform hchanged) (fun _ => id) ?_
    intro o w₂ hflown
    refine (hflown.safe_after hcruise₁ hchanged).mono ?_ fun _ => id
    intro r w₃ hran
    refine ⟨hran.aloft, hran.sails, hran.sure, fun e he => hran.old e (hwaits.quiet.mem he),
      fun q o hq => ?_, hran.landed.imp_right (·.trans hwaits.quiet.landed), hran.next, hran.taken⟩
    exact (hran.dispatched q o hq).imp_right hwaits.quiet.phase.1

/-- Without a change the config needs no write. -/
theorem Cruising.safe_stepPhase (h : Cruising d hk (p :: rest) w) :
    (stepPhase d.op hk p).Safe (Ran d p rest w) (Aloft d.trip) w := by
  rw [stepPhase]
  split_ifs with hskip
  · simp only [Bool.and_eq_true, decide_eq_true_eq, Bool.not_eq_true'] at hskip
    obtain ⟨rfl, hchanged⟩ := hskip
    refine .pure ⟨h.aloft, h.sails,
      ⟨by simp, fun _ => .inr ⟨rfl, hchanged⟩, fun o ho => absurd ho h.not_dispatched,
      fun _ => ⟨by simp, fun hch => ?_⟩⟩, fun _ => id, fun q o hq => .inr hq, .inr rfl, fun _ =>
        h.skip fun _ => hchanged,
      by simp⟩
    rw [hchanged] at hch
    cases hch
  · refine h.safe_runPhase fun hp => ?_
    simpa [hp] using hskip

end VpnHide.Daemon

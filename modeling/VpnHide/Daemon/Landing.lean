import VpnHide.Daemon.Phases

/-!
# The end of a plan

What a plan has produced when it ends, wherever it was stopped: an outcome for each of its
phases that says what was dispatched, and how it ended (`Landed`).
-/

namespace VpnHide.Daemon

open Lib Config

variable {d : Departure} {w w' : World} {hk : Hook} {p : ConfigPhase} {rest : List ConfigPhase}
  {o : PlanOutcome}

/-! ## Outcomes -/

/-- What the outcome of a plan says of those of its phases. -/
structure PlanOutcome.Tallies (changed : Bool) (o : PlanOutcome) : Prop where
  running : o.settled ≠ .running
  confirmed : o.settled = .confirmed → ∀ q ∈ o.phases, q.outcome = .confirmed
  unknown : o.settled = .unknown ↔ ∃ q ∈ o.phases, q.outcome = .unknown
  persisted : o.persisted ↔ changed ∧ ⟨.persist, .confirmed⟩ ∈ o.phases

namespace PlanOutcome

variable {changed : Bool} {x : PhaseOutcome}

theorem tallies_empty : empty.Tallies changed :=
  ⟨by simp [empty], by simp [empty], by simp [empty], by simp [empty]⟩

/-- The first failure settles a plan, and uncertainty outweighs it. -/
theorem settled_push (o : PlanOutcome) (changed : Bool) (p : ConfigPhase) (x : PhaseOutcome) :
    (o.push changed p x).settled =
      if x = .unknown ∨ o.settled = .unknown then .unknown
      else if o.settled = .confirmed ∨ x = .failedKnown then
        (if x = .confirmed then o.settled else x) else o.settled := by
  rw [push]
  cases x <;> cases hsettled : o.settled <;> simp

/-- An outcome tallies with its phases after one more. -/
theorem Tallies.push (h : o.Tallies changed) (hx : x ≠ .running) :
    (o.push changed p x).Tallies changed := by
  have hphases : (o.push changed p x).phases = o.phases ++ [⟨p, x⟩] := rfl
  have hsettled := o.settled_push changed p x
  refine ⟨?_, ?_, ?_, ?_⟩
  · rw [hsettled]
    split_ifs
    all_goals first | exact h.running | exact hx | simp
  · intro hconf q hq
    have hboth : o.settled = .confirmed ∧ x = .confirmed := by
      rw [hsettled] at hconf
      cases x <;> cases hs : o.settled <;> simp_all
    rw [hphases, List.mem_append, List.mem_singleton] at hq
    obtain hq | rfl := hq
    · exact h.confirmed hboth.1 q hq
    · exact hboth.2
  · have hiff : (o.push changed p x).settled = .unknown ↔ x = .unknown ∨ o.settled = .unknown := by
      rw [hsettled]
      cases x <;> cases hs : o.settled <;> simp_all
    rw [hiff, h.unknown, hphases, or_comm]
    simp [or_and_right, exists_or]
  · have hpersisted : (o.push changed p x).persisted = if p = .persist && x = .confirmed then
        changed else o.persisted := rfl
    rw [hpersisted, hphases, List.mem_append, List.mem_singleton, PhaseRecord.mk.injEq]
    split_ifs with hcond
    · simp only [Bool.and_eq_true, decide_eq_true_eq] at hcond
      simp [hcond]
    · rw [h.persisted]
      simp only [Bool.and_eq_true, decide_eq_true_eq, not_and] at hcond
      refine and_congr_right fun _ => (or_iff_left ?_).symm
      rintro ⟨rfl, rfl⟩
      exact hcond rfl rfl

/-- A plan that is stopped is not confirmed. -/
theorem Tallies.stop (h : o.Tallies changed) (hstop : o.settled ≠ .confirmed)
    (rest : List ConfigPhase) :
    (o.stop rest).Tallies changed := by
  have hphases : (o.stop rest).phases = o.phases ++ rest.map (⟨·, .notAttempted⟩) := rfl
  refine ⟨h.running, fun hconf => absurd hconf hstop, ?_, ?_⟩
  · refine h.unknown.trans ?_
    rw [hphases]
    simp [or_and_right, exists_or]
  · refine h.persisted.trans ?_
    rw [hphases]
    simp

end PlanOutcome

/-! ## The plan so far -/

/-- The phases that are done, and nothing else was dispatched. -/
structure Logged (d : Departure) (o : PlanOutcome) (w : World) : Prop where
  sure : ∀ q ∈ o.phases, Sure d w q.phase q.outcome
  dispatched : ∀ p x, .phase d.op.op p x ∈ w.effects → p ∈ o.phases.map (·.phase)
  idle : (d.op.changed → .persist ∉ o.phases.map (·.phase)) → w.landed = d.start.landed
  tallies : o.Tallies d.op.changed

theorem map_phase_push (o : PlanOutcome) (changed : Bool) (p : ConfigPhase) (x : PhaseOutcome) :
    (o.push changed p x).phases.map (·.phase) = o.phases.map (·.phase) ++ [p] := by
  simp [PlanOutcome.push]

theorem map_phase_stop (o : PlanOutcome) (rest : List ConfigPhase) :
    (o.stop rest).phases.map (·.phase) = o.phases.map (·.phase) ++ rest := by
  simp [PlanOutcome.stop, Function.comp_def]

/-- A phase that ran leaves the others as sure as they were. -/
theorem Ran.sure_of_ne {r : PhaseOutcome × Hook} (h : Ran d p rest w r w') {q : PhaseRecord}
    (hne : q.phase ≠ p) (hq : Sure d w q.phase q.outcome) : Sure d w' q.phase q.outcome := by
  refine ⟨hq.running, fun hx => (hq.confirmed hx).imp_left (h.old _), fun o ho => ?_, fun hp => ?_⟩
  · exact (hq.dispatched o ((h.dispatched _ o ho).resolve_left hne)).imp_right (h.old _)
  · rw [h.landed.resolve_left fun hpersist => hne (hp.trans hpersist.1.symm)]
    exact hq.persist hp

/-- What was run is logged after one more phase. -/
theorem Logged.push (h : Logged d o w) {r : PhaseOutcome × Hook} (hran : Ran d p rest w r w')
    (hnew : p ∉ o.phases.map (·.phase)) : Logged d (o.push d.op.changed p r.1) w' := by
  refine ⟨fun q hq => ?_, fun q x hq => ?_, fun hidle => ?_, h.tallies.push hran.sure.running⟩
  · obtain hq | hq := List.mem_append.1 hq
    · exact hran.sure_of_ne (fun heq => hnew (List.mem_map.2 ⟨q, hq, heq⟩)) (h.sure q hq)
    · rw [List.mem_singleton.1 hq]
      exact hran.sure
  · rw [map_phase_push, List.mem_append, List.mem_singleton]
    exact ((hran.dispatched q x hq).imp_right (h.dispatched q x)).symm
  · rw [map_phase_push] at hidle
    rw [hran.landed.resolve_left fun hp => hidle hp.2 (by simp [hp.1])]
    exact h.idle fun hchanged hin => hidle hchanged (List.mem_append_left _ hin)

/-- The phases that are not reached. -/
theorem Logged.stop (h : Logged d o w) (hstop : o.settled ≠ .confirmed) (hpersist : .persist ∉ rest)
    (hnew : ∀ q ∈ rest, q ∉ o.phases.map (·.phase)) : Logged d (o.stop rest) w := by
  refine ⟨fun q hq => ?_, fun q x hq => ?_, fun hidle => ?_, h.tallies.stop hstop rest⟩
  · obtain hq | hq := List.mem_append.1 hq
    · exact h.sure q hq
    · obtain ⟨p, hp, rfl⟩ := List.mem_map.1 hq
      refine ⟨by simp, by simp, fun o ho => absurd (h.dispatched p o ho) (hnew p hp), ?_⟩
      rintro rfl
      exact absurd hp hpersist
  · rw [map_phase_stop]
    exact List.mem_append_left _ (h.dispatched q x hq)
  · rw [map_phase_stop] at hidle
    exact h.idle fun hchanged hin => hidle hchanged (List.mem_append_left _ hin)

/-- The plan has ended. -/
structure Landed (d : Departure) (hk : Hook) (o : PlanOutcome) (w : World) : Prop where
  aloft : Aloft d.trip w
  sails : Sails d.trip w hk.journal
  plan : o.phases.map (·.phase) = d.op.plan
  log : Logged d o w
  taken : ⟨.persist, .unknown⟩ ∈ o.phases → w.store.snapshot = d.store.snapshot

/-- A plan that is stopped at a phase is not confirmed. -/
theorem settled_push_ne_confirmed {x : PhaseOutcome} (h : stops p x) (changed : Bool) :
    (o.push changed p x).settled ≠ .confirmed := by
  have hx : x ≠ .confirmed := by
    rintro rfl
    simp [stops] at h
  rw [PlanOutcome.settled_push]
  cases x <;> cases hs : o.settled <;> simp_all

/-- All phases of a plan keep the invariant. -/
theorem safe_runPlan (h : Cruising d hk rest w) (hlog : Logged d o w)
    (hplan : d.op.plan = o.phases.map (·.phase) ++ rest) (hsure : ⟨.persist, .unknown⟩ ∉ o.phases) :
    (runPlan d.op rest hk o).Safe (fun r w' => Landed d r.1 r.2 w') (Aloft d.trip) w := by
  induction rest generalizing hk o w with
  | nil =>
    exact .pure ⟨h.aloft, h.sails, by simpa using hplan.symm, hlog, fun hin => absurd hin hsure⟩
  | cons p rest ih =>
    refine .seq h.safe_stepPhase (fun _ => id) ?_
    rintro ⟨x, hk₁⟩ w₁ hran
    have hnodup := d.nodup
    rw [hplan, List.nodup_append, List.nodup_cons] at hnodup
    have hnew : ∀ q ∈ p :: rest, q ∉ o.phases.map (·.phase) :=
      fun q hq hin => hnodup.2.2 q hin q hq rfl
    have hlog₁ := hlog.push hran (hnew p List.mem_cons_self)
    dsimp only at hlog₁ ⊢
    have hplan₁ : d.op.plan = (o.push d.op.changed p x).phases.map (·.phase) ++ rest := by
      rw [map_phase_push, hplan]
      simp
    have hlast : ⟨.persist, .unknown⟩ ∈ (o.push d.op.changed p x).phases →
        p = .persist ∧ x = .unknown := by
      intro hin
      obtain hin | hin := List.mem_append.1 hin
      · exact absurd hin hsure
      · obtain ⟨hp, hx⟩ := PhaseRecord.mk.inj (List.mem_singleton.1 hin)
        exact ⟨hp.symm, hx.symm⟩
    split_ifs with hstops
    · refine .pure ⟨hran.aloft, hran.sails, (map_phase_stop _ _).trans hplan₁.symm,
        hlog₁.stop (settled_push_ne_confirmed hstops _) ?_ fun q hq => ?_, fun hin => ?_⟩
      · -- the config is written first
        refine fun hin => d.head ?_
        rw [hplan]
        cases o.phases.map (·.phase) with
        | nil => exact hin
        | cons q done => exact List.mem_append_right _ (List.mem_cons_of_mem p hin)
      · rw [map_phase_push, List.mem_append, List.mem_singleton]
        rintro (hin | rfl)
        · exact hnew q (List.mem_cons_of_mem p hq) hin
        · exact hnodup.2.1.1 hq
      · obtain hin | hin := List.mem_append.1 hin
        · obtain ⟨hp, hx⟩ := hlast hin
          exact hran.taken hp hx
        · simp at hin
    · refine ih (hran.next (by simpa using hstops)) hlog₁ hplan₁ fun hin => ?_
      obtain ⟨-, rfl⟩ := hlast hin
      simp [stops] at hstops

end VpnHide.Daemon

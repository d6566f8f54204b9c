import VpnHide.Daemon.Recovery

/-!
# A plan under any runner and any hook

`run_plan_hooked` of `core-daemon/src/operation.rs` asks a `PhaseRunner` for the effect of
each phase and tells an optional `PhaseHook` before and after it. `Daemon.Dispatch` runs the
plan with the journal's hook on a device; here the runner and the hook are arbitrary, with an
arbitrary state behind them, and the run also says which calls it made for each phase.

What a run records and what it settles on are tied by `PlanOutcome.Sound`, which every phase
keeps. The recovery of a receipt knows the records alone: `settleFromPhases` finds the same
verdict in them, unless there are none.
-/

namespace VpnHide.Daemon

open Config

variable {σ : Type*}

/-! ## The parties -/

/-- `PhaseHook`: an error replaces the outcome of the phase. -/
structure PhaseHook (σ : Type*) where
  before : ConfigPhase → σ → Except PhaseOutcome Unit × σ
  after : ConfigPhase → PhaseOutcome → σ → Except PhaseOutcome Unit × σ

/-- A `PhaseRunner` and the hook, if there is one, over the state `σ` of both. -/
structure Parties (σ : Type*) where
  run : ConfigPhase → CanonicalConfig → σ → PhaseOutcome × σ
  hook : Option (PhaseHook σ)

/-- What is left of a phase once it has been tried. -/
def PhaseOutcome.Final (o : PhaseOutcome) : Prop := o = .confirmed ∨ o = .failedKnown ∨ o = .unknown

instance (o : PhaseOutcome) : Decidable o.Final := inferInstanceAs (Decidable (_ ∨ _))

/-- The runner and the hook report final outcomes only. -/
structure Parties.Reports (p : Parties σ) : Prop where
  run : ∀ phase candidate s, (p.run phase candidate s).1.Final
  before : ∀ h ∈ p.hook, ∀ phase s fail, (h.before phase s).1 = .error fail → fail.Final
  after : ∀ h ∈ p.hook, ∀ phase outcome s fail, (h.after phase outcome s).1 = .error fail →
    fail.Final

/-- The calls that a plan makes to its parties. -/
inductive Call
  | before (phase : ConfigPhase)
  | run (phase : ConfigPhase)
  | after (phase : ConfigPhase) (outcome : PhaseOutcome)
  deriving DecidableEq

/-! ## One phase -/

/-- A phase that has been tried: its outcome, the calls made for it, the state after them. -/
structure Tried (σ : Type*) where
  outcome : PhaseOutcome
  calls : List Call
  state : σ

/-- The hook's objection to a phase, with the calls made to hear it. -/
def Parties.blocked (p : Parties σ) (phase : ConfigPhase) (s : σ) :
    Option PhaseOutcome × List Call × σ :=
  match p.hook with
  | none => (none, [], s)
  | some h =>
    match h.before phase s with
    | (.ok _, s) => (none, [.before phase], s)
    | (.error fail, s) => (some fail, [.before phase], s)

/-- The effect of a phase, and what the hook makes of its outcome. -/
def Parties.dispatch (p : Parties σ) (phase : ConfigPhase) (candidate : CanonicalConfig)
    (s : σ) : Tried σ :=
  let (outcome, s) := p.run phase candidate s
  match p.hook with
  | none => ⟨outcome, [.run phase], s⟩
  | some h =>
    match h.after phase outcome s with
    | (.ok _, s) => ⟨outcome, [.run phase, .after phase outcome], s⟩
    | (.error uncertain, s) => ⟨uncertain, [.run phase, .after phase outcome], s⟩

/-- The write of a config that did not change is not needed. -/
def Parties.tryPhase (p : Parties σ) (candidate : CanonicalConfig) (changed : Bool)
    (phase : ConfigPhase) (s : σ) :
    Tried σ :=
  if phase = .persist && !changed then ⟨.confirmed, [], s⟩
  else
    match p.blocked phase s with
    | (some fail, calls, s) => ⟨fail, calls, s⟩
    | (none, calls, s) =>
      let t := p.dispatch phase candidate s
      { t with calls := calls ++ t.calls }

/-! ## The plan -/

/-- A run of a plan; `calls` are those made for each phase that it came to. -/
structure PlanRun (σ : Type*) where
  outcome : PlanOutcome
  calls : List (List Call)
  state : σ

/-- The loop of `run_plan_hooked`, after what has been done. -/
def Parties.runRest (p : Parties σ) (candidate : CanonicalConfig) (changed : Bool) :
    List ConfigPhase → PlanOutcome → σ → PlanRun σ
  | [], o, s => ⟨o, [], s⟩
  | phase :: rest, o, s =>
    let t := p.tryPhase candidate changed phase s
    let o := o.push changed phase t.outcome
    if stops phase t.outcome then ⟨o.stop rest, [t.calls], t.state⟩
    else
      let next := p.runRest candidate changed rest o t.state
      { next with calls := t.calls :: next.calls }

/-- `run_plan_hooked`: the phases one after the other, until one fails. -/
def runPlanHooked (p : Parties σ) (plan : List ConfigPhase) (candidate : CanonicalConfig)
    (changed : Bool) (s : σ) :
    PlanRun σ :=
  p.runRest candidate changed plan .empty s

/-! ## What is recorded -/

/-- A phase that is tried ends for good. -/
theorem Parties.tryPhase_final {p : Parties σ} (hp : p.Reports) (candidate : CanonicalConfig)
    (changed : Bool) (phase : ConfigPhase) (s : σ) :
    (p.tryPhase candidate changed phase s).outcome.Final := by
  have hdispatch : ∀ s, (p.dispatch phase candidate s).outcome.Final := by
    intro s
    unfold Parties.dispatch
    cases hh : p.hook with
    | none => exact hp.run phase candidate s
    | some h =>
      dsimp only
      split
      · exact hp.run phase candidate s
      · rename_i heq
        exact hp.after h hh _ _ _ _ (congrArg Prod.fst heq)
  unfold Parties.tryPhase
  split
  · exact .inl rfl
  · split
    · rename_i fail calls s' heq
      unfold Parties.blocked at heq
      cases hh : p.hook with
      | none => simp [hh] at heq
      | some h =>
        rw [hh] at heq
        dsimp only at heq
        split at heq
        · simp at heq
        · rename_i heq'
          cases heq
          exact hp.before h hh _ _ _ (congrArg Prod.fst heq')
    · exact hdispatch _

/-- What the rest of the plan records. -/
def Parties.records (p : Parties σ) (candidate : CanonicalConfig) (changed : Bool) :
    List ConfigPhase → σ → List PhaseRecord
  | [], _ => []
  | phase :: rest, s =>
    let t := p.tryPhase candidate changed phase s
    ⟨phase, t.outcome⟩ ::
      if stops phase t.outcome then rest.map (⟨·, .notAttempted⟩)
      else p.records candidate changed rest t.state

section Records

variable (p : Parties σ) (candidate : CanonicalConfig) (changed : Bool)

/-- The phases of a plan, with those before it. -/
theorem runRest_phases (plan : List ConfigPhase) (o : PlanOutcome) (s : σ) :
    (p.runRest candidate changed plan o s).outcome.phases = o.phases ++ p.records candidate
      changed plan s := by
  induction plan generalizing o s with
  | nil => simp [Parties.runRest, Parties.records]
  | cons phase rest ih =>
    unfold Parties.runRest Parties.records
    dsimp only
    split
    · simp [PlanOutcome.stop, PlanOutcome.push]
    · simp [ih, PlanOutcome.push]

/-- The phases of a plan. -/
theorem runPlanHooked_phases (plan : List ConfigPhase) (s : σ) :
    (runPlanHooked p plan candidate changed s).outcome.phases =
      p.records candidate changed plan s :=
  (runRest_phases p candidate changed plan .empty s).trans (List.nil_append _)

/-- One record for each phase, in the plan's order. -/
theorem records_map_phase (plan : List ConfigPhase) (s : σ) :
    (p.records candidate changed plan s).map (·.phase) = plan := by
  induction plan generalizing s with
  | nil => rfl
  | cons phase rest ih =>
    unfold Parties.records
    dsimp only
    split
    · simp [Function.comp_def]
    · simp [ih]

/-- After a phase that stops the plan nothing is called and nothing is attempted. -/
theorem after_stop (plan : List ConfigPhase) (o : PlanOutcome) (s : σ) {i j : ℕ} {r : PhaseRecord}
    (hr : (p.records candidate changed plan s)[i]? = some r) (hstop : stops r.phase r.outcome)
    (hij : i < j) :
    (p.runRest candidate changed plan o s).calls[j]? = none ∧
      ∀ r', (p.records candidate changed plan s)[j]? = some r' → r'.outcome = .notAttempted := by
  induction plan generalizing o s i j with
  | nil => simp [Parties.records] at hr
  | cons phase rest ih =>
    obtain ⟨j, rfl⟩ : ∃ k, j = k + 1 := ⟨j - 1, by omega⟩
    unfold Parties.records at hr ⊢
    unfold Parties.runRest
    dsimp only at hr ⊢
    by_cases h : stops phase (p.tryPhase candidate changed phase s).outcome
    · simp only [h, if_true, List.getElem?_cons_succ, List.getElem?_nil,
        List.getElem?_map, true_and]
      intro r' hr'
      obtain ⟨_, _, rfl⟩ := Option.map_eq_some_iff.1 hr'
      rfl
    · simp only [h, if_false, Bool.false_eq_true, List.getElem?_cons_succ] at hr ⊢
      cases i with
      | zero =>
        -- the head does not stop the plan, so the stop is not here
        simp only [List.getElem?_cons_zero, Option.some.injEq] at hr
        subst hr
        exact absurd hstop h
      | succ i => exact ih _ _ hr (by omega)

/-- Nothing is called for the write of a config that did not change. -/
theorem unchanged_persist_calls (plan : List ConfigPhase) (o : PlanOutcome) (s : σ) {i : ℕ}
    {cs : List Call} (hi : plan[i]? = some .persist)
    (hcs : (p.runRest candidate false plan o s).calls[i]? = some cs) : cs = [] := by
  induction plan generalizing o s i with
  | nil => simp at hi
  | cons phase rest ih =>
    unfold Parties.runRest at hcs
    dsimp only at hcs
    cases i with
    | zero =>
      obtain rfl : phase = .persist := by simpa using hi
      -- whether or not the plan goes on, these are the calls of its head
      have hhead : (p.tryPhase candidate false .persist s).calls = cs := by
        split at hcs <;> simpa using hcs
      rw [← hhead]
      rfl
    | succ i =>
      split at hcs
      · simp at hcs
      · exact ih _ _ (by simpa using hi) (by simpa using hcs)

end Records

/-! ## What is settled -/

/-- The verdict and the mark of a write agree with what is recorded. -/
structure PlanOutcome.Sound (changed : Bool) (o : PlanOutcome) : Prop where
  final : o.settled.Final
  unknown : o.settled = .unknown ↔ ∃ r ∈ o.phases, r.outcome = .unknown
  failed : o.settled = .failedKnown ↔
    (∀ r ∈ o.phases, r.outcome ≠ .unknown) ∧ ∃ r ∈ o.phases, r.outcome = .failedKnown
  confirmed : o.settled = .confirmed ↔ ∀ r ∈ o.phases, r.outcome = .confirmed
  persisted : o.persisted ↔ changed ∧ ⟨.persist, .confirmed⟩ ∈ o.phases
  ended : ∀ r ∈ o.phases, r.outcome ≠ .running

namespace PlanOutcome.Sound

variable {changed : Bool} {o : PlanOutcome}

theorem empty : PlanOutcome.empty.Sound changed where
  final := .inl rfl
  unknown := by simp [PlanOutcome.empty]
  failed := by simp [PlanOutcome.empty]
  confirmed := by simp [PlanOutcome.empty]
  persisted := by simp [PlanOutcome.empty]
  ended := by simp [PlanOutcome.empty]

/-- The verdicts merge by severity: what is unknown, then what failed. -/
theorem push_settled (changed : Bool) {outcome : PhaseOutcome} (phase : ConfigPhase)
    (ho : o.settled.Final) (h : outcome.Final) :
    let settled := (o.push changed phase outcome).settled
    settled.Final ∧
      (settled = .unknown ↔ o.settled = .unknown ∨ outcome = .unknown) ∧
      (settled = .failedKnown ↔
        (o.settled ≠ .unknown ∧ outcome ≠ .unknown) ∧
          (o.settled = .failedKnown ∨ outcome = .failedKnown)) ∧
      (settled = .confirmed ↔ o.settled = .confirmed ∧ outcome = .confirmed) := by
  obtain ⟨phases, settled, persisted⟩ := o
  dsimp only at ho
  obtain rfl | rfl | rfl := ho <;> obtain rfl | rfl | rfl := h <;>
    simp [PlanOutcome.push, PhaseOutcome.Final]

/-- One more phase keeps the outcome sound. -/
theorem push {outcome : PhaseOutcome} (phase : ConfigPhase) (ho : o.Sound changed)
    (h : outcome.Final) :
    (o.push changed phase outcome).Sound changed := by
  obtain ⟨hfinal, hunknown, hfailed, hconfirmed⟩ := push_settled changed phase ho.final h
  have hphases : (o.push changed phase outcome).phases = o.phases ++ [⟨phase, outcome⟩] := rfl
  refine ⟨hfinal, ?_, ?_, ?_, ?_, ?_⟩
  · rw [hunknown, ho.unknown, hphases]
    simp [or_and_right, exists_or]
  · have hone : ∀ a b, (∃ r ∈ o.phases ++ [⟨a, b⟩], r.outcome = .failedKnown) ↔
        (∃ r ∈ o.phases, r.outcome = .failedKnown) ∨ b = .failedKnown := by
      simp [or_and_right, exists_or]
    have hnone : o.settled ≠ .unknown ↔ ∀ r ∈ o.phases, r.outcome ≠ .unknown := by
      rw [ne_eq, ho.unknown]
      push Not
      rfl
    rw [hfailed, hphases, hone, ho.failed, ← hnone]
    simp only [List.forall_mem_append, List.forall_mem_singleton, ← hnone]
    refine and_congr_right fun ⟨hs, _⟩ => ?_
    rw [and_iff_right hs]
  · rw [hconfirmed, ho.confirmed, hphases]
    simp [or_imp, forall_and]
  · have hmem : (⟨.persist, .confirmed⟩ : PhaseRecord) ∈ (o.push changed phase outcome).phases ↔
        ⟨.persist, .confirmed⟩ ∈ o.phases ∨ (phase = .persist ∧ outcome = .confirmed) := by
      rw [hphases]
      simp [eq_comm]
    rw [hmem]
    have hp := ho.persisted
    by_cases hhere : phase = .persist ∧ outcome = .confirmed
    · simp [PlanOutcome.push, hhere]
    · have : (o.push changed phase outcome).persisted = o.persisted := by
        simp [PlanOutcome.push, hhere]
      rw [this, hp]
      simp [hhere]
  · intro r hr
    rw [hphases] at hr
    obtain hr | hr := List.mem_append.1 hr
    · exact ho.ended r hr
    · obtain rfl := List.mem_singleton.1 hr
      obtain rfl | rfl | rfl := h <;> simp

/-- What is not attempted weighs nothing beside what stopped the plan. -/
theorem stop (rest : List ConfigPhase) (ho : o.Sound changed) (hbad : o.settled ≠ .confirmed) :
    (o.stop rest).Sound changed := by
  have hrest : ∀ r ∈ rest.map fun phase => (⟨phase, .notAttempted⟩ : PhaseRecord),
      r.outcome = .notAttempted := by
    intro r hr
    obtain ⟨_, _, rfl⟩ := List.mem_map.1 hr
    rfl
  -- the records that are not attempted carry no outcome that any clause looks for
  have hmem : ∀ r, r.outcome ≠ .notAttempted → (r ∈ (o.stop rest).phases ↔ r ∈ o.phases) := by
    intro r hr
    simp only [PlanOutcome.stop, List.mem_append, or_iff_left_iff_imp]
    exact fun h => absurd (hrest r h) hr
  have hex : ∀ a, a ≠ .notAttempted →
      ((∃ r ∈ (o.stop rest).phases, r.outcome = a) ↔ ∃ r ∈ o.phases, r.outcome = a) := by
    intro a ha
    exact exists_congr fun r => and_congr_left fun hr => hmem r (hr ▸ ha)
  refine ⟨ho.final, ?_, ?_, ?_, ?_, ?_⟩
  · rw [hex _ (by decide)]
    exact ho.unknown
  · have hnone : (∀ r ∈ (o.stop rest).phases, r.outcome ≠ .unknown) ↔
        ∀ r ∈ o.phases, r.outcome ≠ .unknown := by
      have := not_congr (hex .unknown (by decide))
      push Not at this
      exact this
    rw [hex _ (by decide), hnone]
    exact ho.failed
  · refine iff_of_false hbad fun hall => hbad (ho.confirmed.2 fun r hr => hall r ?_)
    exact List.mem_append_left _ hr
  · rw [hmem _ (by simp)]
    exact ho.persisted
  · intro r hr
    obtain hr | hr := List.mem_append.1 hr
    · exact ho.ended r hr
    · rw [hrest r hr]
      decide

/-- Recovery finds the verdict in the records. -/
theorem settleFromPhases_eq (ho : o.Sound changed) (hne : o.phases ≠ []) :
    settleFromPhases o.phases = o.settled := by
  have hempty : o.phases.isEmpty = false := by simpa using hne
  unfold settleFromPhases
  rw [hempty, if_neg (by decide)]
  obtain h | h | h := ho.final
  · have hall := ho.confirmed.1 h
    rw [h, if_neg, if_neg, if_neg]
    all_goals
      simp only [List.any_eq_true, not_exists, not_and]
      intro r hr
      simp [hall r hr]
  · obtain ⟨hnone, r, hr, hfailed⟩ := ho.failed.1 h
    rw [h, if_neg, if_pos]
    · exact List.any_eq_true.2 ⟨r, hr, by simp [hfailed]⟩
    · simp only [List.any_eq_true, not_exists, not_and]
      intro r hr
      simp [hnone r hr, ho.ended r hr]
  · obtain ⟨r, hr, hunknown⟩ := ho.unknown.1 h
    rw [h, if_pos]
    exact List.any_eq_true.2 ⟨r, hr, by simp [hunknown]⟩

end PlanOutcome.Sound

/-- The outcome of a plan is sound. -/
theorem runRest_sound {p : Parties σ} (hp : p.Reports) (candidate : CanonicalConfig)
    {changed : Bool} (plan : List ConfigPhase) {o : PlanOutcome} (s : σ) (ho : o.Sound changed) :
    (p.runRest candidate changed plan o s).outcome.Sound changed := by
  induction plan generalizing o s with
  | nil => exact ho
  | cons phase rest ih =>
    have ht := p.tryPhase_final hp candidate changed phase s
    have hpush := ho.push phase ht
    unfold Parties.runRest
    dsimp only
    split
    · rename_i hstop
      refine hpush.stop rest fun hsettled => ?_
      -- a phase that stops the plan is not confirmed
      have := (PlanOutcome.Sound.push_settled changed phase ho.final ht).2.2.2.1 hsettled
      simp [stops, this.2] at hstop
    · exact ih _ hpush

/-! ## The whole run -/

/-- A run records each phase of its plan once and in order. After a phase that is not
    confirmed, unless it is a known failure of Native or Ports, nothing is called and the
    rest is not attempted. The verdict and the mark of a write are those of the records, and
    recovery finds the verdict in them again. -/
theorem runPlanHooked_spec (p : Parties σ) (hp : p.Reports) (plan : List ConfigPhase)
    (candidate : CanonicalConfig) (changed : Bool) (s : σ) :
    let run := runPlanHooked p plan candidate changed s
    let o := run.outcome
    o.phases.map (·.phase) = plan ∧
      (∀ (i : ℕ) (r : PhaseRecord), o.phases[i]? = some r → r.outcome ≠ .confirmed →
        ¬(r.outcome = .failedKnown ∧ (r.phase = .native ∨ r.phase = .ports)) →
        ∀ j, i < j → run.calls[j]? = none ∧ ∀ r' : PhaseRecord, o.phases[j]? = some r' →
        r'.outcome = .notAttempted) ∧
      (o.settled = .unknown ↔ ∃ r ∈ o.phases, r.outcome = .unknown) ∧
      (o.settled = .failedKnown ↔
        (∀ r ∈ o.phases, r.outcome ≠ .unknown) ∧ ∃ r ∈ o.phases, r.outcome = .failedKnown) ∧
      (o.settled = .confirmed ↔ ∀ r ∈ o.phases, r.outcome = .confirmed) ∧
      (o.persisted ↔ changed ∧ ⟨.persist, .confirmed⟩ ∈ o.phases) ∧
      (changed = false → ∀ (i : ℕ) (cs : List Call), plan[i]? = some .persist →
        run.calls[i]? = some cs → cs = []) ∧
      (plan ≠ [] → settleFromPhases o.phases = o.settled) := by
  intro run o
  have hsound : o.Sound changed := runRest_sound hp candidate plan s .empty
  have hphases : o.phases = p.records candidate changed plan s :=
    runPlanHooked_phases p candidate changed plan s
  have hplan : o.phases.map (·.phase) = plan := by
    rw [hphases]
    exact records_map_phase p candidate changed plan s
  refine ⟨hplan, ?_, hsound.unknown, hsound.failed, hsound.confirmed, hsound.persisted, ?_, ?_⟩
  · -- After a phase that stops the plan, nothing is called any more.
    intro i r hr hbad hind j hij
    rw [hphases] at hr ⊢
    refine after_stop p candidate changed plan .empty s hr ?_ hij
    simpa [stops, hbad, imp_iff_not_or] using hind
  · rintro rfl i cs hi hcs
    exact unchanged_persist_calls p candidate plan .empty s hi hcs
  · -- A plan that is not empty has a phase to settle from.
    intro hne
    refine hsound.settleFromPhases_eq fun hnil => hne ?_
    rw [← hplan, hnil, List.map_nil]

/-- A runner with one outcome for every phase, and no hook. -/
def Parties.always (outcome : PhaseOutcome) : Parties Unit := ⟨fun _ _ s => (outcome, s), none⟩

/-- A hook that lets Native through and then doubts it. -/
def Parties.doubted : Parties Unit where
  run := fun _ _ s => (.confirmed, s)
  hook := some {
    before := fun _ s => (.ok (), s)
    after := fun phase _ s => (if phase = .native then .error .unknown else .ok (), s) }

/-- The doubtful parties report how their phases end. -/
theorem Parties.doubted_reports : Parties.doubted.Reports where
  run := fun _ _ _ => .inl rfl
  before := by
    rintro h ⟨⟩ phase s fail hfail
    cases hfail
  after := by
    rintro h ⟨⟩ phase outcome s fail hfail
    dsimp only [Parties.doubted] at hfail
    split at hfail
    · cases hfail
      exact .inr (.inr rfl)
    · cases hfail

/-- Native is doubted, so Ports is not attempted and the verdict is unknown. -/
theorem runPlanHooked_spec_doubted :
    Parties.doubted.Reports ∧
      settleFromPhases
          (runPlanHooked .doubted [.persist, .native, .ports] .default true ()).outcome.phases =
            .unknown ∧
      (runPlanHooked .doubted [.persist, .native, .ports] .default true ()).outcome.phases =
        [⟨.persist, .confirmed⟩, ⟨.native, .unknown⟩, ⟨.ports, .notAttempted⟩] :=
  ⟨Parties.doubted_reports,
    ((runPlanHooked_spec .doubted Parties.doubted_reports [.persist, .native, .ports] .default
      true ()).2.2.2.2.2.2.2
      (by decide)).trans rfl,
    rfl⟩

/-- An empty plan is confirmed, and recovery calls a receipt without records unknown. -/
theorem empty_plan_settles_apart :
    let o := (runPlanHooked (.always .confirmed) [] .default true ()).outcome
    (¬∃ (i j : ℕ) (r r' : PhaseRecord), i < j ∧ o.phases[i]? = some r ∧ r.outcome = .failedKnown ∧
        o.phases[j]? = some r' ∧ r'.outcome = .notAttempted) ∧
      settleFromPhases o.phases = .unknown ∧ o.settled = .confirmed := by
  refine ⟨?_, rfl, rfl⟩
  rintro ⟨i, j, r, r', -, hr, -⟩
  cases hr

end VpnHide.Daemon

import VpnHide.Autonomous.Coordinator

/-!
# Evidence and the policy it is of

A run that was published as stale is not shown as current again, a run that is completed and
current was started for the policy and the runtime of every publication since, and the
assessment that is published is that of the run (`Sound`).

The coordinator's own copy of a run is not marked stale with the published one, so this fails
where the policy is changed and changed back while the run is measured: the run is then
completed as a current one. `evidence_sound_iff` says that it fails nowhere else.
-/

namespace VpnHide.Autonomous

variable {R N V D A : Type} [DecidableEq D] {env : Env R N V D A}

/-- What the publications show of the runs. -/
structure Sound (env : Env R N V D A) (history : List (StateSnapshot R N V D A)) : Prop where
  /-- A session that is stale stays so. -/
  sticky : history.Pairwise fun p q => ∀ r r', p.autonomousDiagnostics = some r →
    q.autonomousDiagnostics = some r' → r'.session = r.session → r.stale = true → r'.stale = true
  /-- From its start on, the policy and the runtime were those of the run. -/
  unchanged : ∀ first between last, first :: (between ++ [last]) <:+: history → ∀ r r',
    first.autonomousDiagnostics = some r → last.autonomousDiagnostics = some r' →
      r'.session = r.session →
    r'.outcome.completed = true → r'.stale = false → ∀ p ∈ first :: (between ++ [last]),
      contextDigests env p.context = (r'.fingerprint.policySha256, r'.fingerprint.runtimeSha256)
  assessed : ∀ p ∈ history, p.autonomousAssessment = p.autonomousDiagnostics.map env.assessment

namespace World

/-- The run that a step ends, and the last fingerprint that was taken for it. -/
def ending (w : World R N V D A) :
    Step R N V → Option (DiagnosticRun N V D × DiagnosticFingerprint D)
  | .spawn false =>
    if w.spawning.isSome then w.inner.last.map fun run => (run, run.fingerprint) else none
  | .complete i =>
    match w.executions[i]? with
    | some ⟨session, some (_, current)⟩ =>
      if w.unlocked && w.inner.active = some session then w.inner.last.map fun run =>
        (run, current) else none
    | _ => none
  | _ => none

/-- Where a run ends that was published as stale, the policy and the runtime are not back at
    what they were when it started. -/
def Keeps (env : Env R N V D A) (w : World R N V D A) (step : Step R N V) : Prop :=
  ∀ run current, w.ending step = some (run, current) →
    (∃ r, w.snapshot.autonomousDiagnostics = some r ∧ r.stale = true) →
    ¬ (current = run.fingerprint ∧ matchesContext env w.snapshot.context run)

end World

/-! ## Publications -/

section Publications

variable {p q s : StateSnapshot R N V D A}

/-- The session of a later publication is not an earlier one, and its run is the same. -/
structure Grows (p q : StateSnapshot R N V D A) : Prop where
  order : ∀ r, p.autonomousDiagnostics = some r → ∃ r', q.autonomousDiagnostics = some r' ∧
    r.session ≤ r'.session
  fingerprint : ∀ r r', p.autonomousDiagnostics = some r → q.autonomousDiagnostics = some r' →
    r'.session = r.session → r'.fingerprint = r.fingerprint

/-- A run that was marked stale stays so. -/
def Sticky (p q : StateSnapshot R N V D A) : Prop :=
  ∀ r r', p.autonomousDiagnostics = some r → q.autonomousDiagnostics = some r' →
    r'.session = r.session → r.stale = true → r'.stale = true

/-- A run that is not stale was started for what is published with it. -/
structure Checked (env : Env R N V D A) (p : StateSnapshot R N V D A) : Prop where
  current : ∀ r, p.autonomousDiagnostics = some r → r.stale = false →
    contextDigests env p.context = (r.fingerprint.policySha256, r.fingerprint.runtimeSha256)
  assessed : p.autonomousAssessment = p.autonomousDiagnostics.map env.assessment

omit [DecidableEq D] in

/-- Between two states of one run there is none of another one. -/
theorem Grows.middle (h : Grows p s) (h' : Grows s q) {r r' : DiagnosticRun N V D}
    (hr : p.autonomousDiagnostics = some r) (hr' : q.autonomousDiagnostics = some r')
    (hsession : r'.session = r.session) :
    ∃ r₀, s.autonomousDiagnostics = some r₀ ∧ r₀.session = r.session := by
  obtain ⟨r₀, hr₀, hle⟩ := h.order r hr
  obtain ⟨r'', hr'', hle'⟩ := h'.order r₀ hr₀
  obtain rfl := Option.some.inj (hr''.symm.trans hr')
  exact ⟨r₀, hr₀, le_antisymm (hsession ▸ hle') hle⟩

omit [DecidableEq D] in

/-- Growth goes on. -/
theorem Grows.trans (h : Grows p s) (h' : Grows s q) : Grows p q := by
  refine ⟨fun r hr => ?_, fun r r' hr hr' hsession => ?_⟩
  · obtain ⟨r₀, hr₀, hle⟩ := h.order r hr
    obtain ⟨r', hr', hle'⟩ := h'.order r₀ hr₀
    exact ⟨r', hr', hle.trans hle'⟩
  · obtain ⟨r₀, hr₀, hsession₀⟩ := h.middle h' hr hr' hsession
    exact (h'.fingerprint r₀ r' hr₀ hr' (hsession.trans hsession₀.symm)).trans
      (h.fingerprint r r₀ hr hr₀ hsession₀)

omit [DecidableEq D] in

/-- What is marked stays marked. -/
theorem Sticky.trans (hps : Sticky p s) (hsq : Sticky s q) (h : Grows p s) (h' : Grows s q) :
    Sticky p q := by
  intro r r' hr hr' hsession hstale
  obtain ⟨r₀, hr₀, hsession₀⟩ := h.middle h' hr hr' hsession
  exact hsq r₀ r' hr₀ hr' (hsession.trans hsession₀.symm) (hps r r₀ hr hr₀ hsession₀ hstale)

/-- When a run is of a context. -/
theorem matchesContext_iff {context : Context R} {run : DiagnosticRun N V D} :
    matchesContext env context run ↔ run.fingerprint.coreEpoch = env.epoch ∧
      contextDigests env context =
        (run.fingerprint.policySha256, run.fingerprint.runtimeSha256) := by
  simp only [matchesContext, Bool.and_eq_true, decide_eq_true_eq, Prod.ext_iff, and_assoc]
  constructor
  · rintro ⟨hepoch, hpolicy, hruntime⟩
    exact ⟨hepoch, hpolicy.symm, hruntime.symm⟩
  · rintro ⟨hepoch, hpolicy, hruntime⟩
    exact ⟨hepoch, hpolicy.symm, hruntime.symm⟩

/-- The run, as a publication shows it. -/
def shown (env : Env R N V D A) (context : Context R) (run : DiagnosticRun N V D) :
    DiagnosticRun N V D :=
  { run with stale := run.stale || !matchesContext env context run }

/-- The mark is put on a run that no longer fits. -/
theorem invalidatePublished_diagnostics (s : StateSnapshot R N V D A) :
    (invalidatePublished env s).autonomousDiagnostics =
      s.autonomousDiagnostics.map (shown env s.context) := by
  rw [invalidatePublished]
  cases s.autonomousDiagnostics with
  | none => rfl
  | some run => rfl

theorem invalidatePublished_context (s : StateSnapshot R N V D A) :
    (invalidatePublished env s).context = s.context := by
  rw [invalidatePublished]
  cases s.autonomousDiagnostics <;> rfl

/-- After the check an unmarked run is of the context. -/
theorem checked_invalidatePublished (s : StateSnapshot R N V D A) :
    Checked env (invalidatePublished env s) := by
  refine ⟨fun r hr hcurrent => ?_, ?_⟩
  · rw [invalidatePublished_diagnostics] at hr
    obtain ⟨run, hrun, rfl⟩ := Option.map_eq_some_iff.1 hr
    rw [invalidatePublished_context]
    simp only [shown, Bool.or_eq_false_iff, Bool.not_eq_false'] at hcurrent
    exact (matchesContext_iff.1 hcurrent.2).2
  · rw [invalidatePublished]
    cases s.autonomousDiagnostics with
    | none => rfl
    | some run => rfl

end Publications

/-! ## What every run of Core keeps -/

/-- The coordinator's copy of the active run is the one that is published, and is not marked
    stale. -/
structure World.Good (env : Env R N V D A) (w : World R N V D A) : Prop where
  latest : w.history.getLast? = some w.snapshot
  checked : ∀ p ∈ w.history, Checked env p
  grows : w.history.Pairwise Grows
  bound : ∀ r, w.snapshot.autonomousDiagnostics = some r → r.session ≤ w.inner.next
  active : ∀ session, w.inner.active = some session → ∃ run r, w.inner.last = some run ∧
    run.session = session ∧ run.stale = false ∧ w.snapshot.autonomousDiagnostics = some r ∧
    r.session = session ∧
    r.fingerprint = run.fingerprint
  spawning : ∀ session, w.spawning = some session → w.inner.active = some session

namespace World.Good

variable {w : World R N V D A}

omit [DecidableEq D] in

/-- The invariant holds at the start. -/
theorem start (context : Context R) : (World.start context : World R N V D A).Good env where
  latest := rfl
  checked p hp := by
    rw [List.mem_singleton.1 hp]
    exact ⟨fun r hr => (by cases hr), rfl⟩
  grows := List.pairwise_singleton _ _
  bound r hr := by cases hr
  active session hsession := by cases hsession
  spawning session hsession := by cases hsession

omit [DecidableEq D] in

/-- The last snapshot is in the history. -/
theorem snapshot_mem (h : w.Good env) : w.snapshot ∈ w.history := List.mem_of_getLast? h.latest

omit [DecidableEq D] in
/-- What is published last follows what was published before. -/
theorem grows_snapshot (h : w.Good env) {p : StateSnapshot R N V D A} (hp : p ∈ w.history) :
    p = w.snapshot ∨ Grows p w.snapshot := by
  obtain ⟨before, hbefore⟩ := List.getLast?_eq_some_iff.1 h.latest
  have hgrows := h.grows
  rw [hbefore, List.pairwise_append] at hgrows
  rw [hbefore] at hp
  obtain hp | hp := List.mem_append.1 hp
  · exact .inr (hgrows.2.2 p hp _ (List.mem_singleton_self _))
  · exact .inl (List.mem_singleton.1 hp)

omit [DecidableEq D] in

/-- The last snapshot keeps all marks. -/
theorem sticky_snapshot (h : w.Good env) (hsticky : w.history.Pairwise Sticky)
    {p : StateSnapshot R N V D A} (hp : p ∈ w.history) : Sticky p w.snapshot := by
  obtain ⟨before, hbefore⟩ := List.getLast?_eq_some_iff.1 h.latest
  rw [hbefore, List.pairwise_append] at hsticky
  rw [hbefore] at hp
  obtain hp | hp := List.mem_append.1 hp
  · exact hsticky.2.2 p hp _ (List.mem_singleton_self _)
  · rw [List.mem_singleton.1 hp]
    intro r r' hr hr' _ hstale
    rw [← Option.some.inj (hr.symm.trans hr')]
    exact hstale

/-- A publication after which the history grows. -/
theorem publish (h : w.Good env) {s : StateSnapshot R N V D A}
    (hgrows : Grows w.snapshot (invalidatePublished env s)) :
    (∀ p ∈ (w.publishSnapshot env s).history, Checked env p) ∧
      (w.publishSnapshot env s).history.Pairwise Grows := by
  refine ⟨fun p hp => ?_, ?_⟩
  · obtain hp | hp := List.mem_append.1 hp
    · exact h.checked p hp
    · rw [List.mem_singleton.1 hp]
      exact checked_invalidatePublished s
  · refine List.pairwise_append.2 ⟨h.grows, List.pairwise_singleton _ _, fun p hp q hq => ?_⟩
    rw [List.mem_singleton.1 hq]
    obtain rfl | hp := h.grows_snapshot hp
    · exact hgrows
    · exact hp.trans hgrows

/-- The history is sticky after a publication if it was before, and the last two are. -/
theorem sticky_publish (h : w.Good env) {s : StateSnapshot R N V D A}
    (hgrows : Grows w.snapshot (invalidatePublished env s)) :
    (w.publishSnapshot env s).history.Pairwise Sticky ↔
      w.history.Pairwise Sticky ∧ Sticky w.snapshot (invalidatePublished env s) := by
  rw [World.publishSnapshot, List.pairwise_append]
  constructor
  · rintro ⟨hsticky, -, hlast⟩
    exact ⟨hsticky, hlast _ h.snapshot_mem _ (List.mem_singleton_self _)⟩
  · rintro ⟨hsticky, hlast⟩
    refine ⟨hsticky, List.pairwise_singleton _ _, fun p hp q hq => ?_⟩
    rw [List.mem_singleton.1 hq]
    have hp' := h.sticky_snapshot hsticky hp
    obtain rfl | hgrows' := h.grows_snapshot hp
    · exact hlast
    · exact hp'.trans hlast hgrows' hgrows

end World.Good

/-! ## Steps -/

/-- A step that publishes nothing, and leaves the runs alone. -/
structure Quiet (w w' : World R N V D A) : Prop where
  snapshot : w'.snapshot = w.snapshot
  history : w'.history = w.history
  next : w'.inner.next = w.inner.next
  active : w'.inner.active = w.inner.active
  last : w'.inner.last = w.inner.last
  spawning : w'.spawning = w.spawning ∨ w'.spawning = none

omit [DecidableEq D] in

/-- Nothing has happened. -/
theorem Quiet.refl (w : World R N V D A) : Quiet w w := ⟨rfl, rfl, rfl, rfl, rfl, .inl rfl⟩

/-- All that a step can do. -/
inductive StepCase (env : Env R N V D A) (w : World R N V D A) (step : Step R N V) :
    World R N V D A → Prop
  | quiet (w' : World R N V D A) (hquiet : Quiet w w') (hending : w.ending step = none) :
      StepCase env w step w'
  | context (context : Context R) (hending : w.ending step = none) :
      StepCase env w step (w.publishContext env context)
  | start (requests : List (Request D)) (run : DiagnosticRun N V D)
      (hsession : run.session = w.inner.next + 1)
      (hstale : run.stale = false) (hending : w.ending step = none) :
      StepCase env w step (World.startRun env { w with requests } run)
  | abandon (session : ℕ) (run : DiagnosticRun N V D) (hspawning : w.spawning = some session)
      (hlast : w.inner.last = some run) (hending : w.ending step = some (run, run.fingerprint)) :
      StepCase env w step (w.abandonRun env { run with outcome := threadUnavailable })
  | complete (session : ℕ) (executions : List (Execution N V D)) (result : MeasureResult N V)
      (current : DiagnosticFingerprint D) (run : DiagnosticRun N V D) (hunlocked : w.unlocked)
      (hactive : w.inner.active = some session) (hlast : w.inner.last = some run)
      (hending : w.ending step = some (run, current)) :
      StepCase env w step
        (World.completeRun env { w with executions } (finishRun env run result current))

/-- A request that starts a run starts a new one. -/
theorem admission_start {inner : Inner N V D} {request : Request D} {deadline : Bool}
    {run : DiagnosticRun N V D} (h : inner.admission request deadline = .start run) :
    run.session = inner.next + 1 ∧ run.stale = false := by
  have hreserve : inner.reserve request deadline = .start run → run.session = inner.next + 1 ∧
      run.stale = false := by
    intro h
    rw [Inner.reserve] at h
    split_ifs at h
    cases h
    exact ⟨rfl, rfl⟩
  rw [Inner.admission] at h
  cases hlast : inner.last with
  | none =>
    simp only [hlast] at h
    split_ifs at h
    exact hreserve h
  | some last =>
    simp only [hlast] at h
    split_ifs at h
    exact hreserve h

/-- A thread that cannot complete its run goes away. -/
theorem completion_eq_none {w : World R N V D A} {i : ℕ} {execution : Execution N V D}
    (hexecution : w.executions[i]? = some execution) (h : w.completion env execution = none) :
    w.ending (.complete i) = none := by
  obtain ⟨session, measured⟩ := execution
  simp only [World.ending, hexecution]
  cases measured with
  | none => rfl
  | some measured =>
    obtain ⟨result, current⟩ := measured
    simp only [World.completion] at h
    by_cases hactive : w.inner.active = some session
    · rw [if_pos hactive] at h
      cases hlast : w.inner.last with
      | none => simp
      | some run => simp [hlast] at h
    · simp [hactive]

/-- What one step may do. -/
theorem step_case (w : World R N V D A) (step : Step R N V) :
    StepCase env w step (w.step env step) := by
  cases step with
  | update context => exact .context context rfl
  | publish context => exact .context context rfl
  | updateIfChanged context changed =>
    cases changed with
    | false => exact .quiet _ (.refl w) rfl
    | true => exact .context context rfl
  | configure => exact .quiet _ ⟨rfl, rfl, rfl, rfl, rfl, .inl rfl⟩ rfl
  | cancel => exact .quiet _ ⟨rfl, rfl, rfl, rfl, rfl, .inl rfl⟩ rfl
  | readSnapshot force clean =>
    rw [World.step]
    split_ifs
    · exact .quiet _ ⟨rfl, rfl, rfl, rfl, rfl, .inl rfl⟩ rfl
    · exact .quiet _ (.refl w) rfl
  | reserve i deadline =>
    rw [World.step]
    cases w.requests[i]? with
    | none => exact .quiet _ (.refl w) rfl
    | some request =>
      -- A request is admitted only while no session is being spawned.
      by_cases hunlocked : w.unlocked
      · simp only [if_pos hunlocked]
        cases hadmission : w.inner.admission request deadline with
        | answer _ => exact .quiet _ ⟨rfl, rfl, rfl, rfl, rfl, .inl rfl⟩ rfl
        | start run =>
          obtain ⟨hsession, hstale⟩ := admission_start hadmission
          exact .start (w.requests.eraseIdx i) run hsession hstale rfl
      · simp only [if_neg hunlocked]
        exact .quiet _ (.refl w) rfl
  | spawn ok =>
    rw [World.step]
    -- A worker that cannot be spawned ends the session that was reserved for it.
    cases hspawning : w.spawning with
    | none =>
      cases ok with
      | false => exact .quiet _ (.refl w) (by simp [World.ending, hspawning])
      | true => exact .quiet _ (.refl w) rfl
    | some session =>
      cases hlast : w.inner.last with
      | none =>
        cases ok with
        | false => exact .quiet _ (.refl w) (by simp [World.ending, hspawning, hlast])
        | true => exact .quiet _ (.refl w) rfl
      | some run =>
        cases ok with
        | false =>
          exact .abandon session run hspawning hlast (by simp [World.ending, hspawning, hlast])
        | true => exact .quiet _ ⟨rfl, rfl, rfl, rfl, rfl, .inr rfl⟩ rfl
  | measured i result =>
    rw [World.step]
    split
    · exact .quiet _ ⟨rfl, rfl, rfl, rfl, rfl, .inl rfl⟩ rfl
    · exact .quiet _ (.refl w) rfl
  | complete i =>
    rw [World.step]
    cases hexecution : w.executions[i]? with
    | none => exact .quiet _ (.refl w) (by simp [World.ending, hexecution])
    | some execution =>
      -- A run ends when it has been measured, and nothing is being spawned.
      by_cases hready : w.unlocked && execution.measured.isSome
      · simp only [if_pos hready]
        rw [Bool.and_eq_true] at hready
        obtain ⟨hunlocked, hmeasured⟩ := hready
        cases hcompletion :
            World.completion env { w with executions := w.executions.eraseIdx i } execution with
        | none =>
          exact .quiet _ ⟨rfl, rfl, rfl, rfl, rfl, .inl rfl⟩
            (completion_eq_none hexecution hcompletion)
        | some run' =>
          obtain ⟨session, measured⟩ := execution
          obtain ⟨⟨result, current⟩, rfl⟩ := Option.isSome_iff_exists.1 hmeasured
          simp only [World.completion] at hcompletion
          split_ifs at hcompletion with hactive
          cases hlast : w.inner.last with
          | none => simp [hlast] at hcompletion
          | some run =>
            simp only [hlast, Option.some.injEq] at hcompletion
            obtain rfl := hcompletion
            refine .complete session (w.executions.eraseIdx i) result current run
              hunlocked hactive hlast ?_
            simp [World.ending, hexecution, hunlocked, hactive, hlast]
      · simp only [if_neg hready]
        refine .quiet _ (.refl w) ?_
        obtain ⟨session, measured⟩ := execution
        cases measured with
        | none => simp [World.ending, hexecution]
        | some measured =>
          have hlocked : w.unlocked = false := by simpa using hready
          simp [World.ending, hexecution, hlocked]

section Runs

variable {w : World R N V D A}

omit [DecidableEq D] in

/-- The checks that are missing change nothing else. -/
theorem refreshMissing_eq (run : DiagnosticRun N V D) :
    (refreshMissing env run).session = run.session ∧
      (refreshMissing env run).fingerprint = run.fingerprint ∧
      (refreshMissing env run).stale = run.stale := by
  rw [refreshMissing]
  split <;> exact ⟨rfl, rfl, rfl⟩

/-- Completing a run changes nothing of what it is a run of. -/
theorem finishRun_eq (run : DiagnosticRun N V D) (result : MeasureResult N V)
    (current : DiagnosticFingerprint D) :
    (finishRun env run result current).session = run.session ∧
      (finishRun env run result current).fingerprint = run.fingerprint ∧
      (finishRun env run result current).stale =
        (run.stale || decide (current ≠ run.fingerprint)) := by
  have hmeasured : ∀ measured : DiagnosticRun N V D, measured.session = run.session →
      measured.fingerprint = run.fingerprint → measured.stale = run.stale →
      let finished :=
    if measured.fingerprint ≠ current then { measured with stale := true } else measured
      finished.session = run.session ∧ finished.fingerprint = run.fingerprint ∧
        finished.stale = (run.stale || decide (current ≠ run.fingerprint)) := by
    intro measured hsession hfingerprint hstale
    by_cases hcurrent : current = run.fingerprint
    · simp [hsession, hfingerprint, hstale, hcurrent]
    · have hne : run.fingerprint ≠ current := fun h => hcurrent h.symm
      simp [hsession, hfingerprint, hcurrent, hne]
  cases result with
  | ok native evidence =>
    obtain ⟨hsession, hfingerprint, hstale⟩ := @refreshMissing_eq R N V D A env
      { run with evidence := some evidence, outcome := .incomplete native [] }
    exact hmeasured _ hsession hfingerprint hstale
  | failed detail native cleanupConfirmed evidence => exact hmeasured _ rfl rfl rfl

/-- A change of the context keeps the run. -/
theorem grows_context (s : StateSnapshot R N V D A) (context : Context R) :
    Grows s (invalidatePublished env { s with context }) := by
  refine ⟨fun r hr => ?_, fun r r' hr hr' _ => ?_⟩
  · exact ⟨shown env context r, by rw [invalidatePublished_diagnostics, hr]; rfl, le_rfl⟩
  · rw [invalidatePublished_diagnostics, hr] at hr'
    rw [← Option.some.inj hr']
    rfl

/-- A change of the context keeps the mark. -/
theorem sticky_context (s : StateSnapshot R N V D A) (context : Context R) :
    Sticky s (invalidatePublished env { s with context }) := by
  intro r r' hr hr' _ hstale
  rw [invalidatePublished_diagnostics, hr] at hr'
  rw [← Option.some.inj hr']
  simp [shown, hstale]

/-- A run that is published is the same one, or a later one. -/
theorem grows_run {s : StateSnapshot R N V D A} {run : DiagnosticRun N V D}
    (h : ∀ r, s.autonomousDiagnostics = some r →
      r.session < run.session ∨ (r.session = run.session ∧ r.fingerprint = run.fingerprint)) :
    Grows s (invalidatePublished env { s with autonomousDiagnostics := some run }) := by
  refine ⟨fun r hr => ⟨shown env s.context run, invalidatePublished_diagnostics _, ?_⟩,
    fun r r' hr hr' hsession => ?_⟩
  · obtain hlt | ⟨heq, -⟩ := h r hr
    · exact hlt.le
    · exact heq.le
  · rw [invalidatePublished_diagnostics] at hr'
    rw [← Option.some.inj hr'] at hsession ⊢
    obtain hlt | ⟨-, hfingerprint⟩ := h r hr
    · exact absurd hsession hlt.ne'
    · exact hfingerprint.symm

/-- A later session has nothing to do with the stale ones. -/
theorem sticky_start {s : StateSnapshot R N V D A} {run : DiagnosticRun N V D}
    (h : ∀ r, s.autonomousDiagnostics = some r → r.session < run.session) :
    Sticky s (invalidatePublished env { s with autonomousDiagnostics := some run }) := by
  intro r r' hr hr' hsession
  rw [invalidatePublished_diagnostics] at hr'
  rw [← Option.some.inj hr'] at hsession
  exact absurd hsession (h r hr).ne'

/-- Whether the end of a run is sticky. -/
theorem sticky_end {s : StateSnapshot R N V D A} {r run : DiagnosticRun N V D}
    (hr : s.autonomousDiagnostics = some r) (hsession : run.session = r.session) :
    Sticky s (invalidatePublished env { s with autonomousDiagnostics := some run }) ↔
      (r.stale = true → run.stale = true ∨ ¬ matchesContext env s.context run) := by
  have hshown :
      (invalidatePublished env { s with autonomousDiagnostics := some run }).autonomousDiagnostics =
      some (shown env s.context run) := invalidatePublished_diagnostics _
  have hstale : (shown env s.context run).stale = true ↔
      run.stale = true ∨ ¬ matchesContext env s.context run := by
    simp [shown]
  rw [← hstale]
  constructor
  · exact fun h => h r _ hr hshown hsession
  · intro h r₀ r' hr₀ hr' _ hstale₀
    rw [hshown] at hr'
    rw [← Option.some.inj hr']
    rw [← Option.some.inj (hr.symm.trans hr₀)] at hstale₀
    exact h hstale₀

namespace World.Good

omit [DecidableEq D] in
/-- A run that ends is the one that is published. -/
theorem ends (h : w.Good env) {session : ℕ} {run : DiagnosticRun N V D}
    (hactive : w.inner.active = some session) (hlast : w.inner.last = some run) :
    run.stale = false ∧ ∃ r, w.snapshot.autonomousDiagnostics = some r ∧ r.session = run.session ∧
      r.fingerprint = run.fingerprint := by
  obtain ⟨run', r, hlast', hsession, hstale, hr, hrsession, hfingerprint⟩ :=
    h.active session hactive
  obtain rfl := Option.some.inj (hlast'.symm.trans hlast)
  exact ⟨hstale, r, hr, hrsession.trans hsession.symm, hfingerprint⟩

/-- The end of a run, which is not active any more. -/
theorem ended (h : w.Good env) {run : DiagnosticRun N V D} (run' : DiagnosticRun N V D)
    {w' : World R N V D A} (hlast : ∃ r, w.snapshot.autonomousDiagnostics = some r ∧
      r.session = run.session ∧ r.fingerprint = run.fingerprint)
    (hsession : run'.session = run.session) (hfingerprint : run'.fingerprint = run.fingerprint)
    (hsnapshot : w'.snapshot = (w.publishRun env run').snapshot)
    (hhistory : w'.history = (w.publishRun env run').history)
    (hnext : w'.inner.next = w.inner.next) (hactive : w'.inner.active = none)
    (hspawning : w'.spawning = none) :
    w'.Good env ∧
      Grows w.snapshot
        (invalidatePublished env { w.snapshot with autonomousDiagnostics := some run' }) := by
  obtain ⟨r, hr, hrsession, hrfingerprint⟩ := hlast
  have hgrows :
      Grows w.snapshot
        (invalidatePublished env { w.snapshot with autonomousDiagnostics := some run' }) := by
    refine grows_run fun r₀ hr₀ => .inr ?_
    rw [← Option.some.inj (hr.symm.trans hr₀), hsession, hfingerprint]
    exact ⟨hrsession, hrfingerprint⟩
  obtain ⟨hchecked, hgrows'⟩ := h.publish hgrows
  refine ⟨⟨?_, ?_, ?_, fun r' hr' => ?_, fun session hsome => ?_, fun session hsome => ?_⟩, hgrows⟩
  · rw [hhistory, hsnapshot]
    exact List.getLast?_concat
  · rw [hhistory]
    exact hchecked
  · rw [hhistory]
    exact hgrows'
  · rw [hsnapshot] at hr'
    replace hr' := (invalidatePublished_diagnostics _).symm.trans hr'
    rw [← Option.some.inj hr', hnext]
    change run'.session ≤ w.inner.next
    rw [hsession, ← hrsession]
    exact h.bound r hr
  · rw [hactive] at hsome
    cases hsome
  · rw [hspawning] at hsome
    cases hsome

/-- The end of a run is sticky exactly if the step is one that is allowed. -/
theorem sticky_ending {step : Step R N V} {r run run' : DiagnosticRun N V D}
    {current : DiagnosticFingerprint D} (hending : w.ending step = some (run, current))
    (hstale : run.stale = false)
    (hr : w.snapshot.autonomousDiagnostics = some r) (hrsession : r.session = run.session)
    (hsession : run'.session = run.session) (hfingerprint : run'.fingerprint = run.fingerprint)
    (hstale' : run'.stale = (run.stale || decide (current ≠ run.fingerprint))) :
    Sticky w.snapshot
      (invalidatePublished env { w.snapshot with autonomousDiagnostics := some run' }) ↔
      w.Keeps env step := by
  have hmatches :
      matchesContext env w.snapshot.context run' = matchesContext env w.snapshot.context run := by
    rw [matchesContext, hfingerprint, matchesContext]
  rw [sticky_end hr (hsession.trans hrsession.symm), World.Keeps, hending, hstale', hmatches]
  simp only [hstale, hr, Bool.false_or, decide_eq_true_eq, Option.some.injEq, Prod.mk.injEq]
  constructor
  · rintro hsticky _ _ ⟨rfl, rfl⟩ ⟨_, rfl, hr'⟩ ⟨hcurrent, hcontext⟩
    obtain hne | hne := hsticky hr'
    · exact hne hcurrent
    · exact hne hcontext
  · intro hkept hr'
    by_contra hcontra
    rw [not_or, not_not, not_not] at hcontra
    exact hkept run current ⟨rfl, rfl⟩ ⟨r, rfl, hr'⟩ hcontra

/-- A step keeps the invariant, and the history sticky exactly if it is one that is allowed. -/
theorem step (h : w.Good env) (step : Step R N V) :
    (w.step env step).Good env ∧
      ((w.step env step).history.Pairwise Sticky ↔
        w.history.Pairwise Sticky ∧ w.Keeps env step) := by
  have hcase := @step_case R N V D A _ env w step
  generalize w.step env step = w' at hcase
  -- A step that ends no run has nothing to keep.
  have hkeeps : w.ending step = none → w.Keeps env step := by
    intro hending run current hsome
    rw [hending] at hsome
    cases hsome
  -- By what the step does to the published diagnostics.
  cases hcase with
  | quiet w' hquiet hending =>
    obtain ⟨hsnapshot, hhistory, hnext, hactive, hlast, hspawning⟩ := hquiet
    rw [hhistory, and_iff_left (hkeeps hending)]
    refine ⟨⟨?_, hhistory ▸ h.checked, hhistory ▸ h.grows, ?_, ?_, fun session hsome => ?_⟩,
      Iff.rfl⟩
    · rw [hhistory, hsnapshot]
      exact h.latest
    · rw [hsnapshot, hnext]
      exact h.bound
    · rw [hsnapshot, hactive, hlast]
      exact h.active
    · rw [hactive]
      obtain heq | heq := hspawning
      · exact h.spawning session (heq ▸ hsome)
      · rw [heq] at hsome
        cases hsome
  | context context hending =>
    have hgrows := @grows_context R N V D A _ env w.snapshot context
    obtain ⟨hchecked, hgrows'⟩ := h.publish hgrows
    refine ⟨⟨List.getLast?_concat, hchecked, hgrows', fun r hr => ?_, fun session hsome => ?_,
      h.spawning⟩, ?_⟩
    · replace hr := (invalidatePublished_diagnostics _).symm.trans hr
      obtain ⟨r₀, hr₀, rfl⟩ := Option.map_eq_some_iff.1 hr
      exact h.bound r₀ hr₀
    · obtain ⟨run, r, hlast, hsession, hstale, hr, hrsession, hfingerprint⟩ :=
        h.active session hsome
      refine ⟨run, shown env context r, hlast, hsession, hstale, ?_, hrsession, hfingerprint⟩
      refine (invalidatePublished_diagnostics _).trans ?_
      exact congrArg (Option.map (shown env context)) hr
    · rw [World.publishContext, h.sticky_publish hgrows,
        and_iff_left (sticky_context w.snapshot context), and_iff_left (hkeeps hending)]
  | start requests run hsession hstale hending =>
    have hnew : ∀ r, w.snapshot.autonomousDiagnostics = some r → r.session < run.session :=
      fun r hr =>
      hsession ▸ Nat.lt_succ_of_le (h.bound r hr)
    have hgrows :
        Grows w.snapshot
          (invalidatePublished env { w.snapshot with autonomousDiagnostics := some run }) :=
      grows_run fun r hr => .inl (hnew r hr)
    obtain ⟨hchecked, hgrows'⟩ := h.publish hgrows
    refine ⟨⟨List.getLast?_concat, hchecked, hgrows', fun r hr => ?_, fun session hsome => ?_,
      fun session hsome => hsome⟩, ?_⟩
    · replace hr := (invalidatePublished_diagnostics _).symm.trans hr
      rw [← Option.some.inj hr]
      exact le_rfl
    · obtain rfl := Option.some.inj hsome
      exact ⟨run, shown env w.snapshot.context run, rfl, rfl, hstale,
        invalidatePublished_diagnostics _, rfl, rfl⟩
    · refine (h.sticky_publish hgrows).trans ?_
      rw [and_iff_left (sticky_start hnew), and_iff_left (hkeeps hending)]
  | abandon session run hspawning hlast hending =>
    obtain ⟨hstale, r, hr, hrsession, hrfingerprint⟩ := h.ends (h.spawning session hspawning) hlast
    obtain ⟨hgood, hgrows⟩ :
        (w.abandonRun env { run with outcome := threadUnavailable }).Good env ∧ _ :=
      h.ended { run with outcome := threadUnavailable } ⟨r, hr, hrsession, hrfingerprint⟩ rfl
        rfl rfl rfl rfl rfl rfl
    refine ⟨hgood, (h.sticky_publish hgrows).trans (and_congr_right' ?_)⟩
    exact sticky_ending hending hstale hr hrsession rfl rfl (by simp)
  | complete session executions result current run hunlocked hactive hlast hending =>
    obtain ⟨hstale, r, hr, hrsession, hrfingerprint⟩ := h.ends hactive hlast
    obtain ⟨hfsession, hffingerprint, hfstale⟩ := @finishRun_eq R N V D A _ env run result current
    have hspawning : w.spawning = none := by simpa [World.unlocked] using hunlocked
    obtain ⟨hgood, hgrows⟩ :
        (World.completeRun env { w with executions } (finishRun env run result current)).Good env ∧
          _ :=
      h.ended (finishRun env run result current) ⟨r, hr, hrsession, hrfingerprint⟩ hfsession
        hffingerprint rfl rfl rfl rfl hspawning
    refine ⟨hgood, (h.sticky_publish hgrows).trans (and_congr_right' ?_)⟩
    exact sticky_ending hending hstale hr hrsession hfsession hffingerprint hfstale

/-- The invariant holds along every run. -/
theorem run (h : w.Good env) (steps : List (Step R N V)) :
    (w.run env steps).Good env ∧
      ((w.run env steps).history.Pairwise Sticky ↔ w.history.Pairwise Sticky ∧
        ∀ before step after, steps = before ++ step :: after →
          (w.run env before).Keeps env step) := by
  induction steps generalizing w with
  | nil =>
    refine ⟨h, (and_iff_left fun before step after hsteps => ?_).symm⟩
    simp at hsteps
  | cons step steps ih =>
    obtain ⟨hgood, hsticky⟩ := h.step step
    obtain ⟨hgood', hsticky'⟩ := ih hgood
    refine ⟨hgood', ?_⟩
    rw [World.run, List.foldl_cons, ← World.run, hsticky', hsticky, and_assoc]
    refine and_congr_right'
      ⟨?_, fun hall => ⟨hall [] step steps rfl, fun before step' after hsteps => ?_⟩⟩
    · rintro ⟨hkeeps, hall⟩ before step' after hsteps
      obtain ⟨rfl, heq⟩ | ⟨before', rfl, heq⟩ := List.cons_eq_append_iff.1 hsteps
      · cases heq
        exact hkeeps
      · exact hall before' step' after heq
    · exact hall (step :: before) step' after (congrArg (step :: ·) hsteps)

end World.Good

end Runs

/-! ## Evidence is sound -/

omit [DecidableEq D] in
/-- A history that is sticky is sound. -/
theorem sound_iff {w : World R N V D A} (h : w.Good env) :
    Sound env w.history ↔ w.history.Pairwise Sticky := by
  refine ⟨fun hsound => hsound.sticky, fun hsticky =>
    ⟨hsticky, ?_, fun p hp => (h.checked p hp).assessed⟩⟩
  intro first between last hwindow r r' hr hr' hsession _ hcurrent p hp
  have hgrows := h.grows.sublist hwindow.sublist
  have hsticky' := hsticky.sublist hwindow.sublist
  have hchecked : ∀ p ∈ first :: (between ++ [last]), Checked env p :=
    fun p hp => h.checked p (hwindow.subset hp)
  -- each publication shows the session, and is followed by the last one
  have hshows : ∃ r₀, p.autonomousDiagnostics = some r₀ ∧ r₀.session = r'.session := by
    rw [List.pairwise_cons, List.pairwise_append] at hgrows
    obtain ⟨hfirst, -, -, hbetween⟩ := hgrows
    simp only [List.mem_cons, List.mem_append, List.not_mem_nil, or_false] at hp
    obtain rfl | hp | rfl := hp
    · exact ⟨r, hr, hsession.symm⟩
    · obtain ⟨r₀, hr₀, hsession₀⟩ := (hfirst p (List.mem_append_left _ hp)).middle
        (hbetween p hp last (List.mem_singleton_self _)) hr hr' hsession
      exact ⟨r₀, hr₀, hsession₀.trans hsession.symm⟩
    · exact ⟨r', hr', rfl⟩
  have hlast : p = last ∨ (Grows p last ∧ Sticky p last) := by
    rw [List.pairwise_cons, List.pairwise_append] at hgrows hsticky'
    simp only [List.mem_cons, List.mem_append, List.not_mem_nil, or_false] at hp
    obtain rfl | hp | rfl := hp
    · exact .inr ⟨hgrows.1 last (by simp), hsticky'.1 last (by simp)⟩
    · exact .inr ⟨hgrows.2.2.2 p hp last (by simp), hsticky'.2.2.2 p hp last (by simp)⟩
    · exact .inl rfl
  obtain ⟨r₀, hr₀, hsession₀⟩ := hshows
  obtain rfl | ⟨hgrows', hsticky''⟩ := hlast
  · exact (hchecked p hp).current r' hr' hcurrent
  · have hcurrent₀ : r₀.stale = false := by
      by_contra hstale
      rw [hsticky'' r₀ r' hr₀ hr' hsession₀.symm (by simpa using hstale)] at hcurrent
      cases hcurrent
    rw [hgrows'.fingerprint r₀ r' hr₀ hr' hsession₀.symm]
    exact (hchecked p hp).current r₀ hr₀ hcurrent₀

/-- The publications are sound exactly if no run that was published as stale ends while the
    policy and the runtime are back at what they were when it started. -/
theorem evidence_sound_iff (env : Env R N V D A) (context : Context R) (steps : List (Step R N V)) :
    Sound env ((World.start context : World R N V D A).run env steps).history ↔
      ∀ before step after, steps = before ++ step :: after →
        ((World.start context : World R N V D A).run env before).Keeps env step := by
  have hstart : (World.start context : World R N V D A).Good env := .start context
  -- What a step may spoil is never made good, so that the history is sound if no step spoils it.
  obtain ⟨hgood, hsticky⟩ := hstart.run steps
  rw [sound_iff hgood, hsticky]
  exact and_iff_right (List.pairwise_singleton _ _)

/-! ### A policy that is changed and changed back -/

/-- Hashes without collisions, and no assessment. -/
def plainEnv : Env Unit Unit Unit (Option Config.CanonicalConfig ⊕ RuntimeState Unit) Unit where
  epoch := 9
  facts := ⟨[], none, none⟩
  policy := .inl
  runtime := .inr
  assessment _ := ()
  unproven _ := []

/-- A state that a run can be requested in, with or without debug logging. -/
def plainContext (debug : Bool) : Context Unit where
  config := some { Config.Legacy.withSelfTarget .default appPackage with debug }
  runtime := ⟨some .builtin, some .builtin, (), false, none, none⟩
  operationsInFlight := []

/-- Debug logging is switched on and off again while a run is measured. -/
def revertedSteps : List (Step Unit Unit Unit) :=
  [.configure, .readSnapshot false true, .reserve 0 true, .spawn true, .update (plainContext true),
    .update (plainContext false), .measured 0 (.ok () ()), .complete 0]

/-- The session that a publication shows, and whether it is stale. -/
def sessionStale (p : StateSnapshot R N V D A) : Option (ℕ × Bool) :=
  p.autonomousDiagnostics.map fun r => (r.session, r.stale)

/-- The run that begins under one policy and ends after it came back. -/
theorem revertedSteps_sessions :
    ((World.start (plainContext false)).run plainEnv revertedSteps).history.map sessionStale =
      [none, some (1, false), some (1, true), some (1, true), some (1, false)] := by
  decide +kernel

/-- The run is stale, and then it is not. -/
theorem evidence_reverted :
    ¬ Sound plainEnv ((World.start (plainContext false)).run plainEnv revertedSteps).history := by
  intro hsound
  have hpairwise :
      (((World.start (plainContext false)).run plainEnv revertedSteps).history.map
        sessionStale).Pairwise
      fun a b => a = some (1, true) → b ≠ some (1, false) := by
    refine List.Pairwise.map sessionStale (fun p q hpq hp hq => ?_) hsound.sticky
    obtain ⟨r, hr, hr'⟩ := Option.map_eq_some_iff.1 hp
    obtain ⟨q', hq', hq''⟩ := Option.map_eq_some_iff.1 hq
    rw [Prod.mk.injEq] at hr' hq''
    have hstale := hpq r q' hr hq' (hq''.1.trans hr'.1.symm) hr'.2
    rw [hq''.2] at hstale
    cases hstale
  rw [revertedSteps_sessions] at hpairwise
  simp at hpairwise

end VpnHide.Autonomous

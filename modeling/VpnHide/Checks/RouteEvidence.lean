import Mathlib.Data.List.Forall2
import VpnHide.Checks.Routes

/-!
# What route evidence can and cannot do

Leaks are found from the controls and the worker alone, and what comes later can only withhold
a proof (`leaked_eq_of_agree`, `proven_of_weaker`). A bounded measurement may be cut down to the
rows of the two routes before it is sent: with few such rows nothing changes, and with many of
them only proofs get lost (`scoped_worker`, `scoped_raw`).
-/

namespace VpnHide.Checks

/-! ## Check by check -/

section Checks

variable (spec : RouteFixtureSpec)

/-- The routes were absent before, and present to root. -/
def controlled (m : Measurements) (check : RouteCheck) : Bool :=
  (observation m.negative check).any (spec.absent check.surface) &&
    (observation m.start check).any (spec.present check.surface)

/-- The worker saw the VPN route. -/
def seesVpn (worker : Option RouteObservation) (check : RouteCheck) : Bool :=
  worker.any fun v => v.routes.any fun r => spec.exposes r false check.surface

/-- The worker saw the ordinary route. -/
def seesOrdinary (worker : Option RouteObservation) (check : RouteCheck) : Bool :=
  worker.any fun v => v.routes.any fun r => spec.positive r true check.surface

/-- A leak is found where the controls hold. -/
def leaksAt (m : Measurements) (check : RouteCheck) : Bool :=
  controlled spec m check && seesVpn spec (observation m.worker check) check

/-- The check is proven: the controls hold, and the app sees nothing of the VPN. -/
def provesAt (m : Measurements) (interfacesClean : Bool) (check : RouteCheck) : Bool :=
  controlled spec m check && !seesVpn spec (observation m.worker check) check &&
    (observation m.worker check).any (·.error.isNone) &&
      seesOrdinary spec (observation m.worker check) check &&
    (observation m.end check).any (spec.present check.surface) &&
    (interfacesClean && (observation m.cleanup check).any (spec.absent check.surface))

end Checks

namespace ScopedRouteResult

variable (r : ScopedRouteResult) (b : Bool) (p : ControlFailure)

@[simp] theorem problem_proven : (r.problem p).proven = r.proven := by
  unfold problem
  split_ifs <;> rfl

@[simp] theorem problem_leaked : (r.problem p).leaked = r.leaked := by
  unfold problem
  split_ifs <;> rfl

@[simp] theorem problemIf_proven : (r.problemIf b p).proven = r.proven := by
  unfold problemIf
  split_ifs
  · exact problem_proven r p
  · rfl

@[simp] theorem problemIf_leaked : (r.problemIf b p).leaked = r.leaked := by
  unfold problemIf
  split_ifs
  · exact problem_leaked r p
  · rfl

end ScopedRouteResult

section Evaluation

variable {spec : RouteFixtureSpec} {m : Measurements} {interfacesClean : Bool} {check : RouteCheck}

theorem all_not_eq {α : Type*} (o : Option α) (p : α → Bool) :
    (o.all fun a => !p a) = !o.any p := by
  cases o <;> rfl

/-- The worker's measurements change the problems only. -/
theorem evaluateWorker_lists (worker fin cleanup : Option RouteObservation)
    (result : ScopedRouteResult) :
    (evaluateWorker spec worker fin cleanup interfacesClean result check).leaked =
        result.leaked ++ (if seesVpn spec worker check then [check] else []) ∧
      (evaluateWorker spec worker fin cleanup interfacesClean result check).proven =
        result.proven ++
          if !seesVpn spec worker check && worker.any (·.error.isNone) &&
            seesOrdinary spec worker check && fin.any (spec.present check.surface) &&
              (interfacesClean && cleanup.any (spec.absent check.surface))
          then [check] else [] := by
  unfold evaluateWorker seesVpn seesOrdinary
  dsimp only
  split_ifs <;> simp

/-- What a check adds to the result. -/
theorem evaluateCheck_lists (result : ScopedRouteResult) :
    (evaluateCheck spec m interfacesClean result check).leaked =
        result.leaked ++ (if leaksAt spec m check then [check] else []) ∧
      (evaluateCheck spec m interfacesClean result check).proven =
        result.proven ++ if provesAt spec m interfacesClean check then [check] else [] := by
  unfold evaluateCheck leaksAt provesAt controlled
  dsimp only
  rw [all_not_eq, all_not_eq]
  cases (observation m.negative check).any (spec.absent check.surface) with
  | false => simp
  | true =>
    cases (observation m.start check).any (spec.present check.surface) with
    | false => simp
    | true =>
      simp only [Bool.not_true, Bool.false_eq_true, if_false, Bool.true_and]
      exact evaluateWorker_lists _ _ _ result

/-- The evaluation lists the checks that leak, and those that are proven. -/
theorem foldl_evaluateCheck (l : List RouteCheck) (result : ScopedRouteResult) :
    (l.foldl (evaluateCheck spec m interfacesClean) result).leaked = result.leaked ++ l.filter
      (leaksAt spec m) ∧ (l.foldl (evaluateCheck spec m interfacesClean) result).proven =
        result.proven ++ l.filter (provesAt spec m interfacesClean) := by
  induction l generalizing result with
  | nil => simp
  | cons check l ih =>
    obtain ⟨hleaked, hproven⟩ := @evaluateCheck_lists spec m interfacesClean check result
    rw [List.foldl_cons, (ih _).1, (ih _).2, hleaked, hproven, List.filter_cons, List.filter_cons]
    constructor
    · split_ifs <;> simp
    · split_ifs <;> simp

/-- What the fixture shows to leak. -/
theorem evaluatePaired_leaked (spec : RouteFixtureSpec) (m : Measurements)
    (raw : Option RouteMeasurement) (interfacesClean : Bool) :
    (evaluatePairedRouteFixture spec m raw interfacesClean).leaked =
      if spec.valid then RouteCheck.required.filter (leaksAt spec m) else [] := by
  unfold evaluatePairedRouteFixture evaluateRouteFixture
  simp only [ScopedRouteResult.problemIf_leaked]
  cases spec.valid with
  | false => simp [ScopedRouteResult.empty]
  | true => simp [(foldl_evaluateCheck _ _).1, ScopedRouteResult.empty]

/-- What the fixture proves. -/
theorem evaluatePaired_proven (spec : RouteFixtureSpec) (m : Measurements)
    (raw : Option RouteMeasurement) (interfacesClean : Bool) :
    (evaluatePairedRouteFixture spec m raw interfacesClean).proven =
      if spec.valid then (RouteCheck.required.filter (provesAt spec m interfacesClean)).filter
        (· ∈ qualified spec raw)
      else [] := by
  unfold evaluatePairedRouteFixture evaluateRouteFixture
  simp only [ScopedRouteResult.problemIf_proven]
  cases spec.valid with
  | false => simp [ScopedRouteResult.empty]
  | true => simp [(foldl_evaluateCheck _ _).2, ScopedRouteResult.empty]

/-- When a check leaks. -/
theorem mem_leaked_iff {raw : Option RouteMeasurement} :
    check ∈ (evaluatePairedRouteFixture spec m raw interfacesClean).leaked ↔
      spec.valid = true ∧ leaksAt spec m check = true := by
  rw [evaluatePaired_leaked]
  cases spec.valid <;> simp [RouteCheck.mem_required]

/-- When a check is proven. -/
theorem mem_proven_iff {raw : Option RouteMeasurement} :
    check ∈ (evaluatePairedRouteFixture spec m raw interfacesClean).proven ↔
      spec.valid = true ∧ provesAt spec m interfacesClean check = true ∧
        (observation raw check).any (spec.present check.surface) = true := by
  rw [evaluatePaired_proven]
  cases spec.valid <;> simp [RouteCheck.mem_required, qualified, and_comm]

end Evaluation

/-! ## A fixture -/

namespace Fixture

/-- A fixture of two interfaces. -/
def spec : RouteFixtureSpec := ⟨1, ⟨"tun000000004001".toList, 7⟩, ⟨"vhr000000008001".toList, 8⟩⟩

/-- One of the two routes, as it is. -/
def row (ordinary : Bool) (surface : RouteSurface) : ObservedRoute where
  destination := spec.destination ordinary surface
  prefixLen := (surface.addressBytes * 8).toUInt8
  source := none
  sourcePrefixLen := 0
  outputIndex := some (spec.interface ordinary).index
  outputName := some (spec.interface ordinary).name
  table := some 254
  protocol := some 242
  scope := some 253
  kind := some 1
  metric := RouteFixtureSpec.metric ordinary
  gateway := none
  flags := 0

/-- A measurement in which every check sees the same routes. -/
def measured (routes : List Bool) : RouteMeasurement :=
  ⟨RouteCheck.required.map fun c => ⟨c, routes.map fun ordinary => row ordinary c.surface, none⟩⟩

/-- The end of a run, with one observation repeated. -/
def repeated : RouteMeasurement :=
  ⟨(measured [false, true]).observations ++ (measured [false, true]).observations.take 1⟩

/-- The measurements of that fixture, with the last one left open. -/
def measurements (fin : RouteMeasurement) : Measurements where
  negative := some (measured [])
  start := some (measured [false, true])
  worker := some (measured [true])
  «end» := some fin
  cleanup := some (measured [])

end Fixture

/-! ## Weaker measurements -/

/-- An observation, perhaps with an error set on it. -/
def RouteObservation.Failed (v' v : RouteObservation) : Prop :=
  v'.check = v.check ∧ v'.routes = v.routes ∧ (v'.error = v.error ∨ v'.error.isSome)

/-- A measurement is taken away, gets errors, or loses observations. What is not bounded says
    nothing, and may be bounded once something of it is gone: observations are only dropped
    from a bounded measurement. -/
inductive Weaker : Option RouteMeasurement → Option RouteMeasurement → Prop
  | gone (m : Option RouteMeasurement) : Weaker none m
  | errors {a b : RouteMeasurement} :
    List.Forall₂ RouteObservation.Failed b.observations a.observations → Weaker (some b) (some a)
  | drop {a b : RouteMeasurement} :
    a.bounded = true → b.observations.Sublist a.observations → Weaker (some b) (some a)
  | trans {a b c : Option RouteMeasurement} : Weaker a b → Weaker b c → Weaker a c

/-- What a weaker measurement says of a check, the stronger one says too, with the same rows. -/
def Below (m' m : Option RouteMeasurement) : Prop :=
  ∀ check v', observation m' check = some v' →
    ∃ v, observation m check = some v ∧ v'.routes = v.routes ∧ (v'.error = none → v.error = none)

section Observations

variable {check : RouteCheck}

/-- What a bounded measurement says of a check. -/
theorem observation_some {a : RouteMeasurement} {v : RouteObservation} :
    observation (some a) check = some v ↔
      a.bounded = true ∧ a.observations.find? (·.check = check) = some v := by
  unfold observation
  cases h : a.bounded <;> simp [Option.filter, h]

/-- A check has one observation. -/
theorem find?_eq_some_of_nodup {l : List RouteObservation} (hl : (l.map (·.check)).Nodup)
    {v : RouteObservation} (hv : v ∈ l) (hcheck : v.check = check) :
    l.find? (·.check = check) = some v := by
  induction l with
  | nil => cases hv
  | cons w l ih =>
    rw [List.map_cons, List.nodup_cons] at hl
    rw [List.find?_cons]
    obtain rfl | hv := List.mem_cons.1 hv
    · simp [hcheck]
    · have hne : ¬w.check = check := by
        intro hw
        exact hl.1 (List.mem_map.2 ⟨v, hv, hcheck.trans hw.symm⟩)
      simp only [hne, decide_false]
      exact ih hl.2 hv

/-- A measurement that leaves observations out is below the other one. -/
theorem below_drop {a b : RouteMeasurement} (ha : a.bounded = true)
    (hsub : b.observations.Sublist a.observations) :
    Below (some b) (some a) := by
  intro check v' hv'
  obtain ⟨-, hfind⟩ := observation_some.1 hv'
  have hnodup : (a.observations.map (·.check)).Nodup := by
    simp only [RouteMeasurement.bounded, Bool.and_eq_true, decide_eq_true_eq] at ha
    exact ha.1.2
  have hcheck : v'.check = check := by simpa using List.find?_some hfind
  have hmem := hsub.subset (List.mem_of_find?_eq_some hfind)
  exact ⟨v', observation_some.2 ⟨ha, find?_eq_some_of_nodup hnodup hmem hcheck⟩, rfl, id⟩

theorem bounded_of_failed {a b : RouteMeasurement}
    (h : List.Forall₂ RouteObservation.Failed b.observations a.observations) :
    b.bounded = a.bounded := by
  obtain ⟨a⟩ := a
  obtain ⟨b⟩ := b
  dsimp only at h
  have hchecks : b.map (·.check) = a.map (·.check) := by
    induction h with
    | nil => rfl
    | cons hv _ ih => rw [List.map_cons, List.map_cons, hv.1, ih]
  have hrows : ∀ p : RouteCheck → List ObservedRoute → Bool,
      (b.all fun v => p v.check v.routes) = a.all fun v => p v.check v.routes := by
    intro p
    clear hchecks
    induction h with
    | nil => rfl
    | cons hv _ ih => rw [List.all_cons, List.all_cons, hv.1, hv.2.1, ih]
  unfold RouteMeasurement.bounded
  dsimp only
  rw [h.length_eq, hchecks]
  congr 1
  exact hrows fun check routes => routes.length ≤ maxRoutes && routes.all (·.valid check.surface)

/-- A measurement that fails more is below the other one. -/
theorem below_errors {a b : RouteMeasurement}
    (h : List.Forall₂ RouteObservation.Failed b.observations a.observations) :
    Below (some b) (some a) := by
  intro check v' hv'
  obtain ⟨hbounded, hfind⟩ := observation_some.1 hv'
  rw [bounded_of_failed h] at hbounded
  suffices hfound : ∃ v, a.observations.find? (·.check = check) = some v ∧ v'.Failed v by
    obtain ⟨v, hv, -, hroutes, herror⟩ := hfound
    refine ⟨v, observation_some.2 ⟨hbounded, hv⟩, hroutes, fun hnone => ?_⟩
    rw [hnone] at herror
    simpa [eq_comm] using herror
  clear hv' hbounded
  obtain ⟨a⟩ := a
  obtain ⟨b⟩ := b
  dsimp only at h hfind ⊢
  induction h with
  | nil => cases hfind
  | @cons w' w _ _ hw _ ih =>
    rw [List.find?_cons] at hfind ⊢
    rw [← hw.1]
    by_cases hcheck : w'.check = check
    · simp only [hcheck, decide_true] at hfind ⊢
      obtain rfl := Option.some.inj hfind
      exact ⟨w, rfl, hw⟩
    · simp only [hcheck, decide_false] at hfind ⊢
      exact ih hfind

/-- A weaker measurement is below the stronger one. -/
theorem below_of_weaker {m' m : Option RouteMeasurement} (h : Weaker m' m) : Below m' m := by
  induction h with
  | gone m =>
    intro check v' hv'
    cases hv'
  | errors h => exact below_errors h
  | drop ha h => exact below_drop ha h
  | trans _ _ ih₁ ih₂ =>
    intro check v' hv'
    obtain ⟨v, hv, hroutes, herror⟩ := ih₁ check v' hv'
    obtain ⟨u, hu, hroutes', herror'⟩ := ih₂ check v hv
    exact ⟨u, hu, hroutes.trans hroutes', fun h => herror' (herror h)⟩

/-- What is seen below is seen above. -/
theorem any_of_below {m' m : Option RouteMeasurement} (h : Below m' m) {p : RouteObservation → Bool}
    (hp : ∀ v' v : RouteObservation, v'.routes = v.routes → (v'.error = none → v.error = none) →
      p v' = true → p v = true)
    (hany : (observation m' check).any p = true) : (observation m check).any p = true := by
  cases hv' : observation m' check with
  | none => simp [hv'] at hany
  | some v' =>
    obtain ⟨v, hv, hroutes, herror⟩ := h check v' hv'
    rw [hv', Option.any_some] at hany
    rw [hv, Option.any_some]
    exact hp v' v hroutes herror hany

variable {spec : RouteFixtureSpec} {v' v : RouteObservation}

/-- What is absent below is absent above. -/
theorem absent_of_routes (hroutes : v'.routes = v.routes)
    (herror : v'.error = none → v.error = none) (h : spec.absent check.surface v' = true) :
    spec.absent check.surface v = true := by
  simp only [RouteFixtureSpec.absent, Bool.and_eq_true, Option.isNone_iff_eq_none] at h ⊢
  exact ⟨herror h.1, hroutes ▸ h.2⟩

/-- What is present below is present above. -/
theorem present_of_routes (hroutes : v'.routes = v.routes)
    (herror : v'.error = none → v.error = none) (h : spec.present check.surface v' = true) :
    spec.present check.surface v = true := by
  simp only [RouteFixtureSpec.present, Bool.and_eq_true, Option.isNone_iff_eq_none] at h ⊢
  exact ⟨herror h.1, hroutes ▸ h.2⟩

end Observations

/-- Every measurement is weaker, or as it was. -/
structure Measurements.Weaker (m' m : Measurements) : Prop where
  negative : Checks.Weaker m'.negative m.negative
  start : Checks.Weaker m'.start m.start
  worker : Checks.Weaker m'.worker m.worker
  «end» : Checks.Weaker m'.end m.end
  cleanup : Checks.Weaker m'.cleanup m.cleanup

section Weakening

variable {spec : RouteFixtureSpec} {m m' : Measurements} {clean clean' : Bool} {check : RouteCheck}

/-- A proof that weaker evidence gives is also given by the stronger one: the worker's
    observation is there, and its rows are the same. -/
theorem provesAt_of_weaker (hm : m'.Weaker m) (hclean : clean' = true → clean = true)
    (h : provesAt spec m' clean' check = true) : provesAt spec m clean check = true := by
  have hpresent : ∀ v' v : RouteObservation, v'.routes = v.routes →
      (v'.error = none → v.error = none) → spec.present check.surface v' = true →
      spec.present check.surface v = true := fun _ _ => present_of_routes
  have habsent : ∀ v' v : RouteObservation, v'.routes = v.routes →
      (v'.error = none → v.error = none) → spec.absent check.surface v' = true →
      spec.absent check.surface v = true := fun _ _ => absent_of_routes
  simp only [provesAt, controlled, Bool.and_eq_true] at h ⊢
  obtain ⟨⟨⟨⟨⟨⟨hneg, hstart⟩, hvpn⟩, havailable⟩, hordinary⟩, hend⟩, hc, hcleanup⟩ := h
  have hworker :
      seesVpn spec (observation m.worker check) check =
        seesVpn spec (observation m'.worker check) check := by
    cases hv' : observation m'.worker check with
    | none => simp [hv'] at havailable
    | some v' =>
      obtain ⟨v, hv, hroutes, -⟩ := below_of_weaker hm.worker check v' hv'
      rw [hv]
      simp only [seesVpn, Option.any_some, hroutes]
  refine ⟨⟨⟨⟨⟨⟨?_, ?_⟩, ?_⟩, ?_⟩, ?_⟩, ?_⟩, hclean hc, ?_⟩
  · exact any_of_below (below_of_weaker hm.negative) habsent hneg
  · exact any_of_below (below_of_weaker hm.start) hpresent hstart
  · rwa [hworker]
  · refine any_of_below (below_of_weaker hm.worker) (fun v' v _ herror hnone => ?_) havailable
    rw [Option.isNone_iff_eq_none] at hnone ⊢
    exact herror hnone
  · refine any_of_below (below_of_weaker hm.worker) (fun v' v hroutes _ hany => ?_) hordinary
    rwa [← hroutes]
  · exact any_of_below (below_of_weaker hm.end) hpresent hend
  · exact any_of_below (below_of_weaker hm.cleanup) habsent hcleanup

end Weakening

/-- The leaks of a call are those of its controls and its worker; what is proven is not leaked;
    no check is listed twice; and weaker evidence proves no more. -/
theorem route_evidence (spec : RouteFixtureSpec) (m : Measurements) (raw : Option RouteMeasurement)
    (interfacesClean : Bool) :
    let result := evaluatePairedRouteFixture spec m raw interfacesClean
    (∀ (m' : Measurements) (raw' : Option RouteMeasurement) (interfacesClean' : Bool),
        m'.negative = m.negative → m'.start = m.start → m'.worker = m.worker →
        (evaluatePairedRouteFixture spec m' raw' interfacesClean').leaked = result.leaked) ∧
      (∀ check, ¬(check ∈ result.proven ∧ check ∈ result.leaked)) ∧
      result.proven.Nodup ∧ result.leaked.Nodup ∧
      ∀ (m' : Measurements) (raw' : Option RouteMeasurement) (interfacesClean' : Bool),
        m'.Weaker m → Weaker raw' raw → (interfacesClean' = true → interfacesClean = true) →
        ∀ check ∈ (evaluatePairedRouteFixture spec m' raw' interfacesClean').proven,
          check ∈ result.proven := by
  intro result
  refine ⟨?_, ?_, ?_, ?_, ?_⟩
  · intro m' raw' interfacesClean' hneg hstart hworker
    -- A leak depends on the control, the start and the worker only.
    have hleaks : leaksAt spec m' = leaksAt spec m := by
      funext check
      simp only [leaksAt, controlled, hneg, hstart, hworker]
    rw [evaluatePaired_leaked, evaluatePaired_leaked, hleaks]
  · rintro check ⟨hp, hl⟩
    have hproves := (mem_proven_iff.1 hp).2.1
    have hleaks := (mem_leaked_iff.1 hl).2
    -- A proof wants the routes absent where a leak wants them present.
    simp only [provesAt, leaksAt, Bool.and_eq_true] at hproves hleaks
    simp [hleaks.2] at hproves
  · rw [evaluatePaired_proven]
    split_ifs
    · exact (RouteCheck.nodup_required.filter _).filter _
    · exact List.nodup_nil
  · rw [evaluatePaired_leaked]
    split_ifs
    · exact RouteCheck.nodup_required.filter _
    · exact List.nodup_nil
  · intro m' raw' interfacesClean' hm hraw hclean check hcheck
    obtain ⟨hvalid, hproves, hqualified⟩ := mem_proven_iff.1 hcheck
    refine mem_proven_iff.2 ⟨hvalid, provesAt_of_weaker hm hclean hproves, ?_⟩
    exact any_of_below (below_of_weaker hraw) (fun _ _ => present_of_routes) hqualified

/-- A repeated observation makes the whole measurement say nothing; without it the checks are
    proven. -/
theorem drop_repeated_proves :
    (Fixture.measured [false, true]).observations.Sublist Fixture.repeated.observations ∧
      (evaluatePairedRouteFixture Fixture.spec (Fixture.measurements Fixture.repeated)
        (some (Fixture.measured [false, true])) true).proven = [] ∧
      (evaluatePairedRouteFixture Fixture.spec
        (Fixture.measurements (Fixture.measured [false, true]))
        (some (Fixture.measured [false, true])) true).proven = RouteCheck.required := by
  refine ⟨List.sublist_append_left _ _, ?_, ?_⟩
  · decide +kernel
  · decide +kernel

/-! ## Projection for transport -/

section Scoped

variable {spec : RouteFixtureSpec} {check : RouteCheck} {v : RouteObservation}
  {w : RouteMeasurement}

/-- The rows of the two routes. -/
def scopedRows (spec : RouteFixtureSpec) (v : RouteObservation) : List ObservedRoute :=
  v.routes.filter (spec.touches v.check.surface)

/-- What is kept of an observation: the routes of the fixture, at most `maxScopedRoutes` of them. -/
def scopedObservation (spec : RouteFixtureSpec) (v : RouteObservation) : RouteObservation where
  check := v.check
  routes := (scopedRows spec v).take maxScopedRoutes
  error := v.error.or (if ((scopedRows spec v).drop maxScopedRoutes).isEmpty then none
    else some .tooLarge)

/-- The scoped measurement, observation by observation. -/
theorem scoped_eq (hspec : spec.valid = true) (hw : w.bounded = true) :
    w.scoped spec = ⟨w.observations.map (scopedObservation spec)⟩ := by
  unfold RouteMeasurement.scoped
  rw [if_neg (by simp [hspec, hw])]
  rfl

/-- No row is added, so the projection is bounded. -/
theorem bounded_scoped (hspec : spec.valid = true) (hw : w.bounded = true) :
    (w.scoped spec).bounded = true := by
  rw [scoped_eq hspec hw]
  simp only [RouteMeasurement.bounded, Bool.and_eq_true, decide_eq_true_eq, List.all_eq_true,
    List.length_map, List.map_map, List.forall_mem_map] at hw ⊢
  obtain ⟨hlength, hrows⟩ := hw
  refine ⟨hlength, fun v hv => ⟨?_, fun r hr => ?_⟩⟩
  · have htake : (scopedObservation spec v).routes.length ≤ maxScopedRoutes :=
      List.length_take_le _ _
    exact htake.trans (by decide)
  · exact (hrows v hv).2 r (List.mem_of_mem_filter (List.mem_of_mem_take hr))

/-- What the scoped measurement says of a check. -/
theorem observation_scoped (hspec : spec.valid = true) (hw : w.bounded = true)
    (check : RouteCheck) :
    observation (some (w.scoped spec)) check = (observation (some w) check).map
      (scopedObservation spec) := by
  have hscoped := bounded_scoped hspec hw
  unfold observation
  rw [Option.filter_some_pos hscoped, Option.filter_some_pos hw, Option.bind_some, Option.bind_some,
    scoped_eq hspec hw, List.find?_map]
  rfl

/-- With few rows none is cut off. -/
theorem scopedObservation_of_few (h : (scopedRows spec v).length ≤ maxScopedRoutes) :
    scopedObservation spec v = { v with routes := scopedRows spec v } := by
  unfold scopedObservation
  rw [List.take_of_length_le h, List.drop_of_length_le h]
  simp

/-- Without an error few routes were scoped. -/
theorem few_of_error_eq_none (h : (scopedObservation spec v).error = none) :
    (scopedRows spec v).length ≤ maxScopedRoutes := by
  simp only [scopedObservation, Option.or_eq_none_iff, ite_eq_left_iff, reduceCtorEq, imp_false,
    not_not, List.isEmpty_iff] at h
  exact List.drop_eq_nil_iff.1 h.2

theorem touches_of_positive {r : ObservedRoute} {ordinary : Bool} {surface : RouteSurface}
    (h : spec.positive r ordinary surface = true) : spec.touches surface r = true := by
  simp only [RouteFixtureSpec.positive, Bool.and_eq_true, decide_eq_true_eq] at h
  have hexposes : spec.exposes r ordinary surface = true := by
    simp [RouteFixtureSpec.exposes, h.1.1.1.1]
  cases ordinary <;> simp [RouteFixtureSpec.touches, hexposes]

/-- What is asked of the rows of a route can be asked of the rows that are kept. -/
theorem any_scopedRows {p : ObservedRoute → Bool} (hcheck : v.check = check)
    (hp : ∀ r, p r = true → spec.touches check.surface r = true) :
    (scopedRows spec v).any p = v.routes.any p := by
  subst hcheck
  rw [Bool.eq_iff_iff, List.any_eq_true, List.any_eq_true]
  constructor
  · rintro ⟨r, hr, hpr⟩
    exact ⟨r, List.mem_of_mem_filter hr, hpr⟩
  · rintro ⟨r, hr, hpr⟩
    exact ⟨r, List.mem_filter.2 ⟨hr, hp r hpr⟩, hpr⟩

/-- What is seen in a scoped observation is seen. -/
theorem any_scopedObservation {p : ObservedRoute → Bool}
    (h : (scopedObservation spec v).routes.any p = true) :
    v.routes.any p = true := by
  obtain ⟨r, hr, hp⟩ := List.any_eq_true.1 h
  exact List.any_eq_true.2 ⟨r, List.mem_of_mem_filter (List.mem_of_mem_take hr), hp⟩

theorem observation_check {m : Option RouteMeasurement} (h : observation m check = some v) :
    v.check = check := by
  obtain ⟨a, -, hfind⟩ := Option.bind_eq_some_iff.1 h
  simpa using List.find?_some hfind

/-- A worker with few rows says the same. -/
theorem scoped_facts_of_few (hcheck : v.check = check)
    (h : (scopedRows spec v).length ≤ maxScopedRoutes) :
    (scopedObservation spec v).error = v.error ∧
      seesVpn spec (some (scopedObservation spec v)) check = seesVpn spec (some v) check ∧
      seesOrdinary spec (some (scopedObservation spec v)) check = seesOrdinary spec (some v) check ∧
      spec.present check.surface (scopedObservation spec v) = spec.present check.surface v := by
  rw [scopedObservation_of_few h]
  have hpositive :
      ∀ ordinary, ((scopedRows spec v).any fun r => spec.positive r ordinary check.surface) =
      v.routes.any fun r => spec.positive r ordinary check.surface := fun ordinary =>
    any_scopedRows hcheck fun r => touches_of_positive
  refine ⟨rfl, ?_, hpositive true, ?_⟩
  · exact any_scopedRows hcheck fun r hr => by simp [RouteFixtureSpec.touches, hr]
  · simp only [RouteFixtureSpec.present, List.all_cons, List.all_nil, hpositive]

/-- What the worker's projection says of a check, beside what the worker says. -/
theorem scoped_worker_facts (hspec : spec.valid = true) (hw : w.bounded = true)
    (check : RouteCheck) :
    let o := observation (some w) check
    let o' := observation (some (w.scoped spec)) check
    (seesVpn spec o' check = true → seesVpn spec o check = true) ∧
      (o'.any (·.error.isNone) = true → seesVpn spec o' check = seesVpn spec o check ∧
        seesOrdinary spec o' check = seesOrdinary spec o check ∧
        o.any (·.error.isNone) = true) := by
  intro o o'
  have ho' : o' = o.map (scopedObservation spec) := observation_scoped hspec hw check
  rw [ho']
  cases ho : o with
  | none => simp [seesVpn]
  | some v =>
    have hcheck : v.check = check := observation_check ho
    refine ⟨fun h => any_scopedObservation h, fun h => ?_⟩
    have hnone : (scopedObservation spec v).error = none := by simpa using h
    obtain ⟨herror, hvpn, hordinary, -⟩ := scoped_facts_of_few hcheck (few_of_error_eq_none hnone)
    refine ⟨hvpn, hordinary, ?_⟩
    rw [Option.any_some, ← herror, hnone]
    rfl

/-- The evaluation asks a worker for three things. -/
theorem evaluateWorker_congr {o o' fin cleanup : Option RouteObservation} {interfacesClean : Bool}
    {result : ScopedRouteResult} (hvpn : seesVpn spec o' check = seesVpn spec o check)
    (havailable : o'.any (·.error.isNone) = o.any (·.error.isNone))
    (hordinary : seesOrdinary spec o' check = seesOrdinary spec o check) :
    evaluateWorker spec o' fin cleanup interfacesClean result check =
      evaluateWorker spec o fin cleanup interfacesClean result check := by
  unfold seesVpn at hvpn
  unfold seesOrdinary at hordinary
  unfold evaluateWorker
  rw [hvpn, havailable, hordinary]

theorem mem_of_observation {m : RouteMeasurement} (h : observation (some m) check = some v) :
    v ∈ m.observations :=
  List.mem_of_find?_eq_some (observation_some.1 h).2

/-- With few rows of the two routes, a worker's projection is as good as what it saw. -/
theorem evaluatePaired_scoped_worker (hspec : spec.valid = true) (hw : w.bounded = true)
    (hfew : ∀ v ∈ w.observations, (scopedRows spec v).length ≤ maxScopedRoutes) (m : Measurements)
    (raw : Option RouteMeasurement) (interfacesClean : Bool) :
    evaluatePairedRouteFixture spec { m with worker := some (w.scoped spec) } raw interfacesClean =
      evaluatePairedRouteFixture spec { m with worker := some w } raw interfacesClean := by
  have hcheck : evaluateCheck spec { m with worker := some (w.scoped spec) } interfacesClean =
      evaluateCheck spec { m with worker := some w } interfacesClean := by
    funext result check
    unfold evaluateCheck
    dsimp only
    rw [observation_scoped hspec hw]
    split_ifs
    · rfl
    · rfl
    · cases ho : observation (some w) check with
      | none => rfl
      | some v =>
        obtain ⟨herror, hvpn, hordinary, -⟩ :=
          scoped_facts_of_few (observation_check ho) (hfew v (mem_of_observation ho))
        exact evaluateWorker_congr hvpn (by simp [herror]) hordinary
  unfold evaluatePairedRouteFixture evaluateRouteFixture
  rw [hcheck]

/-- Scoping a raw measurement changes nothing. -/
theorem evaluatePaired_scoped_raw (hspec : spec.valid = true) (hw : w.bounded = true)
    (hfew : ∀ v ∈ w.observations, (scopedRows spec v).length ≤ maxScopedRoutes) (m : Measurements)
    (interfacesClean : Bool) :
    evaluatePairedRouteFixture spec m (some (w.scoped spec)) interfacesClean =
      evaluatePairedRouteFixture spec m (some w) interfacesClean := by
  have hqualified : qualified spec (some (w.scoped spec)) = qualified spec (some w) := by
    refine List.filter_congr fun check _ => ?_
    rw [observation_scoped hspec hw]
    cases ho : observation (some w) check with
    | none => rfl
    | some v =>
      exact (scoped_facts_of_few (observation_check ho) (hfew v (mem_of_observation ho))).2.2.2
  unfold evaluatePairedRouteFixture
  rw [hqualified]

/-- A proof with the worker's projection is a proof with what it saw. -/
theorem provesAt_of_scoped (hspec : spec.valid = true) (hw : w.bounded = true) {m : Measurements}
    {interfacesClean : Bool}
    (h : provesAt spec { m with worker := some (w.scoped spec) } interfacesClean check = true) :
    provesAt spec { m with worker := some w } interfacesClean check = true := by
  obtain ⟨-, havailable⟩ := scoped_worker_facts hspec hw check
  simp only [provesAt, Bool.and_eq_true] at h ⊢
  obtain ⟨⟨⟨⟨⟨hcontrolled, hvpn⟩, herror⟩, hordinary⟩, hend⟩, hclean⟩ := h
  obtain ⟨hvpn', hordinary', herror'⟩ := havailable herror
  exact ⟨⟨⟨⟨⟨hcontrolled, hvpn' ▸ hvpn⟩, herror'⟩, hordinary' ▸ hordinary⟩, hend⟩, hclean⟩

/-- What leaks by a scoped measurement leaks. -/
theorem leaksAt_of_scoped (hspec : spec.valid = true) (hw : w.bounded = true) {m : Measurements}
    (h : leaksAt spec { m with worker := some (w.scoped spec) } check = true) :
    leaksAt spec { m with worker := some w } check = true := by
  simp only [leaksAt, Bool.and_eq_true] at h ⊢
  exact ⟨h.1, (scoped_worker_facts hspec hw check).1 h.2⟩

/-- What is proven does not leak. -/
theorem not_leaksAt_of_provesAt {m : Measurements} {interfacesClean : Bool}
    (h : provesAt spec m interfacesClean check = true) : leaksAt spec m check = false := by
  simp only [provesAt, Bool.and_eq_true, Bool.not_eq_true'] at h
  simp [leaksAt, h.1.1.1.1.2]

/-- What is present in a scoped observation is present. -/
theorem present_of_scoped (h : spec.present check.surface (scopedObservation spec v) = true) :
    spec.present check.surface v = true := by
  simp only [RouteFixtureSpec.present, Bool.and_eq_true, List.all_eq_true,
    Option.isNone_iff_eq_none] at h ⊢
  refine ⟨?_, fun ordinary hordinary => any_scopedObservation (h.2 ordinary hordinary)⟩
  exact (Option.or_eq_none_iff.1 h.1).1

end Scoped

/-- Projecting a worker's measurement, or the RAW one, for transport changes nothing if each
    observation has few rows of the two routes. In any case it stays bounded, it proves and
    leaks no more, and a leak does not become a proof. -/
theorem scoped_transport (spec : RouteFixtureSpec) (hspec : spec.valid = true)
    (w : RouteMeasurement) (hw : w.bounded = true) (m : Measurements)
    (raw : Option RouteMeasurement) (interfacesClean : Bool) :
    let few := ∀ v ∈ w.observations,
      (v.routes.filter fun r => spec.exposes r false v.check.surface ||
        spec.exposes r true v.check.surface).length ≤ 16
    let worker (x : RouteMeasurement) :=
      evaluatePairedRouteFixture spec { m with worker := some x } raw interfacesClean
    let asRaw (x : RouteMeasurement) := evaluatePairedRouteFixture spec m (some x) interfacesClean
    (few → worker (w.scoped spec) = worker w ∧ asRaw (w.scoped spec) = asRaw w) ∧
      (w.scoped spec).bounded = true ∧
      (∀ c ∈ (worker (w.scoped spec)).proven, c ∈ (worker w).proven) ∧
      (∀ c ∈ (worker (w.scoped spec)).leaked, c ∈ (worker w).leaked) ∧
      (∀ c ∈ (worker w).leaked, c ∉ (worker (w.scoped spec)).proven) ∧
      (∀ c ∈ (asRaw (w.scoped spec)).proven, c ∈ (asRaw w).proven) ∧
      (∀ c ∈ (asRaw (w.scoped spec)).leaked, c ∈ (asRaw w).leaked) ∧
      (∀ c ∈ (asRaw w).leaked, c ∉ (asRaw (w.scoped spec)).proven) := by
  intro few worker asRaw
  refine ⟨fun hfew => ⟨?_, ?_⟩, bounded_scoped hspec hw, ?_, ?_, ?_, ?_, ?_, ?_⟩
  · -- Few routes are all transported.
    exact evaluatePaired_scoped_worker hspec hw hfew m raw interfacesClean
  · exact evaluatePaired_scoped_raw hspec hw hfew m interfacesClean
  · intro c hc
    obtain ⟨hvalid, hproves, hraw⟩ := mem_proven_iff.1 hc
    exact mem_proven_iff.2 ⟨hvalid, provesAt_of_scoped hspec hw hproves, hraw⟩
  · intro c hc
    obtain ⟨hvalid, hleaks⟩ := mem_leaked_iff.1 hc
    exact mem_leaked_iff.2 ⟨hvalid, leaksAt_of_scoped hspec hw hleaks⟩
  · -- What leaks in the whole measurement cannot be proved from what was transported,
    intro c hleaked hproven
    have hproves := provesAt_of_scoped hspec hw (mem_proven_iff.1 hproven).2.1
    have hleaks := (mem_leaked_iff.1 hleaked).2
    rw [not_leaksAt_of_provesAt hproves] at hleaks
    cases hleaks
  · intro c hc
    obtain ⟨hvalid, hproves, hraw⟩ := mem_proven_iff.1 hc
    refine mem_proven_iff.2 ⟨hvalid, hproves, ?_⟩
    rw [observation_scoped hspec hw] at hraw
    -- The row that vouches for the raw sample is one of those that were transported.
    cases ho : observation (some w) c with
    | none => simp [ho] at hraw
    | some v =>
      rw [ho, Option.map_some, Option.any_some] at hraw
      exact present_of_scoped hraw
  · intro c hc
    exact mem_leaked_iff.2 (mem_leaked_iff.1 hc)
  · intro c hleaked hproven
    have hleaks := (mem_leaked_iff.1 hleaked).2
    rw [not_leaksAt_of_provesAt (mem_proven_iff.1 hproven).2.1] at hleaks
    cases hleaks

theorem scoped_transport_fixture :
    Fixture.spec.valid = true ∧ (Fixture.measured [false, true]).bounded = true ∧
      evaluatePairedRouteFixture Fixture.spec
          { Fixture.measurements (Fixture.measured [false, true]) with
            worker := some ((Fixture.measured [false, true]).scoped Fixture.spec) } none true =
        evaluatePairedRouteFixture Fixture.spec
          { Fixture.measurements (Fixture.measured [false, true]) with
            worker := some (Fixture.measured [false, true]) } none true := by
  have hvalid : Fixture.spec.valid = true := by decide +kernel
  have hbounded : (Fixture.measured [false, true]).bounded = true := by decide +kernel
  refine ⟨hvalid, hbounded, ?_⟩
  refine ((scoped_transport Fixture.spec hvalid (Fixture.measured [false, true]) hbounded
    (Fixture.measurements (Fixture.measured [false, true])) none true).1 ?_).1
  decide +kernel

end VpnHide.Checks

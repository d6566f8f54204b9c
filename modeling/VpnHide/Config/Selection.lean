import VpnHide.Config.Edit

/-!
# Selections of roles

`crates/core-rpc/src/config_selection.rs`: the sets of packages that have a role, the config
that is rebuilt from them, and the packages that are hidden because a scan found them to be
VPN apps.

A config is rebuilt package by package (`appOf_buildRoles`): an override is kept while its role
stays on. So reconciling the packages that are hidden automatically trims every app and changes
no role but `hidden` (`appOf_reconcileAutoHidden`).

Manual and automatic hiding share one flag. A package that was hidden by hand and is then found
by a scan counts as automatic from there on; until a scan finds it, no scan can reveal it
(`run_manual`).
-/

namespace VpnHide.Config

open Lib

/-! ## Role sets -/

/-- The packages of each role. -/
structure RoleSets where
  java : StrSet
  native : StrSet
  hidden : StrSet
  observers : StrSet
  ports : StrSet

/-- What a scan finds out about a package. -/
structure AutoHideSignal where
  package : Str
  declaresVpnService : Bool
  nameContainsVpn : Bool
  deriving DecidableEq

/-- The packages with a role, each once and in order. -/
def RoleSets.packages (roles : RoleSets) : StrSet :=
  .ofList ([roles.java, roles.native, roles.hidden, roles.observers, roles.ports].flatMap
    (·.toList))

/-- The app of a package. An override is kept only while its role stays on. -/
def RoleSets.app (roles : RoleSets) (previous : Option AppConfig) (pkg : Str) : AppConfig where
  java := roles.java.contains pkg
  javaHooks := (previous.filter fun p => p.java && roles.java.contains pkg).bind (·.javaHooks)
  native :=
    if roles.native.contains pkg then
      -- a role that was off starts with all hooks
      ((previous.filter (·.native.enabled)).map (·.native)).getD
      { NativeRole.default with enabled := true }
    else NativeRole.default
  hidden := roles.hidden.contains pkg
  appHiding := roles.observers.contains pkg
  ports := roles.ports.contains pkg
  portPolicy := (previous.filter fun p => p.ports && roles.ports.contains pkg).bind (·.portPolicy)

/-- `build_roles`: the config of these roles, with what there is of the old one. -/
def buildRoles (debug : Bool) (debugSwitch : Option Bool) (roles : RoleSets)
    (existing : Option CanonicalConfig) :
    CanonicalConfig where
  version := 1
  debug := debug
  debugSwitch := (debugSwitch.or (existing.map (·.debugSwitch))).getD debug
  settings := (existing.map (·.settings)).getD Settings.default
  apps := .ofList (roles.packages.toList.map fun pkg =>
    (pkg, roles.app (existing.bind (·.apps[pkg]?)) pkg))

/-- The hidden packages, VPN Hide among them. -/
def hiddenPackages (existing : StrSet) (selfPkg : Str) : StrSet :=
  .ofList (existing.toList ++ [selfPkg])

/-- The packages that the settings say to hide, by what a scan found. -/
def autoHidden (signals : List AutoHideSignal) (settings : Settings) (selfPkg : Str) : StrSet :=
  .ofList ((signals.filter fun s => s.package ≠ selfPkg &&
    !settings.autoHideExcludedPackages.contains s.package &&
      ((settings.autoHideVpnServices && s.declaresVpnService) ||
        (settings.autoHideVpnName && s.nameContainsVpn))).map (·.package))

/-- The packages whose app has a property. -/
def packagesWith (config : CanonicalConfig) (p : AppConfig → Bool) : StrSet :=
  .ofList ((config.apps.toList.filter fun e => p e.2).map (·.1))

/-- The packages of each role in a config. -/
def roleSets (config : CanonicalConfig) : RoleSets where
  java := packagesWith config (·.java)
  native := packagesWith config (·.native.enabled)
  hidden := packagesWith config (·.hidden)
  observers := packagesWith config (·.appHiding)
  ports := packagesWith config (·.ports)

/-- The packages that the user has hidden, not a scan. -/
def manualHidden (config : CanonicalConfig) (selfPkg : Str) : StrSet :=
  .ofList ((config.apps.toList.filter fun e =>
    e.2.hidden && e.1 ≠ selfPkg && !config.settings.autoHiddenPackages.contains e.1).map (·.1))

/-- What a scan hides: what it selects, and if it is partial, what it could not see. -/
def automaticHidden (settings : Settings) (selfPkg : Str) (signals : List AutoHideSignal)
    (partialScan : Bool) :
    StrSet :=
  let automatic := autoHidden signals settings selfPkg
  if partialScan then
    let seen : StrSet := .ofList (signals.map (·.package))
    automatic.insertMany (settings.autoHiddenPackages.toList.filter fun p => !seen.contains p)
  else automatic

/-- `reconcile_auto_hidden`: the config after a scan. -/
def reconcileAutoHidden (config : CanonicalConfig) (selfPkg : Str) (signals : List AutoHideSignal)
    (partialScan : Bool) : CanonicalConfig :=
  let roles := roleSets config
  -- hidden packages that are not on record as automatic are manual
  let manual := roles.hidden \ config.settings.autoHiddenPackages
  let automatic := automaticHidden config.settings selfPkg signals partialScan
  let roles := { roles with hidden := hiddenPackages (manual ∪ automatic) selfPkg }
  let config := { config with settings := { config.settings with autoHiddenPackages := automatic } }
  buildRoles config.debug none roles (some config)

/-! ## Rebuilding an app -/

/-- The app with other roles, and the overrides of those that stay on. -/
def AppConfig.withRoles (app : AppConfig) (java native hidden appHiding ports : Bool) :
    AppConfig where
  java := java
  javaHooks := if app.java && java then app.javaHooks else none
  native :=
    if native then
      if app.native.enabled then app.native else { NativeRole.default with enabled := true }
    else NativeRole.default
  hidden := hidden
  appHiding := appHiding
  ports := ports
  portPolicy := if app.ports && ports then app.portPolicy else none

/-- The app without the overrides of the roles that are off. -/
def AppConfig.trimmed (app : AppConfig) : AppConfig :=
  app.withRoles app.java app.native.enabled app.hidden app.appHiding app.ports

/-- The roles of an app but `hidden`, with their overrides. -/
def AppConfig.independent (app : AppConfig) : AppConfig := { app with hidden := false }

section Rebuild

variable {app : AppConfig} {java native hidden appHiding ports : Bool}

theorem NativeRole.eq_default {role : NativeRole} (henabled : role.enabled = false)
    (h : role.kernel = none ∧ role.zygisk = none) : role = .default := by
  obtain ⟨enabled, kernel, zygisk⟩ := role
  obtain rfl : enabled = false := henabled
  obtain ⟨rfl, rfl⟩ : kernel = none ∧ zygisk = none := h
  rfl

/-- With these roles an app has no overrides of others. -/
theorem AppConfig.clean_withRoles : (app.withRoles java native hidden appHiding ports).Clean where
  java h := by
    obtain rfl : java = false := h
    simp [withRoles]
  native h := by
    rw [withRoles] at h ⊢
    cases native with
    | false => exact ⟨rfl, rfl⟩
    | true =>
      dsimp only at h
      rw [if_pos rfl] at h
      by_cases henabled : app.native.enabled = true
      · rw [if_pos henabled, henabled] at h
        cases h
      · rw [if_neg henabled] at h
        cases h
  ports h := by
    obtain rfl : ports = false := h
    simp [withRoles]

/-- With the same roles, only what no role keeps is lost. -/
theorem AppConfig.Clean.trimmed_eq (h : app.Clean) : app.trimmed = app := by
  obtain ⟨java, javaHooks, native, appHiding, ports, portPolicy, hidden⟩ := app
  rw [trimmed, withRoles]
  dsimp only
  rw [AppConfig.mk.injEq]
  refine ⟨rfl, ?_, ?_, rfl, rfl, ?_, rfl⟩
  · cases java with
    | true => rfl
    | false => exact (h.java rfl).symm
  · cases henabled : native.enabled with
    | true => rw [if_pos rfl, if_pos rfl]
    | false => exact (NativeRole.eq_default henabled (h.native henabled)).symm
  · cases ports with
    | true => rfl
    | false => exact (h.ports rfl).symm

/-- Keeping the roles but `hidden`. -/
theorem AppConfig.withRoles_self :
    app.withRoles app.java app.native.enabled hidden app.appHiding app.ports =
      { app.trimmed with hidden := hidden } :=
  rfl

end Rebuild

/-! ## Rebuilding a config -/

section Build

variable {config : CanonicalConfig} {roles : RoleSets} {pkg selfPkg : Str}
  {signals : List AutoHideSignal} {partialScan : Bool}

/-- The packages of some role. -/
theorem RoleSets.mem_packages :
    pkg ∈ roles.packages ↔
      pkg ∈ roles.java ∨ pkg ∈ roles.native ∨ pkg ∈ roles.hidden ∨ pkg ∈ roles.observers ∨
        pkg ∈ roles.ports := by
  rw [packages, Std.ExtTreeSet.mem_ofList, List.contains_iff_mem]
  simp

/-- The app of a package, by its roles. -/
theorem RoleSets.app_eq (roles : RoleSets) (previous : Option AppConfig) (pkg : Str) :
    roles.app previous pkg = (previous.getD .default).withRoles (roles.java.contains pkg)
      (roles.native.contains pkg)
      (roles.hidden.contains pkg) (roles.observers.contains pkg) (roles.ports.contains pkg) := by
  rw [app, AppConfig.withRoles]
  cases previous with
  | none => simp [AppConfig.default, NativeRole.default]
  | some p =>
    rw [Option.getD_some, AppConfig.mk.injEq]
    refine ⟨rfl, ?_, ?_, rfl, rfl, ?_, rfl⟩
    · rw [Option.filter_some]
      split_ifs <;> rfl
    · rw [Option.filter_some]
      split_ifs <;> rfl
    · rw [Option.filter_some]
      split_ifs <;> rfl

/-- A package without a role would get an app without any. -/
theorem RoleSets.app_of_notMem (h : pkg ∉ roles.packages) (previous : Option AppConfig) :
    roles.app previous pkg = .default := by
  rw [mem_packages] at h
  simp only [not_or, ← Std.ExtTreeSet.contains_iff_mem, Bool.not_eq_true] at h
  obtain ⟨hjava, hnative, hhidden, hobservers, hports⟩ := h
  rw [app_eq, hjava, hnative, hhidden, hobservers, hports]
  simp [AppConfig.withRoles, AppConfig.default]

/-- The apps that are built. -/
theorem getElem?_buildRoles (debug : Bool) (debugSwitch : Option Bool) (roles : RoleSets)
    (existing : Option CanonicalConfig) (pkg : Str) :
    (buildRoles debug debugSwitch roles existing).apps[pkg]? =
      if pkg ∈ roles.packages then some (roles.app (existing.bind (·.apps[pkg]?)) pkg)
        else none := by
  rw [buildRoles]
  split_ifs with hmem
  · refine Std.ExtTreeMap.getElem?_ofList_of_mem Std.ReflCmp.compare_self ?_ ?_
    · rw [List.pairwise_map]
      exact (Std.ExtTreeSet.distinct_toList : roles.packages.toList.Pairwise _)
    · exact List.mem_map_of_mem (Std.ExtTreeSet.mem_toList.2 hmem)
  · refine Std.ExtTreeMap.getElem?_ofList_of_contains_eq_false ?_
    rw [List.map_map, ← Bool.not_eq_true, List.contains_iff_mem]
    simpa using hmem

/-- A config is rebuilt package by package. -/
theorem appOf_buildRoles (debug : Bool) (debugSwitch : Option Bool) (roles : RoleSets)
    (config : CanonicalConfig) (pkg : Str) :
    appOf (buildRoles debug debugSwitch roles (some config)).apps pkg =
      (appOf config.apps pkg).withRoles (roles.java.contains pkg) (roles.native.contains pkg)
        (roles.hidden.contains pkg) (roles.observers.contains pkg) (roles.ports.contains pkg) := by
  have happ := roles.app_eq (config.apps[pkg]?) pkg
  rw [appOf, getElem?_buildRoles]
  split_ifs with hmem
  · exact happ
  · exact (RoleSets.app_of_notMem hmem _).symm.trans happ

/-- The packages with a role. -/
theorem mem_packagesWith {p : AppConfig → Bool} (hp : p .default = false) :
    pkg ∈ packagesWith config p ↔ p (appOf config.apps pkg) = true := by
  rw [packagesWith, Std.ExtTreeSet.mem_ofList, List.contains_iff_mem, appOf]
  simp only [List.mem_map, List.mem_filter, Prod.exists,
    Std.ExtTreeMap.mem_toList_iff_getElem?_eq_some]
  constructor
  · rintro ⟨k, app, ⟨happ, hrole⟩, rfl⟩
    rw [happ]
    exact hrole
  · intro h
    cases happ : config.apps[pkg]? with
    | none =>
      rw [happ, Option.getD_none, hp] at h
      cases h
    | some app =>
      rw [happ] at h
      exact ⟨pkg, app, ⟨happ, h⟩, rfl⟩

theorem contains_packagesWith {p : AppConfig → Bool} (hp : p .default = false)
    (config : CanonicalConfig) (pkg : Str) :
    (packagesWith config p).contains pkg = p (appOf config.apps pkg) := by
  rw [Bool.eq_iff_iff, Std.ExtTreeSet.contains_iff_mem]
  exact mem_packagesWith hp

theorem notMem_iff {packages : StrSet} : (!packages.contains pkg) = true ↔ pkg ∉ packages := by
  rw [Bool.not_eq_true', ← Bool.not_eq_true, Std.ExtTreeSet.contains_iff_mem]

theorem mem_hiddenPackages {existing : StrSet} : pkg ∈ hiddenPackages existing selfPkg ↔
    pkg ∈ existing ∨ pkg = selfPkg := by
  rw [hiddenPackages, Std.ExtTreeSet.mem_ofList, List.contains_iff_mem, List.mem_append,
    Std.ExtTreeSet.mem_toList, List.mem_singleton]

/-- What hidden by hand means. -/
theorem mem_manualHidden :
    pkg ∈ manualHidden config selfPkg ↔
      (appOf config.apps pkg).hidden = true ∧ pkg ≠ selfPkg ∧
        pkg ∉ config.settings.autoHiddenPackages := by
  rw [manualHidden, Std.ExtTreeSet.mem_ofList, List.contains_iff_mem, appOf]
  simp only [List.mem_map, List.mem_filter, Prod.exists,
    Std.ExtTreeMap.mem_toList_iff_getElem?_eq_some, Bool.and_eq_true, decide_eq_true_eq, notMem_iff]
  constructor
  · rintro ⟨k, app, ⟨happ, ⟨hhidden, hself⟩, hauto⟩, rfl⟩
    rw [happ]
    exact ⟨hhidden, hself, hauto⟩
  · rintro ⟨hhidden, hself, hauto⟩
    cases happ : config.apps[pkg]? with
    | none =>
      rw [happ] at hhidden
      cases hhidden
    | some app =>
      rw [happ] at hhidden
      exact ⟨pkg, app, ⟨happ, ⟨hhidden, hself⟩, hauto⟩, rfl⟩

/-- What a scan hides. -/
theorem mem_automaticHidden {settings : Settings} :
    pkg ∈ automaticHidden settings selfPkg signals partialScan ↔
      pkg ∈ autoHidden signals settings selfPkg ∨
        (partialScan = true ∧ pkg ∈ settings.autoHiddenPackages ∧
          pkg ∉ signals.map (·.package)) := by
  rw [automaticHidden]
  cases partialScan with
  | false => simp
  | true =>
    simp only [if_pos, Std.ExtTreeSet.mem_insertMany_list, List.contains_iff_mem, List.mem_filter,
      Std.ExtTreeSet.mem_toList, notMem_iff, Std.ExtTreeSet.mem_ofList, true_and]

/-- A scan changes no setting but the packages it hides. -/
@[simp]
theorem settings_reconcileAutoHidden (config : CanonicalConfig) (selfPkg : Str)
    (signals : List AutoHideSignal) (partialScan : Bool) :
    (reconcileAutoHidden config selfPkg signals partialScan).settings = { config.settings with
      autoHiddenPackages := automaticHidden config.settings selfPkg signals partialScan } :=
  rfl

/-- The packages that are hidden after a scan. -/
def HiddenAfter (config : CanonicalConfig) (selfPkg : Str) (signals : List AutoHideSignal)
    (partialScan : Bool) (pkg : Str) : Prop :=
  ((appOf config.apps pkg).hidden = true ∧ pkg ∉ config.settings.autoHiddenPackages) ∨
    pkg ∈ automaticHidden config.settings selfPkg signals partialScan ∨ pkg = selfPkg

instance : Decidable (HiddenAfter config selfPkg signals partialScan pkg) :=
  inferInstanceAs (Decidable (_ ∨ _))

/-- If only the hidden packages are edited, every app is trimmed. -/
theorem appOf_buildRoles_roleSets (debug : Bool) {config existing : CanonicalConfig}
    (hexisting : existing.apps = config.apps) (hidden : StrSet) (pkg : Str) :
    appOf (buildRoles debug none { roleSets config with hidden := hidden } (some existing)).apps
      pkg = { (appOf config.apps pkg).trimmed with hidden := hidden.contains pkg } := by
  rw [appOf_buildRoles, hexisting]
  dsimp only [roleSets]
  rw [contains_packagesWith rfl, contains_packagesWith rfl, contains_packagesWith rfl,
    contains_packagesWith rfl]
  exact AppConfig.withRoles_self

/-- A scan trims the app of every package, and decides whether it is hidden. -/
theorem appOf_reconcileAutoHidden (config : CanonicalConfig) (selfPkg : Str)
    (signals : List AutoHideSignal) (partialScan : Bool) (pkg : Str) :
    appOf (reconcileAutoHidden config selfPkg signals partialScan).apps pkg =
      { (appOf config.apps pkg).trimmed
        with hidden := decide (HiddenAfter config selfPkg signals partialScan pkg) } := by
  have hhidden : (hiddenPackages ((roleSets config).hidden \ config.settings.autoHiddenPackages ∪
      automaticHidden config.settings selfPkg signals partialScan) selfPkg).contains pkg =
        decide (HiddenAfter config selfPkg signals partialScan pkg) := by
    rw [Bool.eq_iff_iff, decide_eq_true_eq, Std.ExtTreeSet.contains_iff_mem, mem_hiddenPackages,
      Std.ExtTreeSet.mem_union_iff, Std.ExtTreeSet.mem_diff_iff, roleSets, mem_packagesWith rfl,
      HiddenAfter, or_assoc]
  rw [reconcileAutoHidden, ← hhidden]
  exact appOf_buildRoles_roleSets _ rfl _ pkg

/-- What is hidden after a scan. -/
theorem hidden_reconcileAutoHidden :
    (appOf (reconcileAutoHidden config selfPkg signals partialScan).apps pkg).hidden = true ↔
      HiddenAfter config selfPkg signals partialScan pkg := by
  rw [appOf_reconcileAutoHidden, decide_eq_true_eq]

/-- A scan leaves all other roles alone. -/
theorem independent_reconcileAutoHidden (config : CanonicalConfig) (selfPkg : Str)
    (signals : List AutoHideSignal) (partialScan : Bool) (pkg : Str) :
    (appOf (reconcileAutoHidden config selfPkg signals partialScan).apps pkg).independent =
      (appOf config.apps pkg).trimmed.independent := by
  rw [appOf_reconcileAutoHidden]
  rfl

/-- A partial scan reveals no package that it did not see. -/
theorem hidden_of_partial (hhidden : (appOf config.apps pkg).hidden = true)
    (hseen : pkg ∉ signals.map (·.package)) :
    (appOf (reconcileAutoHidden config selfPkg signals true).apps pkg).hidden = true := by
  rw [hidden_reconcileAutoHidden, HiddenAfter, mem_automaticHidden]
  -- an automatic package that was not seen stays automatic
  by_cases hauto : pkg ∈ config.settings.autoHiddenPackages
  · exact .inr (.inl (.inr ⟨rfl, hauto, hseen⟩))
  · exact .inl ⟨hhidden, hauto⟩

end Build

/-! ## Sequences of scans -/

/-- The auto-hide settings change, or the result of a scan is reconciled. -/
inductive HidingStep
  | settings (services name : Bool) (excluded : StrSet)
  | scan (signals : List AutoHideSignal) (partialScan : Bool)

/-- What a step makes of the config. -/
def HidingStep.apply (selfPkg : Str) (config : CanonicalConfig) : HidingStep → CanonicalConfig
  | .settings services name excluded =>
    { config with settings := { config.settings with
        autoHideVpnServices := services, autoHideVpnName :=
          name, autoHideExcludedPackages := excluded } }
  | .scan signals partialScan => reconcileAutoHidden config selfPkg signals partialScan

/-- The config after several steps. -/
def hidingRun (selfPkg : Str) (config : CanonicalConfig) (steps : List HidingStep) :
    CanonicalConfig :=
  steps.foldl (HidingStep.apply selfPkg) config

/-- The scan selects the package. -/
def HidingStep.Selects (selfPkg pkg : Str) (config : CanonicalConfig) : HidingStep → Prop
  | .settings .. => False
  | .scan signals _ => pkg ∈ autoHidden signals config.settings selfPkg

/-- The scan does not select the package although it saw it, or saw all there is. -/
def HidingStep.Releases (selfPkg pkg : Str) (config : CanonicalConfig) : HidingStep → Prop
  | .settings .. => False
  | .scan signals partialScan =>
    pkg ∉ autoHidden signals config.settings selfPkg ∧
      (partialScan = true → pkg ∈ signals.map (·.package))

/-- A scan of the run selects the package. -/
def Selected (selfPkg pkg : Str) (config : CanonicalConfig) (steps : List HidingStep) : Prop :=
  ∃ before step after, steps = before ++ step :: after ∧
    step.Selects selfPkg pkg (hidingRun selfPkg config before)

/-- Once a scan of the run has selected the package, no later one releases it. -/
def NotReleased (selfPkg pkg : Str) (config : CanonicalConfig) (steps : List HidingStep) : Prop :=
  ∀ before step after, steps = before ++ step :: after → Selected selfPkg pkg config before →
    ¬step.Releases selfPkg pkg (hidingRun selfPkg config before)

section Runs

variable {config : CanonicalConfig} {selfPkg pkg : Str} {steps : List HidingStep}
  {step : HidingStep}

theorem hidingRun_concat :
    hidingRun selfPkg config (steps ++ [step]) =
      step.apply selfPkg (hidingRun selfPkg config steps) := by
  rw [hidingRun, List.foldl_append]
  rfl

/-- What is selected stays so. -/
theorem Selected.concat (h : Selected selfPkg pkg config steps) :
    Selected selfPkg pkg config (steps ++ [step]) := by
  obtain ⟨before, s, after, rfl, hs⟩ := h
  exact ⟨before, s, after ++ [step], by rw [List.append_assoc, List.cons_append], hs⟩

/-- What is not released by all steps is not released by the first ones. -/
theorem NotReleased.init (h : NotReleased selfPkg pkg config (steps ++ [step])) :
    NotReleased selfPkg pkg config steps := by
  intro before s after hsteps hselected
  exact h before s (after ++ [step]) (by rw [hsteps, List.append_assoc, List.cons_append]) hselected

/-- The package is hidden, and automatically only if a scan has selected it. -/
structure Manual (selected : Prop) (config : CanonicalConfig) (pkg : Str) : Prop where
  hidden : (appOf config.apps pkg).hidden = true
  automatic : pkg ∈ config.settings.autoHiddenPackages → selected

/-- A step keeps a manual package hidden unless it releases one that was selected. -/
theorem Manual.apply {selected : Prop} (h : Manual selected config pkg)
    (hreleases : selected → ¬step.Releases selfPkg pkg config) :
    Manual (selected ∨ step.Selects selfPkg pkg config) (step.apply selfPkg config) pkg := by
  cases step with
  | settings services name excluded => exact ⟨h.hidden, fun hauto => .inl (h.automatic hauto)⟩
  | scan signals partialScan =>
    refine ⟨?_, fun hauto => ?_⟩
    · rw [HidingStep.apply, hidden_reconcileAutoHidden, HiddenAfter, mem_automaticHidden]
      by_cases hauto : pkg ∈ config.settings.autoHiddenPackages
      · -- the package is automatic by now: the scan selects it again, or cannot see it
        have hkept := hreleases (h.automatic hauto)
        rw [HidingStep.Releases, not_and, Classical.not_imp] at hkept
        by_cases hselects : pkg ∈ autoHidden signals config.settings selfPkg
        · exact .inr (.inl (.inl hselects))
        · exact .inr (.inl (.inr ⟨(hkept hselects).1, hauto, (hkept hselects).2⟩))
      · exact .inl ⟨h.hidden, hauto⟩
    · rw [HidingStep.apply, settings_reconcileAutoHidden] at hauto
      obtain hselects | ⟨-, hold, -⟩ := mem_automaticHidden.1 hauto
      · exact .inr hselects
      · exact .inl (h.automatic hold)

/-- What is hidden by hand stays so, until a scan selects it. -/
theorem run_manual (h : pkg ∈ manualHidden config selfPkg)
    (hrun : NotReleased selfPkg pkg config steps) :
    Manual (Selected selfPkg pkg config steps) (hidingRun selfPkg config steps) pkg := by
  -- the states of a run are those of its beginnings, so the last step is peeled off
  induction steps using List.reverseRecOn with
  | nil =>
    rw [mem_manualHidden] at h
    exact ⟨h.1, fun hauto => absurd hauto h.2.2⟩
  | append_singleton steps step ih =>
    have hstep := (ih hrun.init).apply (hrun steps step [] rfl)
    rw [hidingRun_concat]
    refine ⟨hstep.hidden, fun hauto => ?_⟩
    obtain hselected | hselects := hstep.automatic hauto
    · exact hselected.concat
    · exact ⟨steps, step, [], rfl, hselects⟩

end Runs

/-- A package that was hidden by hand is hidden after every sequence of scans, unless a scan has
    selected it and a later one releases it. A scan keeps all roles of every package but `hidden`,
    with their overrides, except those of a role that is off, and if it is partial it reveals
    no package that it did not see. -/
theorem hidingRun_spec (config : CanonicalConfig) (selfPkg : Str) (steps : List HidingStep) :
    (∀ pkg ∈ manualHidden config selfPkg, NotReleased selfPkg pkg config steps →
      (appOf (hidingRun selfPkg config steps).apps pkg).hidden = true) ∧
      ∀ before signals partialScan after, steps = before ++ .scan signals partialScan :: after →
        let old := hidingRun selfPkg config before
        let new := hidingRun selfPkg config (before ++ [.scan signals partialScan])
        ∀ pkg,
          (appOf new.apps pkg).independent = (appOf old.apps pkg).trimmed.independent ∧
          ((appOf old.apps pkg).Clean → (appOf new.apps pkg).independent =
            (appOf old.apps pkg).independent) ∧
          (partialScan = true → pkg ∉ signals.map (·.package) → (appOf old.apps pkg).hidden = true →
            (appOf new.apps pkg).hidden = true) := by
  refine ⟨fun pkg hpkg hrun => (run_manual hpkg hrun).hidden,
    fun before signals partialScan after _ => ?_⟩
  intro old new pkg
  have hnew : new = reconcileAutoHidden old selfPkg signals partialScan := hidingRun_concat
  -- A scan touches what is independent of hiding only by trimming it.
  have hindependent := independent_reconcileAutoHidden old selfPkg signals partialScan pkg
  rw [hnew]
  refine ⟨hindependent, fun hclean => ?_, ?_⟩
  · rw [hindependent, hclean.trimmed_eq]
  · rintro rfl hseen hhidden
    exact hidden_of_partial hhidden hseen

/-- A config with one app. -/
def withApp (pkg : Str) (app : AppConfig) : CanonicalConfig :=
  { CanonicalConfig.default with apps := .ofList [(pkg, app)] }

/-- A scan that selects a manual package makes it automatic, and the next one reveals it. A scan
    also drops an override of a role that is off. -/
theorem manual_package_revealed :
    (∃ config, config = withApp ['p'] { AppConfig.default with hidden := true } ∧
      ['p'] ∈ manualHidden config ['s'] ∧
      (appOf (hidingRun ['s'] config [.scan [⟨['p'], true, false⟩] false, .scan [] false]).apps
        ['p']).hidden = false) ∧
    ∃ config, config =
      withApp ['p'] { AppConfig.default with javaHooks := some [['h']], appHiding := true } ∧
        (appOf config.apps ['p']).javaHooks ≠
          (appOf (hidingRun ['s'] config [.scan [] false]).apps ['p']).javaHooks := by
  refine ⟨⟨_, rfl, ?_, ?_⟩, _, rfl, ?_⟩
  · decide +kernel
  · decide +kernel
  · decide +kernel

end VpnHide.Config

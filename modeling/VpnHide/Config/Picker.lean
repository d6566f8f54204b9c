import VpnHide.Config.Selection

/-!
# Saving the picker

`picker_save` of `crates/core-rpc/src/config_selection.rs`. The picker shows the packages of the
profiles that could be scanned, one row for each. The roles are taken apart into sets, edited
row by row and rebuilt, the overrides of the rows are laid over the result, and the scan is
reconciled.

The rows are independent of each other (`foldl_entries`), so that the app of a package depends
on its own row only (`appOf_pickerConfig`), and a package without a row is only trimmed.
-/

namespace VpnHide.Config

open Lib

/-! ## Port policies -/

/-- The order of the protocols. -/
def PortProtocol.rank : PortProtocol → ℕ
  | .both => 0
  | .tcp => 1
  | .udp => 2

/-- The order of the key `(start, end, protocol)`. -/
def PortRule.before (a b : PortRule) : Bool :=
  a.start < b.start ||
    (a.start = b.start &&
      (a.stop < b.stop || (a.stop = b.stop && a.protocol.rank ≤ b.protocol.rank)))

/-- The rules in order, each once. -/
def normalizeRules (rules : List PortRule) : List PortRule :=
  (rules.mergeSort PortRule.before).eraseReps

/-- The policy as the picker saves it. -/
def normalizePortPolicy (policy : PortPolicy) : PortPolicy :=
  { policy with
    mode := if policy.mode ≠ "preset".toList then "custom".toList else policy.mode
    rules := normalizeRules policy.rules }

/-! ## The picker -/

/-- A package is put into the set of a role, or taken out of it. -/
def setRole (packages : StrSet) (pkg : Str) (enabled : Bool) : StrSet :=
  if enabled then packages.insert pkg else packages.erase pkg

/-- A row of the picker decides all roles of its package but `hidden`. -/
def RoleSets.select (roles : RoleSets) (row : Str × AppConfig) : RoleSets :=
  { roles with
    java := setRole roles.java row.1 row.2.java
    native := setRole roles.native row.1 row.2.native.enabled
    observers := setRole roles.observers row.1 row.2.appHiding
    ports := setRole roles.ports row.1 row.2.ports }

/-- The overrides of a row, for the roles that it switches on. -/
def AppConfig.overlay (value app : AppConfig) : AppConfig :=
  { app with
    javaHooks := if value.java then value.javaHooks.filter (!·.isEmpty) else app.javaHooks
    native := if value.native.enabled then value.native else app.native
    portPolicy := if value.ports then value.portPolicy.map normalizePortPolicy else app.portPolicy }

/-- The row of a package says what its app has, if it has roles. -/
def overlayRow (apps : StrMap AppConfig) (row : Str × AppConfig) : StrMap AppConfig :=
  match apps[row.1]? with
  | none => apps
  | some app => apps.insert row.1 (row.2.overlay app)

/-- The roles that the rows of the picker choose. -/
def pickerRoles (base : CanonicalConfig) (selfPkg : Str) (selections : StrMap AppConfig) :
    RoleSets :=
  let roles := selections.toList.foldl RoleSets.select (roleSets base)
  { roles with
    java := roles.java.insert selfPkg
    native := roles.native.insert selfPkg
    hidden := hiddenPackages (roles.hidden \ base.settings.autoHiddenPackages) selfPkg }

/-- The config before the scan is reconciled. -/
def pickerConfig (base : CanonicalConfig) (debug : Bool) (selfPkg : Str)
    (selections : StrMap AppConfig) :
    CanonicalConfig :=
  let base := { base with debug := debug }
  let config := buildRoles debug none (pickerRoles base selfPkg selections) (some base)
  { config with apps := selections.toList.foldl overlayRow config.apps }

/-- `picker_save`: the config that is saved for what was chosen. -/
def pickerSave (base : CanonicalConfig) (debug : Bool) (selfPkg : Str)
    (selections : StrMap AppConfig) (signals : List AutoHideSignal) (partialScan : Bool) :
    CanonicalConfig :=
  reconcileAutoHidden (pickerConfig base debug selfPkg selections) selfPkg signals partialScan

/-! ## Saving the picker -/

/-- Going through the entries of a map, each entry decides what is seen of its own key. -/
theorem foldl_entries {σ α V : Type} (m : StrMap V) (f : σ → Str × V → σ) (obs : σ → α)
    (g : V → α → α) (key : Str) (hself : ∀ s v, obs (f s (key, v)) = g v (obs s))
    (hother : ∀ s k v, k ≠ key → obs (f s (k, v)) = obs s) (s : σ) :
    obs (m.toList.foldl f s) = ((m[key]?).map (g · (obs s))).getD (obs s) := by
  -- entries of other keys are not seen
  have hskip : ∀ (l : List (Str × V)) (s : σ), (∀ e ∈ l, e.1 ≠ key) →
      obs (l.foldl f s) = obs s := by
    intro l
    induction l with
    | nil => intro s _; rfl
    | cons e l ih =>
      intro s hl
      rw [List.foldl_cons, ih _ fun x hx => hl x (List.mem_cons_of_mem e hx)]
      exact hother s e.1 e.2 (hl e List.mem_cons_self)
  cases hget : m[key]? with
  | none =>
    refine hskip _ s fun e he hkey => ?_
    rw [Std.ExtTreeMap.mem_toList_iff_getElem?_eq_some, hkey, hget] at he
    cases he
  | some v =>
    obtain ⟨before, after, hlist⟩ :=
      List.append_of_mem (Std.ExtTreeMap.mem_toList_iff_getElem?_eq_some.2 hget)
    -- the key is not listed again, neither before nor after its entry
    have hdistinct : (m.toList.map (·.1)).Nodup := by
      rw [Std.ExtTreeMap.map_fst_toList_eq_keys]
      exact Std.ExtTreeMap.nodup_keys
    rw [hlist, List.map_append, List.map_cons, List.nodup_append, List.nodup_cons] at hdistinct
    obtain ⟨-, ⟨hafter, -⟩, hbefore⟩ := hdistinct
    rw [hlist, List.foldl_append, List.foldl_cons, hskip after, hself, hskip before]
    · rfl
    · exact fun e he hkey => hbefore e.1 (List.mem_map_of_mem he) key List.mem_cons_self hkey
    · exact fun e he hkey => hafter (List.mem_map.2 ⟨e, he, hkey⟩)

section Picker

variable {base : CanonicalConfig} {debug : Bool} {selfPkg pkg : Str} {selections : StrMap AppConfig}
  {signals : List AutoHideSignal} {partialScan : Bool} {value : AppConfig}

/-- An overlay on a clean app is clean. -/
theorem AppConfig.Clean.overlay {app : AppConfig} (h : app.Clean)
    (hjava : value.java = true → app.java = true) (hports : value.ports = true → app.ports = true) :
    (value.overlay app).Clean where
  java hoff := by
    have hvalue : value.java = false :=
      Bool.eq_false_iff.2 fun hv => by simp [AppConfig.overlay, hjava hv] at hoff
    simp only [AppConfig.overlay, hvalue]
    exact h.java hoff
  native hoff := by
    simp only [AppConfig.overlay] at hoff ⊢
    split_ifs at hoff ⊢ with hvalue
    · rw [hvalue] at hoff
      cases hoff
    · exact h.native hoff
  ports hoff := by
    have hvalue : value.ports = false :=
      Bool.eq_false_iff.2 fun hv => by simp [AppConfig.overlay, hports hv] at hoff
    simp only [AppConfig.overlay, hvalue]
    exact h.ports hoff

/-- The package is in the set just if its role is on. -/
theorem contains_setRole_self (packages : StrSet) (pkg : Str) (enabled : Bool) :
    (setRole packages pkg enabled).contains pkg = enabled := by
  rw [setRole]
  cases enabled with
  | true => exact Std.ExtTreeSet.contains_insert_self
  | false => simp

theorem contains_setRole_of_ne (packages : StrSet) {pkg pkg' : Str}
    (enabled : Bool) (h : pkg' ≠ pkg) :
    (setRole packages pkg' enabled).contains pkg = packages.contains pkg := by
  have hcmp : compare pkg' pkg ≠ .eq := by simpa using h
  rw [setRole]
  split_ifs
  · rw [Std.ExtTreeSet.contains_insert, beq_false_of_ne hcmp, Bool.false_or]
  · rw [Std.ExtTreeSet.contains_erase, bne_iff_ne.2 hcmp, Bool.true_and]

/-- The app is as its row says. The self package has two roles anyway. -/
structure AppConfig.AsSelected (value : AppConfig) (isSelf : Bool) (app : AppConfig) : Prop where
  java : app.java = (value.java || isSelf)
  native : app.native.enabled = (value.native.enabled || isSelf)
  appHiding : app.appHiding = value.appHiding
  ports : app.ports = value.ports
  clean : app.Clean
  javaHooks : value.java = true → app.javaHooks = value.javaHooks.filter (!·.isEmpty)
  nativeRole : value.native.enabled = true → app.native = value.native
  portPolicy : value.ports = true → app.portPolicy = value.portPolicy.map normalizePortPolicy

/-- The row of a package, or its app if the picker does not show it. -/
def rowOf (base : CanonicalConfig) (selections : StrMap AppConfig) (pkg : Str) : AppConfig :=
  (selections[pkg]?).getD (appOf base.apps pkg)

/-- The rows decide the roles, package by package. -/
theorem contains_foldl_select {packages : RoleSets → StrSet} {role : AppConfig → Bool}
    (hselect : ∀ roles row, packages (roles.select row) =
      setRole (packages roles) row.1 (role row.2))
    (hbase : (packages (roleSets base)).contains pkg = role (appOf base.apps pkg))
    (selections : StrMap AppConfig) :
    (packages (selections.toList.foldl RoleSets.select (roleSets base))).contains pkg =
      role (rowOf base selections pkg) := by
  rw [foldl_entries selections RoleSets.select (fun roles => (packages roles).contains pkg)
    (fun value _ => role value) pkg
    (fun roles value => by rw [hselect, contains_setRole_self])
    (fun roles k value hk => by rw [hselect, contains_setRole_of_ne _ _ hk]) (roleSets base),
      hbase, rowOf]
  cases selections[pkg]? <;> rfl

/-- The rows do not choose what is hidden. -/
theorem hidden_foldl_select (rows : List (Str × AppConfig)) (roles : RoleSets) :
    (rows.foldl RoleSets.select roles).hidden = roles.hidden := by
  induction rows generalizing roles with
  | nil => rfl
  | cons row rows ih => exact ih (roles.select row)

/-- The app that is built for a package. -/
theorem appOf_buildRoles_picker (base : CanonicalConfig) (debug : Bool) (selfPkg : Str)
    (selections : StrMap AppConfig) (pkg : Str) :
    ∃ hidden : Bool,
      (hidden = true ↔
        ((appOf base.apps pkg).hidden = true ∧ pkg ∉ base.settings.autoHiddenPackages) ∨
          pkg = selfPkg) ∧
      appOf (buildRoles debug none (pickerRoles base selfPkg selections) (some base)).apps pkg =
        (appOf base.apps pkg).withRoles ((rowOf base selections pkg).java || pkg = selfPkg)
          ((rowOf base selections pkg).native.enabled || pkg = selfPkg) hidden
          (rowOf base selections pkg).appHiding (rowOf base selections pkg).ports := by
  have hinsert : ∀ packages : StrSet, (packages.insert selfPkg).contains pkg =
      (packages.contains pkg || pkg = selfPkg) := by
    intro packages
    have hself : (compare selfPkg pkg == .eq) = decide (pkg = selfPkg) := by
      rw [Bool.eq_iff_iff, beq_iff_eq, Std.LawfulEqCmp.compare_eq_iff_eq,
        decide_eq_true_eq, eq_comm]
    rw [Std.ExtTreeSet.contains_insert, hself, Bool.or_comm]
  have hroles : ∀ (packages : RoleSets → StrSet) (role : AppConfig → Bool),
      (∀ roles row, packages (roles.select row) = setRole (packages roles) row.1 (role row.2)) →
      packages (roleSets base) = packagesWith base role → role .default = false →
      (packages (selections.toList.foldl RoleSets.select (roleSets base))).contains pkg =
        role (rowOf base selections pkg) := by
    intro packages role hselect hbase hdefault
    exact contains_foldl_select hselect (by rw [hbase, contains_packagesWith hdefault]) selections
  refine ⟨(pickerRoles base selfPkg selections).hidden.contains pkg, ?_, ?_⟩
  · rw [pickerRoles, Std.ExtTreeSet.contains_iff_mem, mem_hiddenPackages,
      Std.ExtTreeSet.mem_diff_iff, hidden_foldl_select, roleSets, mem_packagesWith rfl]
  · rw [appOf_buildRoles]
    congr 1
    · rw [pickerRoles, hinsert, hroles RoleSets.java (·.java) (fun _ _ => rfl) rfl rfl]
    · rw [pickerRoles, hinsert, hroles RoleSets.native (·.native.enabled) (fun _ _ => rfl) rfl rfl]
    · exact hroles RoleSets.observers (·.appHiding) (fun _ _ => rfl) rfl rfl
    · exact hroles RoleSets.ports (·.ports) (fun _ _ => rfl) rfl rfl

/-- The rows overlay the apps, one by one. -/
theorem getElem?_foldl_overlay (selections apps : StrMap AppConfig) (pkg : Str) :
    (selections.toList.foldl overlayRow apps)[pkg]? =
      ((selections[pkg]?).map fun value => (apps[pkg]?).map value.overlay).getD (apps[pkg]?) := by
  refine foldl_entries selections overlayRow (·[pkg]?) (fun value app => app.map value.overlay) pkg
    ?_ ?_ apps
  · intro apps value
    rw [overlayRow]
    cases happ : apps[pkg]? with
    | none => exact happ
    | some app => exact Std.ExtTreeMap.getElem?_insert_self
  · intro apps k value hk
    rw [overlayRow]
    cases apps[k]? with
    | none => rfl
    | some app => exact getElem?_insert_of_ne hk _

theorem AppConfig.native_withRoles {app : AppConfig} {java native hidden appHiding ports : Bool} :
    (app.withRoles java native hidden appHiding ports).native.enabled = native := by
  rw [withRoles]
  cases native with
  | false => rfl
  | true =>
    by_cases henabled : app.native.enabled = true
    · simp [henabled]
    · simp [henabled]

/-- A row without roles leaves nothing of what it overlays. -/
theorem AppConfig.overlay_default (hjava : value.java = false)
    (hnative : value.native.enabled = false) (hports : value.ports = false) :
    value.overlay .default = .default := by
  simp [overlay, hjava, hnative, hports, AppConfig.default]

/-- The app of a package before the scan is reconciled: its roles are those of its row, and
    the self package has two roles anyway. -/
theorem appOf_pickerConfig (base : CanonicalConfig) (debug : Bool) (selfPkg : Str)
    (selections : StrMap AppConfig) (pkg : Str) :
    ∃ hidden : Bool,
      (hidden = true ↔
        ((appOf base.apps pkg).hidden = true ∧ pkg ∉ base.settings.autoHiddenPackages) ∨
          pkg = selfPkg) ∧
      let row := rowOf base selections pkg
      let built :=
        (appOf base.apps pkg).withRoles (row.java || pkg = selfPkg)
        (row.native.enabled || pkg = selfPkg)
        hidden row.appHiding row.ports
      appOf (pickerConfig base debug selfPkg selections).apps pkg =
        ((selections[pkg]?).map (·.overlay built)).getD built := by
  obtain ⟨hidden, hhidden, happ⟩ :=
    appOf_buildRoles_picker { base with debug := debug } debug selfPkg selections pkg
  refine ⟨hidden, hhidden, ?_⟩
  intro row built
  have hbuilt :
      appOf (buildRoles debug none (pickerRoles { base with debug := debug } selfPkg selections)
        (some { base with debug := debug })).apps pkg = built := happ
  rw [pickerConfig, appOf, getElem?_foldl_overlay]
  cases hselected : selections[pkg]? with
  | none => exact hbuilt
  | some value =>
    rw [appOf] at hbuilt
    dsimp only [Option.map_some, Option.getD_some]
    cases hget :
        (buildRoles debug none (pickerRoles { base with debug := debug } selfPkg selections)
          (some { base with debug := debug })).apps[pkg]? with
    | some app =>
      rw [hget] at hbuilt
      exact congrArg value.overlay hbuilt
    | none =>
      -- the package was left without a role, so that the row switches nothing on
      rw [hget, Option.getD_none] at hbuilt
      have hrow : row = value := by
        simp only [row, rowOf, hselected, Option.getD_some]
      have hjava : (row.java || decide (pkg = selfPkg)) = false :=
        (congrArg AppConfig.java hbuilt).symm
      have hnative : (row.native.enabled || decide (pkg = selfPkg)) = false :=
        AppConfig.native_withRoles.symm.trans (congrArg (·.native.enabled) hbuilt).symm
      have hports : row.ports = false := (congrArg AppConfig.ports hbuilt).symm
      rw [Bool.or_eq_false_iff, hrow] at hjava hnative
      rw [hrow] at hports
      rw [← hbuilt, AppConfig.overlay_default hjava.1 hnative.1 hports]
      rfl

/-- A package without a row keeps its roles. -/
theorem appOf_pickerConfig_none (hselected : selections[pkg]? = none) (hself : pkg ≠ selfPkg) :
    (appOf (pickerConfig base debug selfPkg selections).apps pkg).independent =
      (appOf base.apps pkg).trimmed.independent := by
  obtain ⟨hidden, -, happ⟩ := appOf_pickerConfig base debug selfPkg selections pkg
  rw [hselected] at happ
  simp only [rowOf, hselected, hself, decide_false, Bool.or_false] at happ
  rw [happ]
  rfl

/-- An app with a row is as the row says. -/
theorem asSelected_overlay {app : AppConfig} {hidden isSelf : Bool} :
    value.AsSelected isSelf
      (value.overlay (app.withRoles (value.java || isSelf) (value.native.enabled || isSelf) hidden
        value.appHiding value.ports)) where
  java := rfl
  native := by
    dsimp only [AppConfig.overlay]
    split_ifs with henabled
    · rw [henabled, Bool.true_or]
    · exact AppConfig.native_withRoles
  appHiding := rfl
  ports := rfl
  clean := by
    refine AppConfig.clean_withRoles.overlay (fun h => ?_) fun h => ?_
    · simp [AppConfig.withRoles, h]
    · simp [AppConfig.withRoles, h]
  javaHooks h := if_pos h
  nativeRole h := if_pos h
  portPolicy h := if_pos h

/-- A row says nothing about `hidden`. -/
theorem asSelected_independent {app : AppConfig} {isSelf : Bool} :
    value.AsSelected isSelf app.independent ↔ value.AsSelected isSelf app := by
  constructor
  · rintro ⟨hjava, hnative, happHiding, hports, ⟨hcj, hcn, hcp⟩, hjavaHooks,
      hnativeRole, hportPolicy⟩
    exact ⟨hjava, hnative, happHiding, hports, ⟨hcj, hcn, hcp⟩, hjavaHooks,
      hnativeRole, hportPolicy⟩
  · rintro ⟨hjava, hnative, happHiding, hports, ⟨hcj, hcn, hcp⟩, hjavaHooks,
      hnativeRole, hportPolicy⟩
    exact ⟨hjava, hnative, happHiding, hports, ⟨hcj, hcn, hcp⟩, hjavaHooks,
      hnativeRole, hportPolicy⟩

/-- A package with a row gets what was selected. -/
theorem asSelected_pickerConfig (base : CanonicalConfig) (debug : Bool) (selfPkg : Str)
    (hselected : selections[pkg]? = some value) :
    value.AsSelected (pkg = selfPkg)
      (appOf (pickerConfig base debug selfPkg selections).apps pkg) := by
  obtain ⟨hidden, -, happ⟩ := appOf_pickerConfig base debug selfPkg selections pkg
  rw [happ, rowOf, hselected]
  exact asSelected_overlay

/-- The apps that are saved are clean. -/
theorem clean_pickerConfig (base : CanonicalConfig) (debug : Bool) (selfPkg : Str)
    (selections : StrMap AppConfig) (pkg : Str) :
    (appOf (pickerConfig base debug selfPkg selections).apps pkg).Clean := by
  cases hselected : selections[pkg]? with
  | none =>
    obtain ⟨hidden, -, happ⟩ := appOf_pickerConfig base debug selfPkg selections pkg
    rw [happ, hselected]
    exact AppConfig.clean_withRoles
  | some value => exact (asSelected_pickerConfig base debug selfPkg hselected).clean

/-- What is hidden after the picker. -/
theorem hidden_pickerConfig :
    (appOf (pickerConfig base debug selfPkg selections).apps pkg).hidden = true ↔
      ((appOf base.apps pkg).hidden = true ∧ pkg ∉ base.settings.autoHiddenPackages) ∨
        pkg = selfPkg := by
  obtain ⟨hidden, hhidden, happ⟩ := appOf_pickerConfig base debug selfPkg selections pkg
  rw [happ, ← hhidden]
  cases selections[pkg]? <;> rfl

/-- The self package always has two roles. -/
theorem self_pickerConfig (base : CanonicalConfig) (debug : Bool) (selfPkg : Str)
    (selections : StrMap AppConfig) :
    (appOf (pickerConfig base debug selfPkg selections).apps selfPkg).java = true ∧
      (appOf (pickerConfig base debug selfPkg selections).apps selfPkg).native.enabled = true := by
  cases hselected : selections[selfPkg]? with
  | none =>
    obtain ⟨hidden, -, happ⟩ := appOf_pickerConfig base debug selfPkg selections selfPkg
    rw [happ, hselected]
    simp only [decide_true, Bool.or_true]
    exact ⟨rfl, AppConfig.native_withRoles⟩
  | some value =>
    obtain ⟨hjava, hnative⟩ := asSelected_pickerConfig base debug selfPkg hselected
    rw [hjava, hnative]
    simp

/-- The scan after the picker leaves all other roles alone. -/
theorem independent_pickerSave :
    (appOf (pickerSave base debug selfPkg selections signals partialScan).apps pkg).independent =
      (appOf (pickerConfig base debug selfPkg selections).apps pkg).independent := by
  rw [pickerSave, independent_reconcileAutoHidden,
    (clean_pickerConfig base debug selfPkg selections pkg).trimmed_eq]

/-- What was selected is saved. -/
theorem asSelected_pickerSave (hselected : selections[pkg]? = some value) :
    value.AsSelected (pkg = selfPkg)
      (appOf (pickerSave base debug selfPkg selections signals partialScan).apps pkg) := by
  have happ := asSelected_independent.2 (asSelected_pickerConfig base debug selfPkg hselected)
  rw [← independent_pickerSave] at happ
  exact asSelected_independent.1 happ

/-- VPN Hide itself keeps its roles. -/
theorem self_pickerSave :
    (appOf (pickerSave base debug selfPkg selections signals partialScan).apps selfPkg).java =
      true ∧ (appOf (pickerSave base debug selfPkg selections signals partialScan).apps
        selfPkg).native.enabled = true := by
  have happ : ∀ app : AppConfig, app.java = app.independent.java ∧
      app.native.enabled = app.independent.native.enabled :=
    fun _ => ⟨rfl, rfl⟩
  rw [(happ _).1, (happ _).2, independent_pickerSave]
  exact self_pickerConfig base debug selfPkg selections

/-- Hidden are the same packages as if the scan alone was reconciled. -/
theorem hiddenAfter_pickerConfig :
    HiddenAfter (pickerConfig base debug selfPkg selections) selfPkg signals partialScan pkg ↔
      HiddenAfter base selfPkg signals partialScan pkg := by
  -- the picker has removed what was automatic, and the scan removes it again
  have hsettings : (pickerConfig base debug selfPkg selections).settings = base.settings := rfl
  rw [HiddenAfter, HiddenAfter, hidden_pickerConfig, hsettings]
  tauto

end Picker

/-- Saving the picker. A package that it does not show keeps its roles, and the overrides of
    those that are on; what it shows is as selected, except for the self package, and no override
    is kept for a role that is off. Hidden are the packages that the scan alone would hide. -/
theorem pickerSave_spec (base : CanonicalConfig) (debug : Bool) (selfPkg : Str)
    (selections : StrMap AppConfig) (signals : List AutoHideSignal) (partialScan : Bool) :
    let result := pickerSave base debug selfPkg selections signals partialScan
    (∀ pkg, selections[pkg]? = none → pkg ≠ selfPkg →
      (appOf result.apps pkg).independent = (appOf base.apps pkg).trimmed.independent ∧
      ((appOf base.apps pkg).Clean →
        (appOf result.apps pkg).independent = (appOf base.apps pkg).independent)) ∧
    (∀ (pkg : Str) (value : AppConfig), selections[pkg]? = some value →
      value.AsSelected (pkg = selfPkg) (appOf result.apps pkg)) ∧
    (appOf result.apps selfPkg).java = true ∧ (appOf result.apps selfPkg).native.enabled = true ∧
    { result.settings with autoHiddenPackages := base.settings.autoHiddenPackages } =
      base.settings ∧
    ∀ pkg, (appOf result.apps pkg).hidden =
      (appOf (reconcileAutoHidden base selfPkg signals partialScan).apps pkg).hidden := by
  refine ⟨fun pkg hselected hself => ?_, fun pkg value => asSelected_pickerSave, self_pickerSave.1,
    self_pickerSave.2, rfl, fun pkg => ?_⟩
  · -- A package that was not selected is only trimmed.
    have hkept :
        (appOf (pickerSave base debug selfPkg selections signals partialScan).apps
          pkg).independent =
        (appOf base.apps pkg).trimmed.independent := by
      rw [independent_pickerSave, appOf_pickerConfig_none hselected hself]
    refine ⟨hkept, fun hclean => ?_⟩
    rw [hkept, hclean.trimmed_eq]
  · rw [Bool.eq_iff_iff, hidden_reconcileAutoHidden]
    exact hidden_reconcileAutoHidden.trans hiddenAfter_pickerConfig

/-- An override of a role that is off is dropped although the picker does not show its package. -/
theorem unseen_override_dropped :
    ∃ base, base =
      withApp ['p'] { AppConfig.default with javaHooks := some [['h']], appHiding := true } ∧
        (∀ (pkg : Str) (app : AppConfig), base.apps[pkg]? = some app → app.hasAnyRole = true) ∧
        ['p'] ≠ ['s'] ∧
      (appOf (pickerSave base false ['s'] ∅ [] true).apps ['p']).javaHooks ≠
        (appOf base.apps ['p']).javaHooks := by
  refine ⟨_, rfl, fun pkg app happ => ?_, ?_, ?_⟩
  · rw [withApp] at happ
    dsimp only at happ
    rw [Std.ExtTreeMap.ofList_singleton, Std.ExtTreeMap.getElem?_insert] at happ
    split_ifs at happ with hpkg
    · obtain rfl := Option.some.inj happ
      rfl
    · simp at happ
  · decide
  · decide +kernel

end VpnHide.Config

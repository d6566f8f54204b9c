import VpnHide.Config.Model

/-!
# Editing the canonical config

The reducer of `crates/core-rpc/src/config_edit.rs`, and the paths of the fields that an
edit writes. Conflicts between edits are found by their paths, while the reducer works on
the config, and drops an app with its last role.

The two agree on a canonical config: an edit changes only fields whose paths overlap with
those it writes (`apply_frame`), and two edits that do not overlap commute
(`apply_comm`). An app that was dropped and one that was never there are then the same: no
override outlives its role (`AppConfig.Clean`).
-/

namespace VpnHide.Config

open Lib

/-- The optional feature that hides paths of interfaces. -/
def filesystemFeature : Str := "filesystem_iface_paths".toList

/-! ## The reducer -/

/-- What setting a switch does. -/
def applyToggle (config : CanonicalConfig) (field : ConfigToggle) (enabled : Bool) :
    CanonicalConfig :=
  match field with
  | .filesystem => { config with settings := { config.settings with
      optionalFeatures := if enabled then config.settings.optionalFeatures.insert filesystemFeature
        else config.settings.optionalFeatures.erase filesystemFeature } }
  | .debug => { config with debug := enabled }
  | .debugSwitch => { config with debugSwitch := enabled }
  | .rememberSuperkey =>
    { config with settings := { config.settings with rememberSuperkey := enabled } }
  | .autoHideServices =>
    { config with settings := { config.settings with autoHideVpnServices := enabled } }
  | .autoHideName => { config with settings := { config.settings with autoHideVpnName := enabled } }

/-- What setting a set does. -/
def applySet (config : CanonicalConfig) (field : ConfigSetField) (values : StrSet) :
    CanonicalConfig :=
  match field with
  | .optionalFeatures =>
    { config with settings := { config.settings with optionalFeatures := values } }
  | .autoHideExcludedPackages =>
    { config with settings := { config.settings with autoHideExcludedPackages := values } }
  | .autoHiddenPackages =>
    { config with settings := { config.settings with autoHiddenPackages := values } }

/-- Merging the named role of an app. -/
def mergeApp (base next : AppConfig) : ConfigAppField → AppConfig
  | .java => { base with java := next.java, javaHooks := next.javaHooks }
  | .native => { base with native := next.native }
  | .appHiding => { base with appHiding := next.appHiding }
  | .ports => { base with ports := next.ports, portPolicy := next.portPolicy }
  | .hidden => { base with hidden := next.hidden }

mutual

/-- `apply_canonical_edit`: what an edit does to the config. -/
def applyCanonicalEdit (config : CanonicalConfig) : ConfigEdit → CanonicalConfig
  | .batch edits => applyCanonicalEdits config edits
  | .toggle field enabled => applyToggle config field enabled
  | .settingSet field values => applySet config field values
  | .app pkg field value =>
    let base := (config.apps[pkg]?).getD AppConfig.default
    let merged := mergeApp base value field
    if merged.hasAnyRole then { config with apps := config.apps.insert pkg merged }
    else { config with apps := config.apps.erase pkg }
  | .removeApp pkg => { config with apps := config.apps.erase pkg }
  | .replace config => config
  | .repairActivation => config

/-- The edits of a batch, one after another. -/
def applyCanonicalEdits (config : CanonicalConfig) : List ConfigEdit → CanonicalConfig
  | [] => config
  | edit :: edits => applyCanonicalEdits (applyCanonicalEdit config edit) edits

end

/-! ## Paths -/

/-- The segments of a path. -/
def segments (path : Str) : List Str := (path.splitOn '/').filter (· ≠ [])

/-- Whether one of two paths is a prefix of the other. -/
def fieldsOverlap (a b : Str) : Bool :=
  if segments a = [] ∨ segments b = [] then false
  else (segments b).isPrefixOf (segments a) || (segments a).isPrefixOf (segments b)

/-- The path of a switch. -/
def togglePath : ConfigToggle → Str
  | .filesystem => "settings/optionalFeatures".toList
  | .debug => "debug".toList
  | .debugSwitch => "debugSwitch".toList
  | .rememberSuperkey => "settings/rememberSuperkey".toList
  | .autoHideServices => "settings/autoHideVpnServices".toList
  | .autoHideName => "settings/autoHideVpnName".toList

/-- The path of a set. -/
def setFieldPath : ConfigSetField → Str
  | .optionalFeatures => "settings/optionalFeatures".toList
  | .autoHideExcludedPackages => "settings/autoHideExcludedPackages".toList
  | .autoHiddenPackages => "settings/autoHiddenPackages".toList

/-- The name of a role in a path. -/
def appFieldSegment : ConfigAppField → Str
  | .java => "java".toList
  | .native => "native".toList
  | .appHiding => "appHiding".toList
  | .ports => "ports".toList
  | .hidden => "hidden".toList

/-- The path of an app. -/
def appPath (pkg : Str) : Str := "apps/".toList ++ pkg

/-- The path of a role of an app. -/
def appFieldPath (pkg : Str) (field : ConfigAppField) : Str :=
  appPath pkg ++ '/' :: appFieldSegment field

mutual

/-- The paths of the fields that an edit writes. -/
def writeSet : ConfigEdit → List Str
  | .batch edits => (writeSets edits).toList
  | .toggle field _ => [togglePath field]
  | .settingSet field _ => [setFieldPath field]
  | .app pkg field _ => [appFieldPath pkg field]
  | .removeApp pkg => [appPath pkg]
  | .replace _ => ["apps".toList, "settings".toList, "debug".toList, "debugSwitch".toList]
  | .repairActivation => []

/-- The paths that the edits of a batch write, each once and in order. -/
def writeSets : List ConfigEdit → StrSet
  | [] => ∅
  | edit :: edits => (writeSets edits).insertMany (writeSet edit)

end

/-- The most edits in a batch. -/
def maxBatchEdits : ℕ := 4096

/-- Only batches are restricted. -/
def validateEdit : ConfigEdit → Except String Unit
  | .batch edits =>
    if maxBatchEdits < edits.length then .error "too many config edits"
    else if edits.any fun
        | .batch _ => true
        | .replace _ => true
        | .repairActivation => true
        | _ => false
      then .error "config batch accepts field edits only"
    else .ok ()
  | _ => .ok ()

/-! ## Apps -/

/-- No override is kept for a role that is off. -/
structure AppConfig.Clean (app : AppConfig) : Prop where
  java : app.java = false → app.javaHooks = none
  native : app.native.enabled = false → app.native.kernel = none ∧ app.native.zygisk = none
  ports : app.ports = false → app.portPolicy = none

/-- Every app has a role, and no override outlives its role. -/
def CleanApps (apps : StrMap AppConfig) : Prop :=
  ∀ (pkg : Str) (app : AppConfig), apps[pkg]? = some app → app.hasAnyRole = true ∧ app.Clean

/-- The roles of a package, none if it is absent. -/
def appOf (apps : StrMap AppConfig) (pkg : Str) : AppConfig := (apps[pkg]?).getD AppConfig.default

/-- Writing the roles of a package. -/
def putApp (apps : StrMap AppConfig) (pkg : Str) (app : AppConfig) : StrMap AppConfig :=
  if app.hasAnyRole then apps.insert pkg app else apps.erase pkg

section Apps

variable {apps : StrMap AppConfig} {pkg pkg' : Str} {app app' value : AppConfig}

theorem AppConfig.clean_default : AppConfig.default.Clean where
  java _ := rfl
  native _ := ⟨rfl, rfl⟩
  ports _ := rfl

/-- Without roles nothing of a clean app is left. -/
theorem AppConfig.Clean.eq_default (h : app.Clean) (hrole : app.hasAnyRole = false) :
    app = .default := by
  obtain ⟨java, javaHooks, ⟨enabled, kernel, zygisk⟩, appHiding, ports, portPolicy, hidden⟩ := app
  simp only [hasAnyRole, Bool.or_eq_false_iff] at hrole
  obtain ⟨⟨⟨⟨rfl, rfl⟩, rfl⟩, rfl⟩, rfl⟩ := hrole
  obtain ⟨rfl, rfl⟩ := h.native rfl
  obtain rfl := h.java rfl
  obtain rfl := h.ports rfl
  rfl

/-- Setting a role keeps an app clean. -/
theorem AppConfig.Clean.mergeApp (h : app.Clean) (hvalue : value.Clean) (field : ConfigAppField) :
    (Config.mergeApp app value field).Clean := by
  cases field with
  | java => exact ⟨hvalue.java, h.native, h.ports⟩
  | native => exact ⟨h.java, hvalue.native, h.ports⟩
  | appHiding => exact ⟨h.java, h.native, h.ports⟩
  | ports => exact ⟨h.java, h.native, hvalue.ports⟩
  | hidden => exact ⟨h.java, h.native, h.ports⟩

/-- Whether a role is on. -/
def AppConfig.role (app : AppConfig) : ConfigAppField → Bool
  | .java => app.java
  | .native => app.native.enabled
  | .appHiding => app.appHiding
  | .ports => app.ports
  | .hidden => app.hidden

theorem AppConfig.role_eq_false (h : app.hasAnyRole = false) (field : ConfigAppField) :
    app.role field = false := by
  simp only [hasAnyRole, Bool.or_eq_false_iff] at h
  cases field with
  | java => exact h.1.1.1.1
  | native => exact h.1.1.1.2
  | appHiding => exact h.1.1.2
  | ports => exact h.1.2
  | hidden => exact h.2

/-- Setting a role leaves the other ones alone. -/
theorem AppConfig.role_mergeApp_of_ne (value : AppConfig) {field field' : ConfigAppField}
    (h : field ≠ field') :
    (Config.mergeApp app value field).role field' = app.role field' := by
  cases field <;> cases field' <;> first | rfl | exact absurd rfl h

/-- A role that is off is as it is by default. -/
theorem AppConfig.Clean.mergeApp_default (h : app.Clean) {field : ConfigAppField}
    (hrole : app.role field = false) :
    Config.mergeApp .default app field = .default := by
  obtain ⟨java, javaHooks, ⟨enabled, kernel, zygisk⟩, appHiding, ports, portPolicy, hidden⟩ := app
  cases field with
  | java =>
    obtain rfl : java = false := hrole
    obtain rfl := h.java rfl
    rfl
  | native =>
    obtain rfl : enabled = false := hrole
    obtain ⟨rfl, rfl⟩ := h.native rfl
    rfl
  | appHiding =>
    obtain rfl : appHiding = false := hrole
    rfl
  | ports =>
    obtain rfl : ports = false := hrole
    obtain rfl := h.ports rfl
    rfl
  | hidden =>
    obtain rfl : hidden = false := hrole
    rfl

/-- Different roles can be set in any order. -/
theorem mergeApp_comm {field field' : ConfigAppField} (h : field ≠ field')
    (value value' : AppConfig) :
    mergeApp (mergeApp app value field) value' field' =
      mergeApp (mergeApp app value' field') value field := by
  cases field <;> cases field' <;> first | rfl | exact absurd rfl h

theorem CleanApps.appOf (h : CleanApps apps) (pkg : Str) : (appOf apps pkg).Clean := by
  rw [Config.appOf]
  cases happ : apps[pkg]? with
  | none => exact AppConfig.clean_default
  | some a => exact (h pkg a happ).2

/-- What an app is put for. -/
theorem getElem?_putApp (apps : StrMap AppConfig) (pkg : Str) (app : AppConfig) (k : Str) :
    (putApp apps pkg app)[k]? = if pkg = k then (if app.hasAnyRole then some app else none)
      else apps[k]? := by
  rw [putApp]
  split_ifs with hrole heq heq
  · rw [heq]
    exact Std.ExtTreeMap.getElem?_insert_self
  · exact getElem?_insert_of_ne heq app
  · rw [heq]
    exact Std.ExtTreeMap.getElem?_erase_self
  · rw [Std.ExtTreeMap.getElem?_erase, if_neg (by simpa using heq)]

/-- A clean app is there after it was put. -/
theorem appOf_putApp_self (h : app.Clean) : appOf (putApp apps pkg app) pkg = app := by
  rw [appOf, getElem?_putApp, if_pos rfl]
  split_ifs with hrole
  · rfl
  · exact (h.eq_default (Bool.eq_false_iff.2 hrole)).symm

/-- Putting an app leaves the other ones alone. -/
theorem appOf_putApp_of_ne (h : pkg ≠ pkg') :
    appOf (putApp apps pkg app) pkg' = appOf apps pkg' := by
  rw [appOf, getElem?_putApp, if_neg h, appOf]

/-- Different apps can be put in any order. -/
theorem putApp_comm (h : pkg ≠ pkg') :
    putApp (putApp apps pkg app) pkg' app' = putApp (putApp apps pkg' app') pkg app := by
  refine Std.ExtTreeMap.ext_getElem? fun k => ?_
  simp only [getElem?_putApp]
  by_cases hk : pkg = k
  · have hk' : pkg' ≠ k := fun hk' => h (hk.trans hk'.symm)
    rw [if_neg hk', if_pos hk, if_pos hk]
  · rw [if_neg hk, if_neg hk]

/-- Of two apps that are put for a package, the last one stays. -/
theorem putApp_putApp : putApp (putApp apps pkg app) pkg app' = putApp apps pkg app' := by
  refine Std.ExtTreeMap.ext_getElem? fun k => ?_
  simp only [getElem?_putApp]
  by_cases hk : pkg = k
  · rw [if_pos hk, if_pos hk]
  · rw [if_neg hk, if_neg hk, if_neg hk]

/-- Putting a clean app keeps the apps clean. -/
theorem CleanApps.putApp (h : CleanApps apps) (happ : app.Clean) :
    CleanApps (putApp apps pkg app) := by
  intro k a hk
  rw [getElem?_putApp] at hk
  split_ifs at hk with heq hrole
  · obtain rfl := Option.some.inj hk
    exact ⟨hrole, happ⟩
  · exact h k a hk

end Apps

/-! ## Fields -/

/-- The fields of a config that have a path. -/
inductive Field
  | toggle (field : ConfigToggle)
  | set (field : ConfigSetField)
  | app (pkg : Str) (field : ConfigAppField)

/-- The path of a field. -/
def Field.path : Field → Str
  | toggle field => togglePath field
  | set field => setFieldPath field
  | app pkg field => appFieldPath pkg field

/-- Where a switch stands. -/
def toggleValue (config : CanonicalConfig) : ConfigToggle → Bool
  | .filesystem => config.settings.optionalFeatures.contains filesystemFeature
  | .debug => config.debug
  | .debugSwitch => config.debugSwitch
  | .rememberSuperkey => config.settings.rememberSuperkey
  | .autoHideServices => config.settings.autoHideVpnServices
  | .autoHideName => config.settings.autoHideVpnName

/-- What is in a set. -/
def setValue (config : CanonicalConfig) : ConfigSetField → StrSet
  | .optionalFeatures => config.settings.optionalFeatures
  | .autoHideExcludedPackages => config.settings.autoHideExcludedPackages
  | .autoHiddenPackages => config.settings.autoHiddenPackages

/-- Two configs have the same value of a field; for a role of an app, with its overrides. -/
def Field.Agree (c d : CanonicalConfig) : Field → Prop
  | toggle field => toggleValue c field = toggleValue d field
  | set field => setValue c field = setValue d field
  | app pkg field =>
    mergeApp .default (appOf c.apps pkg) field = mergeApp .default (appOf d.apps pkg) field

/-! ## Overlapping paths -/

/-- The segments of a path that is put together. -/
theorem segments_append (a b : Str) : segments (a ++ '/' :: b) = segments a ++ segments b := by
  rw [segments, List.splitOn_append_cons_self, List.filter_append]
  rfl

/-- A path whose segments begin another one overlaps it. -/
theorem fieldsOverlap_of_segments {a b : Str} (ha : segments a ≠ [])
    (h : segments a <+: segments b) :
    fieldsOverlap a b = true ∧ fieldsOverlap b a = true := by
  have hb : segments b ≠ [] := by
    intro hb
    rw [hb, List.prefix_nil] at h
    exact ha h
  have hpre : (segments a).isPrefixOf (segments b) = true := List.isPrefixOf_iff_prefix.2 h
  rw [fieldsOverlap, fieldsOverlap, if_neg (by simp [ha, hb]), if_neg (by simp [ha, hb]), hpre]
  simp

/-- The segments of the path of an app. -/
theorem segments_appPath (pkg : Str) : segments (appPath pkg) = "apps".toList :: segments pkg := by
  have hslash : "apps/".toList = "apps".toList ++ ['/'] := by decide
  have h : appPath pkg = "apps".toList ++ '/' :: pkg :=
    (congrArg (· ++ pkg) hslash).trans (List.append_assoc _ _ _)
  have happs : segments "apps".toList = ["apps".toList] := by decide
  rw [h, segments_append, happs]
  rfl

/-- The segments of the path of a role. -/
theorem segments_appFieldPath (pkg : Str) (field : ConfigAppField) :
    segments (appFieldPath pkg field) = "apps".toList ::
      (segments pkg ++ [appFieldSegment field]) := by
  have hfield : segments (appFieldSegment field) = [appFieldSegment field] := by
    cases field <;> decide
  rw [appFieldPath, segments_append, segments_appPath, hfield, List.cons_append]

theorem fieldsOverlap_self {a : Str} (ha : segments a ≠ []) : fieldsOverlap a a = true :=
  (fieldsOverlap_of_segments ha (List.prefix_refl _)).1

/-- Writing an app overlaps with writing one of its roles. -/
theorem fieldsOverlap_app (pkg : Str) (field : ConfigAppField) :
    fieldsOverlap (appPath pkg) (appFieldPath pkg field) = true ∧
      fieldsOverlap (appFieldPath pkg field) (appPath pkg) = true := by
  refine fieldsOverlap_of_segments (by simp [segments_appPath]) ?_
  rw [segments_appPath, segments_appFieldPath]
  exact ⟨[appFieldSegment field], by simp⟩

/-- The broad domains of a replacement. -/
def broadPaths : List Str :=
  ["apps".toList, "settings".toList, "debug".toList, "debugSwitch".toList]

/-- Every path of an app overlaps a broad one. -/
theorem exists_broad_app {path : Str} (h : ∃ t, segments path = "apps".toList :: t) :
    ∃ b ∈ broadPaths, fieldsOverlap path b = true := by
  obtain ⟨t, h⟩ := h
  have happs : segments "apps".toList = ["apps".toList] := by decide
  refine ⟨"apps".toList, by simp [broadPaths], (fieldsOverlap_of_segments (by decide) ?_).2⟩
  rw [h, happs]
  exact ⟨t, rfl⟩

/-- Every field lies in a broad domain. -/
theorem Field.exists_broad (f : Field) : ∃ b ∈ broadPaths, fieldsOverlap f.path b = true := by
  cases f with
  | toggle field => cases field <;> decide
  | set field => cases field <;> decide
  | app pkg field => exact exists_broad_app ⟨_, segments_appFieldPath pkg field⟩

/-! ## Frame -/

/-- An edit of a role puts an app. -/
theorem applyCanonicalEdit_app (config : CanonicalConfig) (pkg : Str) (field : ConfigAppField)
    (value : AppConfig) :
    applyCanonicalEdit config (.app pkg field value) =
      { config with apps := putApp config.apps pkg (mergeApp (appOf config.apps pkg) value field)
        } := by
  rw [applyCanonicalEdit, putApp, appOf]
  split_ifs <;> rfl

/-- A removal erases an app. -/
theorem applyCanonicalEdit_removeApp (config : CanonicalConfig) (pkg : Str) :
    applyCanonicalEdit config (.removeApp pkg) =
      { config with apps := putApp config.apps pkg .default } := by
  rw [applyCanonicalEdit]
  rfl

/-- Writing a role of an app leaves its other roles, even if the app is dropped. -/
theorem mergeApp_putApp_of_ne {apps : StrMap AppConfig} (h : CleanApps apps) (pkg : Str)
    (value : AppConfig) {field field' : ConfigAppField} (hne : field ≠ field') :
    mergeApp .default (appOf (putApp apps pkg (mergeApp (appOf apps pkg) value field)) pkg) field' =
      mergeApp .default (appOf apps pkg) field' := by
  rw [appOf, getElem?_putApp, if_pos rfl]
  have hkeep : mergeApp .default (mergeApp (appOf apps pkg) value field) field' =
      mergeApp .default (appOf apps pkg) field' := by
    cases field <;> cases field' <;> first | rfl | exact absurd rfl hne
  split_ifs with hrole
  · exact hkeep
  · -- The app is dropped: its other roles were off, and hence without overrides.
    have hoff : (appOf apps pkg).role field' = false := by
      rw [← AppConfig.role_mergeApp_of_ne value hne]
      exact AppConfig.role_eq_false (Bool.eq_false_iff.2 hrole) field'
    rw [(h.appOf pkg).mergeApp_default hoff]
    cases field' <;> rfl

/-- An edit of its own changes no field that does not overlap with what it writes. -/
theorem apply_frame {config : CanonicalConfig} (h : CleanApps config.apps) {edit : ConfigEdit}
    (hsingle : ∀ edits, edit ≠ .batch edits) {f : Field}
    (hf : ∀ path ∈ writeSet edit, fieldsOverlap f.path path = false) :
    f.Agree config (applyCanonicalEdit config edit) := by
  -- By the field that is written, and then by the field that is looked at.
  cases edit with
  | batch edits => exact absurd rfl (hsingle edits)
  | toggle field enabled =>
    have hpath : fieldsOverlap f.path (togglePath field) = false := hf _ (by simp [writeSet])
    rw [applyCanonicalEdit]
    cases f with
    | toggle g =>
      rw [Field.path] at hpath
      cases field <;> cases g <;> first | rfl | exact absurd hpath (by decide)
    | set g =>
      rw [Field.path] at hpath
      cases field <;> cases g <;> first | rfl | exact absurd hpath (by decide)
    | app pkg g => cases field <;> rfl
  | settingSet field values =>
    have hpath : fieldsOverlap f.path (setFieldPath field) = false := hf _ (by simp [writeSet])
    rw [applyCanonicalEdit]
    cases f with
    | toggle g =>
      rw [Field.path] at hpath
      cases field <;> cases g <;> first | rfl | exact absurd hpath (by decide)
    | set g =>
      rw [Field.path] at hpath
      cases field <;> cases g <;> first | rfl | exact absurd hpath (by decide)
    | app pkg g => cases field <;> rfl
  | app pkg field value =>
    have hpath : fieldsOverlap f.path (appFieldPath pkg field) = false := hf _ (by simp [writeSet])
    rw [applyCanonicalEdit_app]
    cases f with
    | toggle g => cases g <;> rfl
    | set g => cases g <;> rfl
    | app pkg' g =>
      rw [Field.Agree]
      dsimp only
      -- Fields of one package are compared by their names, and those of two do not overlap.
      by_cases hpkg : pkg = pkg'
      · subst hpkg
        have hne : field ≠ g := by
          rintro rfl
          rw [Field.path, fieldsOverlap_self (by simp [segments_appFieldPath])] at hpath
          exact absurd hpath (by decide)
        rw [mergeApp_putApp_of_ne h pkg value hne]
      · rw [appOf_putApp_of_ne hpkg]
  | removeApp pkg =>
    have hpath : fieldsOverlap f.path (appPath pkg) = false := hf _ (by simp [writeSet])
    rw [applyCanonicalEdit_removeApp]
    cases f with
    | toggle g => cases g <;> rfl
    | set g => cases g <;> rfl
    | app pkg' g =>
      rw [Field.Agree]
      dsimp only
      by_cases hpkg : pkg = pkg'
      · subst hpkg
        rw [Field.path, (fieldsOverlap_app pkg g).2] at hpath
        exact absurd hpath (by decide)
      · rw [appOf_putApp_of_ne hpkg]
  | replace config' =>
    obtain ⟨b, hb, hover⟩ := f.exists_broad
    rw [hf b (by simpa [writeSet, broadPaths] using hb)] at hover
    exact absurd hover (by decide)
  | repairActivation =>
    rw [applyCanonicalEdit]
    cases f <;> rfl

/-! ## Commuting edits -/

/-- An edit of some fields. -/
def ConfigEdit.IsField : ConfigEdit → Prop
  | .toggle _ _ => True
  | .settingSet _ _ => True
  | .app _ _ _ => True
  | .removeApp _ => True
  | _ => False

/-- The edits of a batch, or the edit itself. -/
def ConfigEdit.parts : ConfigEdit → List ConfigEdit
  | .batch edits => edits
  | edit => [edit]

/-- The value of a role carries no overrides if the role is off. -/
def ConfigEdit.CleanValue : ConfigEdit → Prop
  | .app _ _ value => value.Clean
  | _ => True

/-- Two edits write paths that do not overlap. -/
def Disjoint (e₁ e₂ : ConfigEdit) : Prop :=
  ∀ a ∈ writeSet e₁, ∀ b ∈ writeSet e₂, fieldsOverlap a b = false

section Commute

variable {config : CanonicalConfig} {e e₁ e₂ : ConfigEdit}

/-- Overlap goes both ways. -/
theorem fieldsOverlap_comm (a b : Str) : fieldsOverlap a b = fieldsOverlap b a := by
  rw [fieldsOverlap, fieldsOverlap, Bool.or_comm]
  simp only [or_comm]

theorem Disjoint.symm (h : Disjoint e₁ e₂) : Disjoint e₂ e₁ :=
  fun a ha b hb => (fieldsOverlap_comm a b).trans (h b hb a ha)

/-- An edit of a field keeps the apps clean. -/
theorem cleanApps_apply (h : CleanApps config.apps) (hfield : e.IsField) (hclean : e.CleanValue) :
    CleanApps (applyCanonicalEdit config e).apps := by
  cases e with
  | batch edits => exact hfield.elim
  | toggle field enabled =>
    rw [applyCanonicalEdit]
    cases field <;> exact h
  | settingSet field values =>
    rw [applyCanonicalEdit]
    cases field <;> exact h
  | app pkg field value =>
    rw [applyCanonicalEdit_app]
    exact h.putApp ((h.appOf pkg).mergeApp hclean field)
  | removeApp pkg =>
    rw [applyCanonicalEdit_removeApp]
    exact h.putApp AppConfig.clean_default
  | replace config' => exact hfield.elim
  | repairActivation => exact hfield.elim

/-- What an edit of the apps does to them. -/
def editApps : ConfigEdit → StrMap AppConfig → StrMap AppConfig
  | .app pkg field value, apps => putApp apps pkg (mergeApp (appOf apps pkg) value field)
  | .removeApp pkg, apps => putApp apps pkg .default
  | _, apps => apps

/-- What an edit of the rest does to it. -/
def editRest : ConfigEdit → CanonicalConfig → CanonicalConfig
  | .toggle field enabled, config => applyToggle config field enabled
  | .settingSet field values, config => applySet config field values
  | _, config => config

/-- The config with other apps. -/
def CanonicalConfig.withApps (config : CanonicalConfig) (apps : StrMap AppConfig) :
    CanonicalConfig :=
  { config with apps := apps }

/-- What is done beside the apps does not depend on them. -/
theorem editRest_withApps (e : ConfigEdit) (config : CanonicalConfig) (apps : StrMap AppConfig) :
    editRest e (config.withApps apps) = (editRest e config).withApps apps := by
  cases e with
  | toggle field enabled => cases field <;> rfl
  | settingSet field values => cases field <;> rfl
  | _ => rfl

/-- A field edit changes the apps and the rest, each on its own. -/
theorem apply_eq (hfield : e.IsField) (config : CanonicalConfig) :
    applyCanonicalEdit config e = (editRest e config).withApps (editApps e config.apps) := by
  cases e with
  | batch _ => exact hfield.elim
  | toggle field enabled =>
    rw [applyCanonicalEdit]
    cases field <;> rfl
  | settingSet field values =>
    rw [applyCanonicalEdit]
    cases field <;> rfl
  | app pkg field value => exact applyCanonicalEdit_app config pkg field value
  | removeApp pkg => exact applyCanonicalEdit_removeApp config pkg
  | replace _ => exact hfield.elim
  | repairActivation => exact hfield.elim

/-- What is done beside the apps commutes. -/
theorem editRest_comm (hdisjoint : Disjoint e₁ e₂) (config : CanonicalConfig) :
    editRest e₂ (editRest e₁ config) = editRest e₁ (editRest e₂ config) := by
  cases e₁ with
  | toggle f x =>
    cases e₂ with
    | toggle g y =>
      have hpath := hdisjoint _ (List.mem_singleton.2 rfl) _ (List.mem_singleton.2 rfl)
      cases f <;> cases g <;> first | rfl | exact absurd hpath (by decide)
    | settingSet g y =>
      have hpath := hdisjoint _ (List.mem_singleton.2 rfl) _ (List.mem_singleton.2 rfl)
      cases f <;> cases g <;> first | rfl | exact absurd hpath (by decide)
    | _ => rfl
  | settingSet f x =>
    cases e₂ with
    | toggle g y =>
      have hpath := hdisjoint _ (List.mem_singleton.2 rfl) _ (List.mem_singleton.2 rfl)
      cases f <;> cases g <;> first | rfl | exact absurd hpath (by decide)
    | settingSet g y =>
      have hpath := hdisjoint _ (List.mem_singleton.2 rfl) _ (List.mem_singleton.2 rfl)
      cases f <;> cases g <;> first | rfl | exact absurd hpath (by decide)
    | _ => rfl
  | _ => rfl

/-- What is done to the apps commutes. -/
theorem editApps_comm {apps : StrMap AppConfig} (h : CleanApps apps) (hclean₁ : e₁.CleanValue)
    (hclean₂ : e₂.CleanValue) (hdisjoint : Disjoint e₁ e₂) :
    editApps e₂ (editApps e₁ apps) = editApps e₁ (editApps e₂ apps) := by
  -- Only edits of apps meet here, and they are disjoint: two fields of one package, or two
  -- packages.
  cases e₁ with
  | app pkg field value =>
    cases e₂ with
    | app pkg' field' value' =>
      by_cases hpkg : pkg = pkg'
      · subst hpkg
        have hne : field ≠ field' := by
          rintro rfl
          have hpath := hdisjoint _ (List.mem_singleton.2 rfl) _ (List.mem_singleton.2 rfl)
          rw [fieldsOverlap_self (by simp [segments_appFieldPath])] at hpath
          exact absurd hpath (by decide)
        simp only [editApps]
        rw [appOf_putApp_self ((h.appOf pkg).mergeApp hclean₁ field),
          appOf_putApp_self ((h.appOf pkg).mergeApp hclean₂ field'), putApp_putApp, putApp_putApp,
          mergeApp_comm hne]
      · simp only [editApps]
        rw [appOf_putApp_of_ne hpkg, appOf_putApp_of_ne (Ne.symm hpkg), putApp_comm hpkg]
    | removeApp pkg' =>
      have hpkg : pkg ≠ pkg' := by
        rintro rfl
        have hpath := hdisjoint _ (List.mem_singleton.2 rfl) _ (List.mem_singleton.2 rfl)
        rw [(fieldsOverlap_app pkg field).2] at hpath
        exact absurd hpath (by decide)
      simp only [editApps]
      rw [appOf_putApp_of_ne (Ne.symm hpkg), putApp_comm hpkg]
    | _ => rfl
  | removeApp pkg =>
    cases e₂ with
    | app pkg' field' value' =>
      have hpkg : pkg ≠ pkg' := by
        rintro rfl
        have hpath := hdisjoint _ (List.mem_singleton.2 rfl) _ (List.mem_singleton.2 rfl)
        rw [(fieldsOverlap_app pkg field').1] at hpath
        exact absurd hpath (by decide)
      simp only [editApps]
      rw [appOf_putApp_of_ne hpkg, putApp_comm hpkg]
    | removeApp pkg' =>
      by_cases hpkg : pkg = pkg'
      · subst hpkg
        rfl
      · exact putApp_comm hpkg
    | _ => rfl
  | _ => rfl

/-- Two field edits that do not overlap commute. -/
theorem apply_comm_field (h : CleanApps config.apps) (hfield₁ : e₁.IsField) (hfield₂ : e₂.IsField)
    (hclean₁ : e₁.CleanValue) (hclean₂ : e₂.CleanValue) (hdisjoint : Disjoint e₁ e₂) :
    applyCanonicalEdit (applyCanonicalEdit config e₁) e₂ =
      applyCanonicalEdit (applyCanonicalEdit config e₂) e₁ := by
  simp only [apply_eq hfield₁, apply_eq hfield₂, editRest_withApps]
  rw [editRest_comm hdisjoint]
  exact congrArg _ (editApps_comm h hclean₁ hclean₂ hdisjoint)

/-! Batches go edit by edit. -/

/-- An edit is its parts, one after the other. -/
theorem applyCanonicalEdit_parts (config : CanonicalConfig) (e : ConfigEdit) :
    applyCanonicalEdit config e = applyCanonicalEdits config e.parts := by
  cases e with
  | batch edits => rw [applyCanonicalEdit]; rfl
  | _ => simp only [ConfigEdit.parts, applyCanonicalEdits]

/-- The paths of several edits. -/
theorem mem_writeSets {edits : List ConfigEdit} {path : Str} :
    path ∈ writeSets edits ↔ ∃ e ∈ edits, path ∈ writeSet e := by
  induction edits with
  | nil => simp [writeSets]
  | cons e edits ih =>
    rw [writeSets, Std.ExtTreeSet.mem_insertMany_list, ih]
    simp [or_comm]

/-- The paths of a part are among those of the edit. -/
theorem mem_writeSet_of_parts {path : Str} {part : ConfigEdit} (hpart : part ∈ e.parts)
    (hpath : path ∈ writeSet part) : path ∈ writeSet e := by
  cases e with
  | batch edits =>
    rw [writeSet, Std.ExtTreeSet.mem_toList, mem_writeSets]
    exact ⟨part, hpart, hpath⟩
  | _ => exact List.mem_singleton.1 hpart ▸ hpath

/-- An edit commutes with a list of others. -/
theorem apply_comm_edits (h : CleanApps config.apps) (hfield : e.IsField) (hclean : e.CleanValue)
    {edits : List ConfigEdit} (hedits : ∀ x ∈ edits, x.IsField ∧ x.CleanValue ∧ Disjoint e x) :
    applyCanonicalEdits (applyCanonicalEdit config e) edits =
      applyCanonicalEdit (applyCanonicalEdits config edits) e := by
  induction edits generalizing config with
  | nil => simp only [applyCanonicalEdits]
  | cons x edits ih =>
    obtain ⟨hx, hxclean, hxdisjoint⟩ := hedits x List.mem_cons_self
    simp only [applyCanonicalEdits]
    rw [apply_comm_field h hfield hx hclean hxclean hxdisjoint,
      ih (cleanApps_apply h hx hxclean) fun y hy => hedits y (List.mem_cons_of_mem _ hy)]

/-- Lists of edits commute. -/
theorem applyCanonicalEdits_comm (h : CleanApps config.apps) {es fs : List ConfigEdit}
    (hes : ∀ x ∈ es, x.IsField ∧ x.CleanValue) (hfs : ∀ y ∈ fs, y.IsField ∧ y.CleanValue)
    (hdisjoint : ∀ x ∈ es, ∀ y ∈ fs, Disjoint x y) :
    applyCanonicalEdits (applyCanonicalEdits config es) fs =
      applyCanonicalEdits (applyCanonicalEdits config fs) es := by
  induction es generalizing config with
  | nil => simp only [applyCanonicalEdits]
  | cons x es ih =>
    obtain ⟨hx, hxclean⟩ := hes x List.mem_cons_self
    simp only [applyCanonicalEdits]
    rw [ih (cleanApps_apply h hx hxclean) (fun y hy => hes y (List.mem_cons_of_mem _ hy))
      fun y hy => hdisjoint y (List.mem_cons_of_mem _ hy)]
    rw [apply_comm_edits h hx hxclean fun y hy =>
      ⟨(hfs y hy).1, (hfs y hy).2, hdisjoint x List.mem_cons_self y hy⟩]

/-- A valid edit is made of field edits, or is a command of its own. -/
theorem isField_of_validateEdit (hvalid : validateEdit e = .ok ()) :
    (∀ x ∈ e.parts, x.IsField) ∨ (∃ c, e = .replace c) ∨ e = .repairActivation := by
  cases e with
  | batch edits =>
    refine .inl fun x hx => ?_
    rw [validateEdit] at hvalid
    split_ifs at hvalid with hlen hany
    rw [Bool.not_eq_true, List.any_eq_false] at hany
    have hx' := hany x hx
    cases x with
    | batch _ => exact absurd rfl hx'
    | replace _ => exact absurd rfl hx'
    | repairActivation => exact absurd rfl hx'
    | toggle _ _ => trivial
    | settingSet _ _ => trivial
    | app _ _ _ => trivial
    | removeApp _ => trivial
  | replace c => exact .inr (.inl ⟨c, rfl⟩)
  | repairActivation => exact .inr (.inr rfl)
  | _ => exact .inl (List.forall_mem_singleton.2 trivial)

/-- A field edit writes something, in a broad domain. -/
theorem ConfigEdit.IsField.exists_broad (hfield : e.IsField) :
    ∃ path ∈ writeSet e, ∃ b ∈ broadPaths, fieldsOverlap path b = true := by
  cases e with
  | toggle field enabled => exact ⟨_, List.mem_singleton.2 rfl, (Field.toggle field).exists_broad⟩
  | settingSet field values => exact ⟨_, List.mem_singleton.2 rfl, (Field.set field).exists_broad⟩
  | app pkg field value => exact ⟨_, List.mem_singleton.2 rfl, (Field.app pkg field).exists_broad⟩
  | removeApp pkg => exact ⟨_, List.mem_singleton.2 rfl, exists_broad_app ⟨_, segments_appPath pkg⟩⟩
  | batch _ => exact hfield.elim
  | replace _ => exact hfield.elim
  | repairActivation => exact hfield.elim

/-- Only what does nothing does not overlap with a replacement. -/
theorem apply_eq_self_of_disjoint {c : CanonicalConfig} (hvalid : validateEdit e = .ok ())
    (hdisjoint : Disjoint e (.replace c)) (config : CanonicalConfig) :
    applyCanonicalEdit config e = config := by
  have hbroad : ∀ {path}, path ∈ writeSet e → ∀ b ∈ broadPaths, fieldsOverlap path b = false :=
    fun hpath b hb => hdisjoint _ hpath b (by simpa [writeSet, broadPaths] using hb)
  rcases isField_of_validateEdit hvalid with hparts | ⟨c', rfl⟩ | rfl
  · have hnil : e.parts = [] := by
      refine List.eq_nil_iff_forall_not_mem.2 fun x hx => ?_
      obtain ⟨path, hpath, b, hb, hover⟩ := (hparts x hx).exists_broad
      rw [hbroad (mem_writeSet_of_parts hx hpath) b hb] at hover
      exact absurd hover (by decide)
    rw [applyCanonicalEdit_parts, hnil, applyCanonicalEdits]
  · have hself :=
      hbroad (List.mem_cons_self : "apps".toList ∈ writeSet (.replace c')) _ List.mem_cons_self
    exact absurd hself (by decide)
  · rw [applyCanonicalEdit]

/-- Edits that do not overlap commute. -/
theorem apply_comm (h : CleanApps config.apps) (hvalid₁ : validateEdit e₁ = .ok ())
    (hvalid₂ : validateEdit e₂ = .ok ()) (hclean₁ : ∀ x ∈ e₁.parts, x.CleanValue)
    (hclean₂ : ∀ x ∈ e₂.parts, x.CleanValue) (hdisjoint : Disjoint e₁ e₂) :
    applyCanonicalEdit (applyCanonicalEdit config e₁) e₂ =
      applyCanonicalEdit (applyCanonicalEdit config e₂) e₁ := by
  have hrepair : ∀ c, applyCanonicalEdit c .repairActivation = c :=
    fun c => by rw [applyCanonicalEdit]
  rcases isField_of_validateEdit hvalid₁ with hparts₁ | ⟨c, rfl⟩ | rfl
  · rcases isField_of_validateEdit hvalid₂ with hparts₂ | ⟨c, rfl⟩ | rfl
    · simp only [applyCanonicalEdit_parts]
      refine applyCanonicalEdits_comm h (fun x hx => ⟨hparts₁ x hx, hclean₁ x hx⟩)
        (fun y hy => ⟨hparts₂ y hy, hclean₂ y hy⟩) fun x hx y hy a ha b hb => ?_
      exact hdisjoint a (mem_writeSet_of_parts hx ha) b (mem_writeSet_of_parts hy hb)
    · rw [apply_eq_self_of_disjoint hvalid₁ hdisjoint, apply_eq_self_of_disjoint hvalid₁ hdisjoint]
    · rw [hrepair, hrepair]
  · rw [apply_eq_self_of_disjoint hvalid₂ hdisjoint.symm,
      apply_eq_self_of_disjoint hvalid₂ hdisjoint.symm]
  · rw [hrepair, hrepair]

end Commute

/-- On a canonical config, edits that do not overlap commute, and an edit of its own changes
    only fields whose paths overlap with those it writes. -/
theorem edits_local (config : CanonicalConfig) (h : CleanApps config.apps) :
    (∀ e₁ e₂, validateEdit e₁ = .ok () → validateEdit e₂ = .ok () → (∀ x ∈ e₁.parts, x.CleanValue) →
      (∀ x ∈ e₂.parts, x.CleanValue) →
      (∀ a ∈ writeSet e₁, ∀ b ∈ writeSet e₂, fieldsOverlap a b = false) →
      applyCanonicalEdit (applyCanonicalEdit config e₁) e₂ =
        applyCanonicalEdit (applyCanonicalEdit config e₂) e₁) ∧
    (∀ e, (∀ edits, e ≠ .batch edits) →
      (∀ f : Field, (∀ path ∈ writeSet e, fieldsOverlap f.path path = false) →
        f.Agree config (applyCanonicalEdit config e)) ∧
      ((∀ c, e ≠ .replace c) → (applyCanonicalEdit config e).version = config.version)) := by
  refine ⟨fun e₁ e₂ hv₁ hv₂ hc₁ hc₂ hd => apply_comm h hv₁ hv₂ hc₁ hc₂ hd,
    fun e hsingle => ⟨fun f hf => apply_frame h hsingle hf, fun hreplace => ?_⟩⟩
  -- No edit but a replacement writes the version, which has no path.
  cases e with
  | batch edits => exact absurd rfl (hsingle edits)
  | toggle field enabled =>
    rw [applyCanonicalEdit]
    cases field <;> rfl
  | settingSet field values =>
    rw [applyCanonicalEdit]
    cases field <;> rfl
  | app pkg field value => rw [applyCanonicalEdit_app]
  | removeApp pkg => rw [applyCanonicalEdit_removeApp]
  | replace c => exact absurd rfl (hreplace c)
  | repairActivation => rw [applyCanonicalEdit]

theorem cleanApps_empty : CleanApps ∅ := by
  intro pkg app h
  rw [Std.ExtTreeMap.getElem?_empty] at h
  exact absurd h nofun

/-- Dropping the last role of an app and giving it another one, in either order. -/
theorem edits_local_roles :
    applyCanonicalEdit
      (applyCanonicalEdit .default (.app ['a'] .hidden { AppConfig.default with hidden := true }))
        (.app ['a'] .java .default) =
      applyCanonicalEdit (applyCanonicalEdit .default (.app ['a'] .java .default))
        (.app ['a'] .hidden { AppConfig.default with hidden := true }) :=
  (edits_local .default cleanApps_empty).1 _ _ rfl rfl
    (List.forall_mem_singleton.2 ⟨fun _ => rfl, fun _ => ⟨rfl, rfl⟩, fun _ => rfl⟩)
    (List.forall_mem_singleton.2 AppConfig.clean_default) (by decide)

end VpnHide.Config

import VpnHide.Config.CanonicalRoundTrip
import VpnHide.Config.Edit

/-!
# The difference of two configs

`diff_fields` of `crates/core-rpc/src/config_edit.rs`: the edits that lead from one config to
another, field by field. They are meant for a config that has changed in the meantime, and
leave alone what they are not about.

An edit of the difference writes one field, and writes it as it is desired (`fieldEdit`). On a
canonical config it keeps all others, even if the app is dropped on the way, so that after the
whole batch every field of the difference is as desired and the others are as they were
(`agree_applyCanonicalEdits`). The filesystem toggle is no field of its own here: it is part of
the set of optional features.
-/

namespace VpnHide.Config

open Lib

/-! ## The difference -/

/-- The switches that a difference is looked for in. -/
def diffToggles : List ConfigToggle :=
  [.debug, .debugSwitch, .rememberSuperkey, .autoHideServices, .autoHideName]

/-- The sets that a difference is looked for in. -/
def diffSets : List ConfigSetField :=
  [.optionalFeatures, .autoHideExcludedPackages, .autoHiddenPackages]

/-- The roles that a difference is looked for in. -/
def appFields : List ConfigAppField := [.java, .native, .appHiding, .ports, .hidden]

/-- The packages of two configs, each once and in order. -/
def packagesOf (base desired : CanonicalConfig) : List Str :=
  ((∅ : StrSet).insertMany (base.apps.keys ++ desired.apps.keys)).toList

/-- `diff_fields`: the edits that turn one config into another, one for each field. -/
def diffFields (base desired : CanonicalConfig) : List ConfigEdit :=
  (diffToggles.filterMap fun field =>
    let enabled := toggleValue desired field
    if toggleValue base field ≠ enabled then some (.toggle field enabled) else none) ++
  (diffSets.filterMap fun field =>
    let values := setValue desired field
    if setValue base field ≠ values then some (.settingSet field values) else none) ++
  (packagesOf base desired).flatMap fun pkg =>
    let previous := (base.apps[pkg]?).getD AppConfig.default
    let app := (desired.apps[pkg]?).getD AppConfig.default
    appFields.filterMap fun field =>
      if mergeApp previous app field ≠ previous then some (.app pkg field app) else none

/-! ## Fields of a difference -/

/-- A field that a difference can be about. -/
def Field.Plain (f : Field) : Prop := f ≠ .toggle .filesystem

/-- The edit that writes a field as in a config. -/
def fieldEdit (desired : CanonicalConfig) : Field → ConfigEdit
  | .toggle field => .toggle field (toggleValue desired field)
  | .set field => .settingSet field (setValue desired field)
  | .app pkg field => .app pkg field (appOf desired.apps pkg)

instance (c d : CanonicalConfig) (f : Field) : Decidable (f.Agree c d) := by
  cases f <;> exact inferInstanceAs (Decidable (_ = _))

/-- All fields that two configs may differ in. -/
def fieldsOf (base desired : CanonicalConfig) : List Field :=
  diffToggles.map .toggle ++ diffSets.map .set ++
    (packagesOf base desired).flatMap fun pkg => appFields.map (.app pkg)

section Fields

variable {c d e : CanonicalConfig} {f g : Field} {pkg : Str} {field : ConfigAppField}
  {app app' : AppConfig}

theorem Field.Agree.refl (c : CanonicalConfig) (f : Field) : f.Agree c c := by
  cases f <;> rfl

theorem Field.Agree.trans (h : f.Agree c d) (h' : f.Agree d e) : f.Agree c e := by
  cases f <;> exact Eq.trans h h'

/-- Merging a role changes nothing if the role is the same. -/
theorem mergeApp_eq_self_iff :
    mergeApp app app' field = app ↔ mergeApp .default app field = mergeApp .default app' field := by
  obtain ⟨java, javaHooks, native, appHiding, ports, portPolicy, hidden⟩ := app
  obtain ⟨java', javaHooks', native', appHiding', ports', portPolicy', hidden'⟩ := app'
  cases field <;> simp [mergeApp, eq_comm]

/-- An app is its roles. -/
theorem AppConfig.eq_of_roles
    (h : ∀ field, mergeApp .default app field = mergeApp .default app' field) : app = app' := by
  obtain ⟨java, javaHooks, native, appHiding, ports, portPolicy, hidden⟩ := app
  obtain ⟨java', javaHooks', native', appHiding', ports', portPolicy', hidden'⟩ := app'
  have hjava := h .java
  have hnative := h .native
  have happHiding := h .appHiding
  have hports := h .ports
  have hhidden := h .hidden
  simp only [mergeApp, AppConfig.mk.injEq] at hjava hnative happHiding hports hhidden
  simp only [AppConfig.mk.injEq]
  exact ⟨hjava.1, hjava.2.1, hnative.2.2.1, happHiding.2.2.2.1, hports.2.2.2.2.1,
    hports.2.2.2.2.2.1, hhidden.2.2.2.2.2.2⟩

/-- The packages of either config. -/
theorem mem_packagesOf : pkg ∈ packagesOf c d ↔ (c.apps[pkg]?).isSome ∨ (d.apps[pkg]?).isSome := by
  rw [packagesOf, Std.ExtTreeSet.mem_toList, Std.ExtTreeSet.mem_insertMany_list]
  simp [Std.ExtTreeMap.mem_keys]

/-- What is not among the fields is the same in both configs. -/
theorem agree_of_notMem (hplain : f.Plain) (hf : f ∉ fieldsOf c d) : f.Agree c d := by
  simp only [fieldsOf, List.mem_append, not_or] at hf
  cases f with
  | toggle t =>
    refine absurd (List.mem_map_of_mem ?_) hf.1.1
    cases t with
    | filesystem => exact absurd rfl hplain
    | _ => decide
  | set s =>
    refine absurd (List.mem_map_of_mem ?_) hf.1.2
    cases s <;> decide
  | app pkg field =>
    have hpkg : pkg ∉ packagesOf c d := by
      intro hmem
      refine hf.2 (List.mem_flatMap.2 ⟨pkg, hmem, List.mem_map_of_mem ?_⟩)
      cases field <;> decide
    rw [mem_packagesOf, not_or, Option.not_isSome_iff_eq_none, Option.not_isSome_iff_eq_none]
      at hpkg
    rw [Field.Agree, appOf, appOf, hpkg.1, hpkg.2]

/-- Every difference is one of a field that can be set alone. -/
theorem plain_of_mem (hf : f ∈ fieldsOf c d) : f.Plain := by
  rintro rfl
  simp [fieldsOf, diffToggles] at hf

/-- The difference writes the fields in which the configs differ. -/
theorem diffFields_eq (base desired : CanonicalConfig) :
    diffFields base desired =
      ((fieldsOf base desired).filter fun f => ¬f.Agree base desired).map (fieldEdit desired) := by
  have hpick :
      ∀ {α : Type} (l : List α) (k : α → Field) (e : α → ConfigEdit) (p : α →
        Prop) [DecidablePred p],
      (∀ a, e a = fieldEdit desired (k a)) → (∀ a, p a ↔ ¬(k a).Agree base desired) →
      (l.filterMap fun a => if p a then some (e a) else none) =
        ((l.map k).filter fun f => ¬f.Agree base desired).map (fieldEdit desired) := by
    intro α l k e p _ he hp
    induction l with
    | nil => rfl
    | cons a l ih =>
      rw [List.filterMap_cons, List.map_cons, List.filter_cons]
      by_cases ha : p a
      · have hdiffer := (hp a).1 ha
        simp only [if_pos ha]
        rw [if_pos (by simpa using hdiffer), List.map_cons, ← ih, he]
      · have hagree := mt (hp a).2 ha
        simp only [if_neg ha]
        rw [if_neg (by simpa using hagree), ih]
  unfold diffFields fieldsOf
  rw [List.filter_append, List.filter_append, List.map_append, List.map_append, List.filter_flatMap,
    List.map_flatMap]
  congr 1
  · congr 1
    · exact hpick diffToggles .toggle _ _ (fun _ => rfl) fun _ => Iff.rfl
    · exact hpick diffSets .set _ _ (fun _ => rfl) fun _ => Iff.rfl
  · congr 1
    funext pkg
    refine hpick appFields (.app pkg) _ _ (fun _ => rfl) fun field => not_congr ?_
    exact mergeApp_eq_self_iff

end Fields

/-! ## Applying a difference -/

section Apply

variable {c d : CanonicalConfig} {f g : Field}

/-- The edit of a field writes the field. -/
theorem agree_apply_self (hc : CleanApps c.apps) (hd : CleanApps d.apps) (hg : g.Plain) :
    g.Agree (applyCanonicalEdit c (fieldEdit d g)) d := by
  cases g with
  | toggle t =>
    rw [fieldEdit, applyCanonicalEdit]
    cases t with
    | filesystem => exact absurd rfl hg
    | _ => rfl
  | set s =>
    rw [fieldEdit, applyCanonicalEdit]
    cases s <;> rfl
  | app pkg field =>
    rw [fieldEdit, applyCanonicalEdit_app, Field.Agree]
    dsimp only
    rw [appOf_putApp_self ((hc.appOf pkg).mergeApp (hd.appOf pkg) field)]
    cases field <;> rfl

/-- It leaves the other fields. -/
theorem agree_apply_of_ne (hc : CleanApps c.apps) (hf : f.Plain) (hg : g.Plain) (hne : g ≠ f) :
    f.Agree (applyCanonicalEdit c (fieldEdit d g)) c := by
  cases g with
  | toggle t =>
    rw [fieldEdit, applyCanonicalEdit]
    cases f with
    | toggle u => cases t <;> cases u <;> first | rfl | exact absurd rfl hne
    | set s => cases t <;> first | rfl | exact absurd rfl hg
    | app pkg field => cases t <;> rfl
  | set s =>
    rw [fieldEdit, applyCanonicalEdit]
    cases f with
    | toggle u => cases s <;> cases u <;> first | rfl | exact absurd rfl hf
    | set t => cases s <;> cases t <;> first | rfl | exact absurd rfl hne
    | app pkg field => cases s <;> rfl
  | app pkg field =>
    rw [fieldEdit, applyCanonicalEdit_app]
    cases f with
    | toggle u => cases u <;> rfl
    | set s => cases s <;> rfl
    | app pkg' field' =>
      rw [Field.Agree]
      dsimp only
      by_cases hpkg : pkg = pkg'
      · subst hpkg
        exact mergeApp_putApp_of_ne hc pkg _ fun hfield => hne (by rw [hfield])
      · rw [appOf_putApp_of_ne hpkg]

/-- The apps stay clean. -/
theorem cleanApps_apply_fieldEdit (hc : CleanApps c.apps) (hd : CleanApps d.apps) (g : Field) :
    CleanApps (applyCanonicalEdit c (fieldEdit d g)).apps := by
  cases g with
  | toggle t =>
    rw [fieldEdit, applyCanonicalEdit]
    cases t <;> exact hc
  | set s =>
    rw [fieldEdit, applyCanonicalEdit]
    cases s <;> exact hc
  | app pkg field =>
    rw [fieldEdit, applyCanonicalEdit_app]
    exact hc.putApp ((hc.appOf pkg).mergeApp (hd.appOf pkg) field)

/-- An edit of a field leaves the version alone. -/
theorem version_apply_fieldEdit (c d : CanonicalConfig) (g : Field) :
    (applyCanonicalEdit c (fieldEdit d g)).version = c.version := by
  cases g with
  | toggle t =>
    rw [fieldEdit, applyCanonicalEdit]
    cases t <;> rfl
  | set s =>
    rw [fieldEdit, applyCanonicalEdit]
    cases s <;> rfl
  | app pkg field => rw [fieldEdit, applyCanonicalEdit_app]

/-- After the edits of some fields, these are as desired and the others are as they were. -/
theorem agree_applyCanonicalEdits (hd : CleanApps d.apps) (gs : List Field)
    (hgs : ∀ g ∈ gs, g.Plain) (hc : CleanApps c.apps) :
    let result := applyCanonicalEdits c (gs.map (fieldEdit d))
    result.version = c.version ∧ CleanApps result.apps ∧
      ∀ f : Field, f.Plain → (f ∈ gs → f.Agree result d) ∧ (f ∉ gs → f.Agree result c) := by
  induction gs generalizing c with
  | nil =>
    rw [List.map_nil, applyCanonicalEdits]
    exact ⟨rfl, hc, fun f _ => ⟨fun h => absurd h List.not_mem_nil, fun _ => .refl c f⟩⟩
  | cons g gs ih =>
    have hg : g.Plain := hgs g List.mem_cons_self
    rw [List.map_cons, applyCanonicalEdits]
    obtain ⟨hversion, hclean, hfields⟩ :=
      ih (fun x hx => hgs x (List.mem_cons_of_mem g hx)) (cleanApps_apply_fieldEdit hc hd g)
    refine ⟨hversion.trans (version_apply_fieldEdit c d g), hclean, fun f hf =>
      ⟨fun hmem => ?_, fun hmem => ?_⟩⟩
    · -- the last edit of a field decides, and each of them writes it as desired
      by_cases hlater : f ∈ gs
      · exact (hfields f hf).1 hlater
      · obtain rfl : f = g := (List.mem_cons.1 hmem).resolve_right hlater
        exact ((hfields f hf).2 hlater).trans (agree_apply_self hc hd hf)
    · rw [List.mem_cons, not_or] at hmem
      exact ((hfields f hf).2 hmem.2).trans (agree_apply_of_ne hc hf hg (Ne.symm hmem.1))

/-- Without an app that has no role, the apps are the roles of all packages. -/
theorem apps_eq_of_appOf {apps apps' : StrMap AppConfig} (h : CleanApps apps) (h' : CleanApps apps')
    (heq : ∀ pkg, appOf apps pkg = appOf apps' pkg) : apps = apps' := by
  have hvalue : ∀ {m : StrMap AppConfig}, CleanApps m → ∀ pkg,
      m[pkg]? = if (appOf m pkg).hasAnyRole then some (appOf m pkg) else none := by
    intro m hm pkg
    rw [appOf]
    cases hget : m[pkg]? with
    | none => rfl
    | some app => rw [Option.getD_some, (hm pkg app hget).1, if_pos rfl]
  refine Std.ExtTreeMap.ext_getElem? fun pkg => ?_
  rw [hvalue h, hvalue h', heq]

/-- A canonical config is its version and its fields. -/
theorem eq_of_agree (hc : CleanApps c.apps) (hd : CleanApps d.apps)
    (hversion : c.version = d.version) (h : ∀ f : Field, f.Plain → f.Agree c d) : c = d := by
  have happs : c.apps = d.apps := by
    refine apps_eq_of_appOf hc hd fun pkg => AppConfig.eq_of_roles fun field => ?_
    exact h (.app pkg field) (by simp [Field.Plain])
  have htoggle : ∀ t, t ≠ .filesystem → toggleValue c t = toggleValue d t := fun t ht =>
    h (.toggle t) (by simpa [Field.Plain] using ht)
  have hset : ∀ s, setValue c s = setValue d s := fun s => h (.set s) (by simp [Field.Plain])
  obtain ⟨version, debug, debugSwitch, apps,
      ⟨superkey, features, services, name, excluded, hidden⟩⟩ := c
  obtain ⟨version', debug', debugSwitch', apps',
      ⟨superkey', features', services', name', excluded', hidden'⟩⟩ := d
  obtain rfl : version = version' := hversion
  obtain rfl : apps = apps' := happs
  obtain rfl : debug = debug' := htoggle .debug (by decide)
  obtain rfl : debugSwitch = debugSwitch' := htoggle .debugSwitch (by decide)
  obtain rfl : superkey = superkey' := htoggle .rememberSuperkey (by decide)
  obtain rfl : services = services' := htoggle .autoHideServices (by decide)
  obtain rfl : name = name' := htoggle .autoHideName (by decide)
  obtain rfl : features = features' := hset .optionalFeatures
  obtain rfl : excluded = excluded' := hset .autoHideExcludedPackages
  obtain rfl : hidden = hidden' := hset .autoHiddenPackages
  rfl

/-- In a canonical config no override outlives its role. -/
theorem CanonicalConfig.Shape.cleanApps (h : c.Shape) : CleanApps c.apps := by
  intro pkg app happ
  have hcanonical := h.apps pkg app happ
  have hnone : ∀ {α : Type} {o : Option α} {b : Bool}, (∀ x, o = some x → b = true) →
      b = false → o = none := by
    intro α o b ho hb
    cases o with
    | none => rfl
    | some x =>
      rw [ho x rfl] at hb
      cases hb
  refine ⟨hcanonical.role, ⟨?_, ?_, ?_⟩⟩
  · exact hnone fun hooks hhooks => (hcanonical.java hooks hhooks).1
  · exact fun hoff => ⟨hnone (fun hooks hhooks => (hcanonical.native.kernel hooks hhooks).1) hoff,
      hnone (fun hooks hhooks => (hcanonical.native.zygisk hooks hhooks).1) hoff⟩
  · exact hnone fun policy hpolicy => (hcanonical.policy policy hpolicy).1

end Apply

/-- The difference of two canonical configs leads from one to the other. On any canonical config
    it writes the fields in which they differ, as desired, and keeps the others; two equal
    configs have none. -/
theorem diffFields_patch (base desired : CanonicalConfig) (hbase : base.Shape)
    (hdesired : desired.Shape) (hversion : base.version = desired.version) :
    applyCanonicalEdit base (.batch (diffFields base desired)) = desired ∧
      (∀ fresh : CanonicalConfig, fresh.Shape → ∀ f : Field, f.Plain →
        let result := applyCanonicalEdit fresh (.batch (diffFields base desired))
        (¬f.Agree base desired → f.Agree result desired) ∧
          (f.Agree base desired → f.Agree result fresh)) ∧
      ∀ c, diffFields c c = [] := by
  -- The batch writes just the fields that differ, one after another, whatever the fresh config is.
  have hfields : ∀ fresh : CanonicalConfig, fresh.Shape →
      let result := applyCanonicalEdit fresh (.batch (diffFields base desired))
      result.version = fresh.version ∧ CleanApps result.apps ∧ ∀ f : Field, f.Plain →
        (¬f.Agree base desired → f.Agree result desired) ∧
          (f.Agree base desired → f.Agree result fresh) := by
    intro fresh hfresh
    rw [applyCanonicalEdit, diffFields_eq]
    obtain ⟨hversion, hclean, hagree⟩ := agree_applyCanonicalEdits hdesired.cleanApps
      ((fieldsOf base desired).filter fun f => ¬f.Agree base desired)
      (fun g hg => plain_of_mem (List.mem_filter.1 hg).1) hfresh.cleanApps
    refine ⟨hversion, hclean, fun f hf =>
      ⟨fun hdiffer => (hagree f hf).1 ?_, fun hsame => (hagree f hf).2 ?_⟩⟩
    · -- A field that differs is among those that are written,
      by_contra hmem
      refine hdiffer (agree_of_notMem hf fun hfield => hmem (List.mem_filter.2 ⟨hfield, ?_⟩))
      simpa using hdiffer
    · -- and one that agrees is not.
      intro hmem
      simpa [hsame] using (List.mem_filter.1 hmem).2
  refine ⟨?_, fun fresh hfresh f hf => (hfields fresh hfresh).2.2 f hf, fun c => ?_⟩
  · obtain ⟨hv, hclean, hagree⟩ := hfields base hbase
    refine eq_of_agree hclean hdesired.cleanApps (hv.trans hversion) fun f hf => ?_
    -- Over its own base the patch leaves no field that differs.
    by_cases h : f.Agree base desired
    · exact ((hagree f hf).2 h).trans h
    · exact (hagree f hf).1 h
  · rw [diffFields_eq, List.map_eq_nil_iff, List.filter_eq_nil_iff]
    intro f _
    simpa using Field.Agree.refl c f

/-- A config without apps, and with some optional features. -/
def withFeatures (features : StrSet) : CanonicalConfig :=
  { CanonicalConfig.default with settings := { Settings.default with optionalFeatures := features }
    }

/-- Such a config is one that a reader gives. -/
theorem shape_withFeatures {features : StrSet} (h : ∀ s ∈ features, CleanName s) :
    (withFeatures features).Shape where
  apps pkg app happ := by simp [withFeatures, CanonicalConfig.default] at happ
  optionalFeatures := h
  autoHideExcludedPackages s hs := by simp [withFeatures, Settings.default] at hs
  autoHiddenPackages s hs := by simp [withFeatures, Settings.default] at hs

theorem shape_withFeature {x : Str} (hx : CleanName x) : (withFeatures {x}).Shape := by
  refine shape_withFeatures fun s hs => ?_
  obtain rfl : x = s := by simpa using hs
  exact hx

theorem diffFields_patch_feature :
    (withFeatures ∅).Shape ∧ (withFeatures {['x']}).Shape ∧
      applyCanonicalEdit (withFeatures ∅)
        (.batch (diffFields (withFeatures ∅) (withFeatures {['x']}))) =
        withFeatures {['x']} := by
  have hempty : (withFeatures ∅).Shape := shape_withFeatures (by simp)
  have hx : (withFeatures {['x']}).Shape := shape_withFeature ⟨by simp, rfl⟩
  exact ⟨hempty, hx, (diffFields_patch _ _ hempty hx rfl).1⟩

/-- The toggle of the filesystem feature is not kept when another feature is switched on: the
    set of features is written as a whole. -/
theorem filesystem_toggle_not_kept :
    (withFeatures ∅).Shape ∧ (withFeatures {['x']}).Shape ∧
      (withFeatures {filesystemFeature}).Shape ∧
      toggleValue (withFeatures ∅) .filesystem = toggleValue (withFeatures {['x']}) .filesystem ∧
      toggleValue (applyCanonicalEdit (withFeatures {filesystemFeature})
        (.batch (diffFields (withFeatures ∅) (withFeatures {['x']})))) .filesystem ≠
          toggleValue (withFeatures {filesystemFeature}) .filesystem := by
  refine ⟨shape_withFeatures (by simp), shape_withFeature ⟨by simp, rfl⟩,
    shape_withFeature ⟨by decide, by decide⟩, ?_, ?_⟩
  · decide +kernel
  · decide +kernel

end VpnHide.Config

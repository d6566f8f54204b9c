import Mathlib.Data.Set.Card
import VpnHide.Activator.NativePolicy
import VpnHide.Config.CanonicalRoundTrip

/-!
# The config as the activator reads it

The activator has types of its own for the disk format of the config, that are derived by serde
(`activator/src/model.rs`). A structure is read from an object, or from an array by position;
fields that are missing have defaults, others are ignored. A native role is the first of its
three forms that fits.

What Core accepts and writes is read (`parseCanonical_toJsonString`), and the native roles
are projected exactly (`native_projection_exact`).
-/

namespace VpnHide.Activator

open Lib Config Protocol NativePolicy

/-! ## Reading structures -/

/-- The fields of a structure: those of an object by name, those of an array by position. -/
def structFields (names : List Str) : Json → Option (Str → Option Json)
  | .object fields => some (Json.lookup fields)
  | .array items =>
    if items.length ≤ names.length then some fun name => items[names.idxOf name]? else none
  | _ => none

/-- A field with a default. -/
def field {α : Type} (get : Str → Option Json) (name : Str) (default : α) (read : Json → Option α) :
    Option α :=
  (get name).elim (some default) read

/-- An array of strings. -/
def readStrings (v : Json) : Option (List Str) := v.asArray.bind fun items => items.mapM Json.asStr

/-- `Option`, for which `null` stands for none. -/
def readOption {α : Type} (read : Json → Option α) : Json → Option (Option α)
  | .null => some none
  | v => (read v).map some

/-- A number below a bound. -/
def readBelow (bound : ℕ) (v : Json) : Option ℕ :=
  v.asU64.bind fun n => if n.toNat < bound then some n.toNat else none

/-- A number below `2^16`. -/
def readU16 (v : Json) : Option UInt16 := (readBelow (2 ^ 16) v).map Nat.toUInt16

/-! ## The config -/

/-- A rule of a port policy; without an end it is of a single port. -/
structure PortRule where
  start : UInt16
  stop : Option UInt16
  protocol : PortProtocol
  deriving DecidableEq

/-- The ports that an app may not reach on the loopback interface. -/
structure PortPolicy where
  mode : Option Str
  preset : Option Str
  rules : List PortRule
  deriving DecidableEq

/-- An app of the config as the activator reads it. -/
structure AppConfig where
  java : Bool
  native : NativeSelection
  appHiding : Bool
  ports : Bool
  portPolicy : Option PortPolicy
  deriving DecidableEq

/-- The settings that the activator looks at. -/
structure Settings where
  rememberSuperkey : Bool
  optionalFeatures : StrSet

/-- The config as the activator reads it. -/
structure CanonicalConfig where
  version : UInt32
  debug : Bool
  apps : StrMap AppConfig
  settings : Settings

/-- The protocol of a name. -/
def protocolOf (name : Str) : Option PortProtocol :=
  if name = "both".toList then some .both
  else if name = "tcp".toList then some .tcp
  else if name = "udp".toList then some .udp
  else none

/-- A variant by its name, or as an object with nothing else. -/
def readProtocol : Json → Option PortProtocol
  | .string name => protocolOf name
  | .object [(name, .null)] => protocolOf name
  | _ => none

/-- `PortRule`, from JSON. -/
def readPortRule (v : Json) : Option PortRule := do
  let get ← structFields ["start".toList, "end".toList, "protocol".toList] v
  let start ← readU16 (← get "start".toList)
  let stop ← field get "end".toList none (readOption readU16)
  let protocol ← field get "protocol".toList .both readProtocol
  return { start, stop, protocol }

/-- `PortPolicy`, from JSON. -/
def readPortPolicy (v : Json) : Option PortPolicy := do
  let get ← structFields ["mode".toList, "preset".toList, "rules".toList] v
  let mode ← field get "mode".toList none (readOption Json.asStr)
  let preset ← field get "preset".toList none (readOption Json.asStr)
  let rules ← field get "rules".toList [] fun v => v.asArray.bind fun items =>
    items.mapM readPortRule
  return { mode, preset, rules }

/-- The object that says what native hooks an app gets, from JSON. -/
def readNativeDetail (v : Json) : Option NativeSelection := do
  let get ← structFields ["enabled".toList, "kernel".toList, "zygisk".toList] v
  let enabled ← field get "enabled".toList true Json.asBool
  let kernel ← field get "kernel".toList none (readOption readStrings)
  let zygisk ← field get "zygisk".toList none (readOption readStrings)
  return .detailed enabled kernel zygisk

/-- The first form that fits. -/
def readNativeSelection (v : Json) : Option NativeSelection :=
  (v.asBool.map .enabled).or ((readStrings v).map .hooks |>.or (readNativeDetail v))

/-- `true` or `false`, or a list of hooks, of which only counts whether it is empty. -/
def readBoolOrHookList (v : Json) : Option Bool :=
  v.asBool.or ((readStrings v).map fun hooks => hooks ≠ [])

/-- An app, from JSON. -/
def readApp (v : Json) : Option AppConfig := do
  let get ← structFields ["java".toList, "native".toList, "appHiding".toList, "ports".toList,
    "portPolicy".toList] v
  let java ← field get "java".toList false readBoolOrHookList
  let native ← field get "native".toList (.enabled false) readNativeSelection
  let appHiding ← field get "appHiding".toList false Json.asBool
  let ports ← field get "ports".toList false Json.asBool
  let portPolicy ← field get "portPolicy".toList none (readOption readPortPolicy)
  return { java, native, appHiding, ports, portPolicy }

/-- The apps by package, from JSON. -/
def readApps (v : Json) : Option (StrMap AppConfig) := do
  let apps ← (← v.asObject).mapM fun (pkg, app) => (readApp app).map fun app => (pkg, app)
  return Std.ExtTreeMap.ofList apps

/-- The settings, from JSON. -/
def readSettings (v : Json) : Option Settings := do
  let get ← structFields ["rememberSuperkey".toList, "optionalFeatures".toList] v
  let rememberSuperkey ← field get "rememberSuperkey".toList false Json.asBool
  let optionalFeatures ← field get "optionalFeatures".toList ∅ fun v =>
    (readStrings v).map (Std.ExtTreeSet.ofList ·)
  return { rememberSuperkey, optionalFeatures }

/-- The version of the config that is read. -/
def schemaVersion : UInt32 := 1

/-- The config, from JSON. -/
def readConfig (v : Json) : Option CanonicalConfig := do
  let get ← structFields ["version".toList, "debug".toList, "apps".toList, "settings".toList] v
  let version ← field get "version".toList schemaVersion fun v =>
    (readBelow (2 ^ 32) v).map Nat.toUInt32
  let debug ← field get "debug".toList false Json.asBool
  let apps ← field get "apps".toList ∅ readApps
  let settings ← field get "settings".toList ⟨false, ∅⟩ readSettings
  return { version, debug, apps, settings }

/-! ## Texts -/

/-- Why a text is not read: it is no JSON, it has another shape, or for what it says. -/
inductive CanonicalError
  | json (e : Str)
  | shape
  | message (e : Str)
  deriving DecidableEq

/-- The last port of a rule. -/
def PortRule.endPort (rule : PortRule) : UInt16 := rule.stop.getD rule.start

/-- The check of the bounds of a rule. -/
def checkRule (pkg : Str) (rule : PortRule) : Except CanonicalError Unit :=
  if rule.start = 0 ∨ rule.endPort = 0 then
    .error (.message (pkg ++ ": port ranges must be within 1..65535".toList))
  else if rule.endPort < rule.start then
    .error (.message (pkg ++ ": port range start must not exceed end".toList))
  else .ok ()

/-- The check of all port policies: each names a range or all ports, never both. -/
def validatePortPolicies (cfg : CanonicalConfig) : Except CanonicalError Unit :=
  cfg.apps.toList.forM fun (pkg, app) =>
    match app.portPolicy with
    | none => .ok ()
    | some policy =>
      if policy.rules = [] then
        .error (.message (pkg ++ ": portPolicy.rules must not be empty".toList))
      else policy.rules.forM (checkRule pkg)

/-- `parse_canonical`: a text is read, and its version and port policies are checked. -/
def parseCanonical (text : JsonText) (json : Str) : Except CanonicalError CanonicalConfig := do
  let root ← (text.fromStr json).mapError .json
  let cfg ← (readConfig root).elim (.error .shape) .ok
  if schemaVersion < cfg.version then
    .error (.message
      ("unsupported vpnhide config version ".toList ++ Nat.toDigits 10 cfg.version.toNat))
  validatePortPolicies cfg
  return cfg

/-- The name of the optional feature that turns the filesystem hook on. -/
def optionalFeatureFilesystemIfacePaths : Str := HookId.name .filesystemIfacePaths

/-- The projection, with the uids that the package manager reports. -/
def projectNativeWithResolverForFamily (cfg : CanonicalConfig) (packages : StrMap (List UInt32))
    (family : NativeHookFamily) : Except NativeCapacityExceeded Bytes :=
  projectNative cfg.debug (cfg.apps.map fun _ app => app.native) packages family
    (cfg.settings.optionalFeatures.contains optionalFeatureFilesystemIfacePaths)

/-! ## What Core writes -/

/-- The selection that a native role is read as. -/
def selectionOf (native : NativeRole) : NativeSelection :=
  if !native.enabled then .enabled false
  else if native.kernel.isNone && native.zygisk.isNone then .enabled true
  else .detailed true native.kernel native.zygisk

/-- A list of strings is read back. -/
theorem readStrings_jsonStrings (l : List Str) : readStrings (jsonStrings l) = some l :=
  mapM_map fun _ _ => rfl

theorem field_some {α : Type} {get : Str → Option Json} {name : Str} {v : Json}
    (h : get name = some v) (default : α) (read : Json → Option α) :
    field get name default read = read v := by
  rw [field, h]
  rfl

theorem field_none {α : Type} {get : Str → Option Json} {name : Str} (h : get name = none)
    (default : α) (read : Json → Option α) : field get name default read = some default := by
  rw [field, h]
  rfl

theorem readOption_jsonStrings (hooks : Option (List Str)) {get : Str → Option Json} {name : Str}
    (h : get name = hooks.map jsonStrings) :
    field get name none (readOption readStrings) = some hooks := by
  cases hooks with
  | none => exact field_none h none _
  | some l =>
    rw [field_some h]
    change (readStrings (jsonStrings l)).map some = _
    rw [readStrings_jsonStrings]
    rfl

/-- The native role is read back. -/
theorem readNativeSelection_value (native : NativeRole) :
    readNativeSelection (nativeRoleValue native) = some (selectionOf native) := by
  rw [nativeRoleValue, selectionOf]
  split_ifs
  · rfl
  · rfl
  · have hread (o : List (Str × Json)) (he : Json.lookup o "enabled".toList = some (.bool true))
        (hk : Json.lookup o "kernel".toList = native.kernel.map jsonStrings)
        (hz : Json.lookup o "zygisk".toList = native.zygisk.map jsonStrings) :
        readNativeSelection (.object o) = some (.detailed true native.kernel native.zygisk) := by
      change readNativeDetail (.object o) = _
      simp only [readNativeDetail, structFields, Option.bind_eq_bind, Option.bind_some,
        field_some he, Json.asBool_bool, readOption_jsonStrings _ hk, readOption_jsonStrings _ hz]
      rfl
    exact hread _ (by simp [lookup_putSome]) (by simp [lookup_putSome]) (by simp [lookup_putSome])

/-- A role with hooks is read back as whether it is on. -/
theorem readBoolOrHookList_value {enabled : Bool} {hooks : Option (List Str)}
    (h : ∀ l, hooks = some l → enabled = true ∧ l ≠ [] ∧ ∀ s ∈ l, CleanName s) :
    readBoolOrHookList (hookRoleValue enabled hooks) = some enabled := by
  cases hooks with
  | none => cases enabled <;> rfl
  | some l =>
    obtain ⟨rfl, hne, -⟩ := h l rfl
    change ((readStrings (jsonStrings l)).map fun hooks => decide (hooks ≠ [])) = _
    rw [readStrings_jsonStrings, Option.map_some, decide_eq_true hne]

/-! ### Ports -/

/-- The rule as the activator reads it: a range of one port loses its end. -/
def portRuleOf (rule : Config.PortRule) : PortRule :=
  ⟨rule.start, if rule.stop ≠ rule.start then some rule.stop else none, rule.protocol⟩

/-- The policy as the activator reads it. -/
def portPolicyOf (policy : Config.PortPolicy) : PortPolicy :=
  ⟨some policy.mode, policy.preset, policy.rules.map portRuleOf⟩

theorem readU16_portValue (p : UInt16) : readU16 (portValue p) = some p := by
  have hnat : p.toUInt64.toNat = p.toNat := UInt16.toNat_toUInt64 p
  have hbelow : readBelow (2 ^ 16) (portValue p) = some p.toNat := by
    change (if p.toUInt64.toNat < 2 ^ 16 then some p.toUInt64.toNat else none) = _
    rw [hnat, if_pos p.toNat_lt]
  rw [readU16, hbelow]
  exact congrArg some UInt16.ofNat_toNat

theorem readProtocol_protocolName (protocol : PortProtocol) :
    readProtocol (.string (protocolName protocol)) = some protocol := by
  cases protocol <;> decide

/-- A rule is read back. -/
theorem readPortRule_value (rule : Config.PortRule) :
    readPortRule (portRuleValue rule) = some (portRuleOf rule) := by
  have hread (o : List (Str × Json))
      (hp : Json.lookup o "protocol".toList = some (.string (protocolName rule.protocol)))
      (hs : Json.lookup o "start".toList = some (portValue rule.start))
      (he : Json.lookup o "end".toList = if rule.stop ≠ rule.start then some (portValue rule.stop)
        else none) :
      readPortRule (.object o) = some (portRuleOf rule) := by
    have hend : field (Json.lookup o) "end".toList none (readOption readU16) =
        some (if rule.stop ≠ rule.start then some rule.stop else none) := by
      split_ifs at he ⊢
      · rw [field_some he]
        change (readU16 (portValue rule.stop)).map some = _
        rw [readU16_portValue]
        rfl
      · exact field_none he none _
    simp only [readPortRule, structFields, Option.bind_eq_bind, Option.bind_some, hs,
      readU16_portValue, hend, field_some hp, readProtocol_protocolName]
    rfl
  by_cases hstop : rule.stop ≠ rule.start
  · rw [portRuleValue, if_pos hstop]
    exact hread _ (by simp) (by simp) (by simp [hstop])
  · rw [portRuleValue, if_neg hstop]
    exact hread _ (by simp) (by simp) (by simp [hstop])

theorem readOption_asStr (s : Option Str) {get : Str → Option Json} {name : Str}
    (h : get name = s.map .string) :
    field get name none (readOption Json.asStr) = some s := by
  cases s with
  | none => exact field_none h none _
  | some t => exact field_some h none _

/-- A policy is read back. -/
theorem readPortPolicy_value {policy : Config.PortPolicy} (h : policy.Canonical) :
    readPortPolicy (portPolicyValue policy) = some (portPolicyOf policy) := by
  obtain ⟨o, ho, hmode, hpreset, hrules⟩ := lookup_portPolicyValue h
  have hmapped :
      (policy.rules.map portRuleValue).mapM readPortRule = some (policy.rules.map portRuleOf) := by
    induction policy.rules with
    | nil => rfl
    | cons r rules ih =>
      rw [List.map_cons, List.mapM_cons, readPortRule_value, ih]
      rfl
  have hread : field (Json.lookup o) "rules".toList []
      (fun v => v.asArray.bind fun items => items.mapM readPortRule) =
        some (policy.rules.map portRuleOf) := by
    rw [field_some hrules, Json.asArray_array, Option.bind_some, hmapped]
  rw [ho]
  simp only [readPortPolicy, structFields, Option.bind_eq_bind, Option.bind_some,
    readOption_asStr (some policy.mode) hmode, readOption_asStr _ hpreset, hread]
  rfl

/-! ### Apps -/

/-- The app as the activator reads it. -/
def appOf (app : Config.AppConfig) : AppConfig :=
  ⟨app.java, selectionOf app.native, app.appHiding, app.ports, app.portPolicy.map portPolicyOf⟩

/-- An app is read back. -/
theorem readApp_value {app : Config.AppConfig} (h : app.Canonical) :
    readApp (appToDisk app) = some (appOf app) := by
  obtain ⟨o, ho, hjava, hnative, hhiding, hports, hpolicy, -⟩ := lookup_appToDisk h
  have hread : field (Json.lookup o) "portPolicy".toList none (readOption readPortPolicy) =
      some (app.portPolicy.map portPolicyOf) := by
    cases hsome : app.portPolicy with
    | none =>
      rw [hsome] at hpolicy
      exact field_none hpolicy none _
    | some policy =>
      rw [hsome] at hpolicy
      rw [field_some hpolicy]
      change (readPortPolicy (portPolicyValue policy)).map some = _
      rw [readPortPolicy_value (h.policy policy hsome).2]
      rfl
  rw [ho]
  simp only [readApp, structFields, Option.bind_eq_bind, Option.bind_some, field_some hjava,
    readBoolOrHookList_value h.java, field_some hnative, readNativeSelection_value,
    field_some hhiding, field_some hports, Json.asBool_bool, hread]
  rfl

/-- The apps are read back. -/
theorem readApps_value {apps : StrMap Config.AppConfig}
    (h : ∀ (pkg : Str) (app : Config.AppConfig), apps[pkg]? = some app → app.Canonical) :
    ∃ apps', readApps (.object (appsToDisk apps)) = some apps' ∧
      ∀ pkg : Str, apps'[pkg]? = (apps[pkg]?).map appOf := by
  have hread : (appsToDisk apps).mapM (fun (pkg, app) => (readApp app).map fun app => (pkg, app)) =
      some ((appsToDisk apps).map fun e => (e.1, appOf (appFromDisk e.2))) := by
    refine mapM_eq_some_map fun e he => ?_
    obtain ⟨app, happ, -, hvalue⟩ := mem_appsToDisk.1 he
    have hcanonical := h e.1 app happ
    dsimp only
    rw [← hvalue, readApp_value hcanonical, appFromDisk_value hcanonical]
    rfl
  refine ⟨.ofList ((appsToDisk apps).map fun e => (e.1, appOf (appFromDisk e.2))), ?_,
    fun pkg => ?_⟩
  · simp only [readApps, Option.bind_eq_bind, Json.asObject_object, Option.bind_some, hread]
    rfl
  · cases hget : apps[pkg]? with
    | some app =>
      have hcanonical := h pkg app hget
      have hmem : (pkg, appOf app) ∈ (appsToDisk apps).map fun e =>
        (e.1, appOf (appFromDisk e.2)) := by
        refine List.mem_map.2
          ⟨(pkg, appToDisk app), mem_appsToDisk.2 ⟨app, hget, hcanonical.role, rfl⟩, ?_⟩
        rw [appFromDisk_value hcanonical]
      refine Std.ExtTreeMap.getElem?_ofList_of_mem (Std.ReflCmp.compare_self) ?_ hmem
      rw [List.pairwise_map]
      exact (sorted_appsToDisk apps).imp fun hlt heq =>
        hlt.ne (Std.LawfulEqCmp.compare_eq_iff_eq.1 heq)
    | none =>
      refine Std.ExtTreeMap.getElem?_ofList_of_contains_eq_false ?_
      rw [List.map_map, Bool.eq_false_iff, ne_eq, List.contains_iff_mem, List.mem_map]
      rintro ⟨e, he, rfl⟩
      obtain ⟨app, happ, -⟩ := mem_appsToDisk.1 he
      rw [Function.comp_apply, happ] at hget
      cases hget

/-! ### The config -/

theorem endPort_portRuleOf (rule : Config.PortRule) : (portRuleOf rule).endPort = rule.stop := by
  rw [PortRule.endPort, portRuleOf]
  by_cases h : rule.stop = rule.start
  · simp [h]
  · simp [h]

/-- A rule that Core writes is accepted. -/
theorem checkRule_portRuleOf {rule : Config.PortRule} (h : rule.Canonical) (pkg : Str) :
    checkRule pkg (portRuleOf rule) = .ok () := by
  have hstart : rule.start ≠ 0 := by
    rintro hzero
    have := h.start
    rw [hzero] at this
    exact absurd this (by decide)
  have hstop : rule.stop ≠ 0 := by
    rintro hzero
    have := h.start.trans h.order
    rw [hzero] at this
    exact absurd this (by decide)
  have horder : ¬ rule.stop < rule.start := UInt16.not_lt.2 (UInt16.le_iff_toNat_le.2 h.order)
  have hfirst : (portRuleOf rule).start = rule.start := rfl
  rw [checkRule, endPort_portRuleOf, hfirst, if_neg (not_or.2 ⟨hstart, hstop⟩), if_neg horder]

/-- The ports of canonical apps are accepted. -/
theorem validatePortPolicies_eq_ok {cfg : CanonicalConfig} {apps : StrMap Config.AppConfig}
    (h : ∀ (pkg : Str) (app : Config.AppConfig), apps[pkg]? = some app → app.Canonical)
    (happs : ∀ pkg : Str, cfg.apps[pkg]? = (apps[pkg]?).map appOf) :
    validatePortPolicies cfg = .ok () := by
  refine forM_eq_ok fun e he => ?_
  obtain ⟨pkg, app'⟩ := e
  have hget := Std.ExtTreeMap.mem_toList_iff_getElem?_eq_some.1 he
  rw [happs, Option.map_eq_some_iff] at hget
  obtain ⟨app, happ, rfl⟩ := hget
  have hcanonical := h pkg app happ
  dsimp only [appOf]
  cases hsome : app.portPolicy with
  | none => rfl
  | some policy =>
    obtain ⟨-, hpolicy⟩ := hcanonical.policy policy hsome
    have hne : (portPolicyOf policy).rules ≠ [] :=
      fun hnil => hpolicy.nonempty (List.map_eq_nil_iff.1 hnil)
    change (if (portPolicyOf policy).rules = [] then _ else _) = _
    rw [if_neg hne]
    refine forM_eq_ok fun rule hrule => ?_
    obtain ⟨r, hr, rfl⟩ := List.mem_map.1 hrule
    exact checkRule_portRuleOf (hpolicy.rules r hr) pkg

/-- The settings that the activator knows are read back. -/
theorem readSettings_value (settings : Config.Settings) :
    readSettings (settingsToDisk settings) =
      some ⟨settings.rememberSuperkey, settings.optionalFeatures⟩ := by
  obtain ⟨hremember, hfeatures, -⟩ := get_settingsToDisk settings
  have hset : (readStrings (sortedArray settings.optionalFeatures)).map (Std.ExtTreeSet.ofList ·) =
      some settings.optionalFeatures := by
    rw [sortedArray, readStrings_jsonStrings, Option.map_some]
    refine congrArg some (Std.ExtTreeSet.ext_mem fun s => ?_)
    rw [Std.ExtTreeSet.mem_ofList, List.contains_iff_mem, Std.ExtTreeSet.mem_toList]
  have hread (o : List (Str × Json))
      (hr : Json.lookup o "rememberSuperkey".toList = some (.bool settings.rememberSuperkey))
      (hf : Json.lookup o "optionalFeatures".toList =
        some (sortedArray settings.optionalFeatures)) :
      readSettings (.object o) = some ⟨settings.rememberSuperkey, settings.optionalFeatures⟩ := by
    simp only [readSettings, structFields, Option.bind_eq_bind, Option.bind_some, field_some hr,
      Json.asBool_bool, field_some hf, hset]
    rfl
  exact hread _ hremember hfeatures

/-- A config that Core writes is read back. -/
theorem readConfig_toDisk {config : Config.CanonicalConfig} (h : config.Shape) :
    ∃ cfg, readConfig (toDisk config) = some cfg ∧ cfg.version = config.version ∧
      cfg.debug = config.debug ∧ (∀ pkg : Str, cfg.apps[pkg]? = (config.apps[pkg]?).map appOf) ∧
      cfg.settings.optionalFeatures = config.settings.optionalFeatures := by
  obtain ⟨hversion, hdebug, -, happs, hsettings⟩ := get_toDisk config
  obtain ⟨apps, hread, hlookup⟩ := readApps_value h.apps
  have hnumber : (readBelow (2 ^ 32) (.number (.posInt config.version.toUInt64))).map Nat.toUInt32 =
      some config.version := by
    have hnat : config.version.toUInt64.toNat = config.version.toNat :=
      UInt32.toNat_toUInt64 config.version
    change (if config.version.toUInt64.toNat < 2 ^ 32 then some config.version.toUInt64.toNat
        else none).map _ = _
    rw [hnat, if_pos config.version.toNat_lt]
    exact congrArg some UInt32.ofNat_toNat
  have hconfig (o : List (Str × Json))
      (hv : Json.lookup o "version".toList = some (.number (.posInt config.version.toUInt64)))
      (hd : Json.lookup o "debug".toList = some (.bool config.debug))
      (ha : Json.lookup o "apps".toList = some (.object (appsToDisk config.apps)))
      (hs : Json.lookup o "settings".toList = some (settingsToDisk config.settings)) :
      readConfig (.object o) = some ⟨config.version, config.debug, apps,
        ⟨config.settings.rememberSuperkey, config.settings.optionalFeatures⟩⟩ := by
    simp only [readConfig, structFields, Option.bind_eq_bind, Option.bind_some, field_some hv,
      hnumber, field_some hd, Json.asBool_bool, field_some ha, hread,
      field_some hs, readSettings_value]
    rfl
  exact ⟨_, hconfig _ hversion hdebug happs hsettings, rfl, rfl, hlookup, rfl⟩

/-- The text of a config that Core writes is parsed to what the config says. -/
theorem parseCanonical_toJsonString {text : JsonText} {config : Config.CanonicalConfig}
    (hfaithful : text.Faithful (toDisk config)) (h : config.Canonical) :
    ∃ cfg, parseCanonical text (toJsonString text config) = .ok cfg ∧ cfg.debug = config.debug ∧
      (∀ pkg : Str, cfg.apps[pkg]? = (config.apps[pkg]?).map appOf) ∧
      cfg.settings.optionalFeatures = config.settings.optionalFeatures := by
  obtain ⟨cfg, hread, hversion, hdebug, happs, hsettings⟩ := readConfig_toDisk h.shape
  have hsupported : ¬ schemaVersion < cfg.version := by
    rw [hversion, h.version]
    decide
  refine ⟨cfg, ?_, hdebug, happs, hsettings⟩
  rw [parseCanonical, toJsonString, hfaithful.readBack]
  have hcfg : (readConfig (toDisk config)).elim (Except.error CanonicalError.shape) Except.ok =
      .ok cfg := by
    rw [hread]
    rfl
  change ((readConfig (toDisk config)).elim (Except.error CanonicalError.shape) Except.ok >>=
      fun cfg => _) = _
  rw [hcfg]
  change (if schemaVersion < cfg.version then _ else _) = _
  rw [if_neg hsupported, validatePortPolicies_eq_ok h.shape.apps happs]
  rfl

/-! ## What is projected -/

/-- The hooks of an app for a backend, with the features of the config. -/
def appHooks (config : Config.CanonicalConfig) (family : NativeHookFamily)
    (app : Config.AppConfig) : Option HookSet :=
  effectiveHooks (selectionOf app.native) family
    (config.settings.optionalFeatures.contains optionalFeatureFilesystemIfacePaths)

/-- A package puts a uid among the targets, with its hooks: the uid is one of an app and the
    package has it; for VPN Hide itself it is the first one of the main profile. -/
def Targets (config : Config.CanonicalConfig) (packages : StrMap (List UInt32))
    (family : NativeHookFamily) (pkg : Str) (uid : UInt32) (hooks : HookSet) : Prop :=
  (∃ app, config.apps[pkg]? = some app ∧ appHooks config family app = some hooks) ∧
    if pkg = appPackage then
      ((packages[pkg]?).getD []).find? (fun uid => uid < perUserRange && isAppUid uid) = some uid
    else uid ∈ (packages[pkg]?).getD [] ∧ isAppUid uid = true

/-- The uids that are projected. -/
def projectedUids (config : Config.CanonicalConfig) (packages : StrMap (List UInt32))
    (family : NativeHookFamily) :
    Set UInt32 :=
  {uid | ∃ pkg hooks, Targets config packages family pkg uid hooks}

/-- The uids of a package: all of them, or for VPN Hide itself the one of the main profile. -/
theorem mem_targetUids {pkg : Str} {uids : List UInt32} {uid : UInt32} :
    uid ∈ targetUids pkg uids ↔ if pkg = appPackage then
      uids.find? (fun uid => uid < perUserRange && isAppUid uid) = some uid else uid ∈ uids ∧
        isAppUid uid = true := by
  rw [targetUids]
  split_ifs
  · rw [Option.mem_toList]
  · rw [List.mem_filter]

section Exact

variable {config : Config.CanonicalConfig} {cfg : CanonicalConfig} {packages : StrMap (List UInt32)}
  {family : NativeHookFamily}

/-- The shares are what packages put among the targets. -/
theorem mem_shares (happs : ∀ pkg : Str, cfg.apps[pkg]? = (config.apps[pkg]?).map appOf)
    (hsettings : cfg.settings.optionalFeatures = config.settings.optionalFeatures) {share : Share} :
    share ∈ shares (cfg.apps.map fun _ app => app.native) packages family
        (cfg.settings.optionalFeatures.contains optionalFeatureFilesystemIfacePaths) ↔
      Targets config packages family share.package share.uid share.hooks := by
  rw [hsettings, Targets, ← mem_targetUids]
  obtain ⟨uid, hooks, pkg⟩ := share
  simp only [shares, List.mem_flatMap, Prod.exists, Std.ExtTreeMap.mem_toList_iff_getElem?_eq_some,
    Std.ExtTreeMap.getElem?_map, happs, Option.map_map, Option.map_eq_some_iff]
  constructor
  · rintro ⟨pkg', selection, ⟨app, happ, rfl⟩, hshare⟩
    split at hshare
    · cases hshare
    next hooks' hhooks =>
      obtain ⟨uid', huid, heq⟩ := List.mem_map.1 hshare
      cases heq
      exact ⟨⟨app, happ, hhooks⟩, huid⟩
  · rintro ⟨⟨app, happ, hhooks⟩, huid⟩
    refine ⟨pkg, selectionOf app.native, ⟨app, happ, rfl⟩, ?_⟩
    rw [appHooks] at hhooks
    rw [hhooks]
    exact List.mem_map.2 ⟨uid, huid, rfl⟩

/-- The targets of the config as it was read. -/
def targetSet (cfg : CanonicalConfig) (packages : StrMap (List UInt32))
    (family : NativeHookFamily) : TargetSet :=
  nativeTargetSet (cfg.apps.map fun _ app => app.native) packages family
    (cfg.settings.optionalFeatures.contains optionalFeatureFilesystemIfacePaths)

/-- The uids of the target set are those of the targets. -/
theorem mem_targetSet (happs : ∀ pkg : Str, cfg.apps[pkg]? = (config.apps[pkg]?).map appOf)
    (hsettings : cfg.settings.optionalFeatures = config.settings.optionalFeatures) {uid : UInt32} :
    uid ∈ targetSet cfg packages family ↔ uid ∈ projectedUids config packages family := by
  rw [targetSet, mem_nativeTargetSet]
  constructor
  · rintro ⟨share, hshare, rfl⟩
    exact ⟨share.package, share.hooks, (mem_shares happs hsettings).1 hshare⟩
  · rintro ⟨pkg, hooks, h⟩
    exact ⟨⟨uid, hooks, pkg⟩, (mem_shares happs hsettings).2 h, rfl⟩

/-- The hooks of a uid are those of its targets. -/
theorem bit_targetSet (happs : ∀ pkg : Str, cfg.apps[pkg]? = (config.apps[pkg]?).map appOf)
    (hsettings : cfg.settings.optionalFeatures = config.settings.optionalFeatures)
    {uid : UInt32} {i : ℕ} :
    Bit (targetAt (targetSet cfg packages family) uid).1 i ↔
      ∃ pkg hooks, Targets config packages family pkg uid hooks ∧ Bit hooks i := by
  rw [targetSet, bit_nativeTargetSet]
  constructor
  · rintro ⟨share, hshare, rfl, hbit⟩
    exact ⟨share.package, share.hooks, (mem_shares happs hsettings).1 hshare, hbit⟩
  · rintro ⟨pkg, hooks, h, hbit⟩
    exact ⟨⟨uid, hooks, pkg⟩, (mem_shares happs hsettings).2 h, rfl, hbit⟩

end Exact

/-- As many targets as there are uids. -/
theorem ncard_targetSet (byUid : TargetSet) : {uid | uid ∈ byUid}.ncard = byUid.size := by
  have hnodup : byUid.keys.Nodup := by
    rw [List.nodup_iff_pairwise_ne]
    exact Std.ExtTreeMap.distinct_keys.imp fun hne heq =>
      hne (Std.LawfulEqCmp.compare_eq_iff_eq.2 heq)
  have hset : {uid | uid ∈ byUid} = (byUid.keys.toFinset : Set UInt32) := by
    ext uid
    simp
  rw [hset, Set.ncard_coe_finset, List.toFinset_card_of_nodup hnodup, Std.ExtTreeMap.length_keys]

/-- The native projection of a config that Core accepts is exact: its text is read, and either
    the uids that are projected are too many, and the report covers them, or a wire is written
    that a backend reads as just these uids, each with the hooks of all packages that target it.
    Hooks that the backend does not own are never among them, nor is that of the filesystem where
    only the mask can turn it off. -/
theorem native_projection_exact (text : JsonText) (toVec : Config.CanonicalConfig → Except Str ℕ)
    (config : Config.CanonicalConfig) (hfaithful : text.Faithful (toDisk config))
    (hvalid : validateCandidate text toVec config = .ok ()) (packages : StrMap (List UInt32))
    (family : NativeHookFamily) :
    ∃ cfg, parseCanonical text (toJsonString text config) = .ok cfg ∧
      ((∃ e, projectNativeWithResolverForFamily cfg packages family = .error e) ↔
        160 < (projectedUids config packages family).ncard) ∧
      (∀ e, projectNativeWithResolverForFamily cfg packages family = .error e →
        ∀ uid, (∃ p ∈ e.packages, uid ∈ p.uids) ↔ uid ∈ projectedUids config packages family) ∧
      ∀ w, projectNativeWithResolverForFamily cfg packages family = .ok w →
        ∃ targets, parseConfig w = some ⟨some config.debug, 0, targets⟩ ∧
          targets.Pairwise (fun a b => a.uid < b.uid) ∧
          (∀ uid, (∃ t ∈ targets, t.uid = uid) ↔ uid ∈ projectedUids config packages family) ∧
          ∀ t ∈ targets,
            (∀ i, t.hookmask.toNat.testBit i = true ↔
              ∃ pkg hooks, Targets config packages family pkg t.uid hooks ∧
                hooks.toNat.testBit i = true) ∧
            (∀ i, t.hookmask.toNat.testBit i = true → family.fullSet.toNat.testBit i = true) ∧
            (config.settings.optionalFeatures.contains optionalFeatureFilesystemIfacePaths = false →
              family = .builtin ∨ family = .zygisk →
              t.hookmask.toNat.testBit (HookId.id .filesystemIfacePaths) = false) := by
  obtain ⟨cfg, hparse, hdebug, happs, hsettings⟩ :=
    parseCanonical_toJsonString hfaithful (canonical_of_validateCandidate hvalid)
  have hmem (uid : UInt32) := @mem_targetSet config cfg packages family happs hsettings uid
  refine ⟨cfg, hparse, ?_, fun e he uid => ?_, fun w hw => ?_⟩
  · -- It fails if there are too many uids, and there are as many as the abstract set has.
    have hset : projectedUids config packages family =
        {uid | uid ∈ targetSet cfg packages family} :=
      Set.ext fun uid => (hmem uid).symm
    rw [hset, ncard_targetSet]
    exact projectNative_isError
  · rw [← hmem uid]
    exact projectNative_error he uid
  · -- The targets that are read back are those of the abstract set, sorted by uid,
    refine ⟨targets (targetSet cfg packages family), ?_, sorted_targets _,
      fun uid => ?_, fun t ht => ?_⟩
    · rw [← hdebug]
      exact projectNative_ok hw
    · rw [← hmem uid]
      constructor
      · rintro ⟨t, ht, rfl⟩
        exact (mem_targets.1 ht).1
      · intro huid
        exact ⟨⟨uid, (targetAt (targetSet cfg packages family) uid).1⟩,
          mem_targets.2 ⟨huid, rfl⟩, rfl⟩
    · -- and each mask has the bits of all packages of its uid, so that none is outside the family.
      have hbits (i : ℕ) : Bit t.hookmask i ↔
          ∃ pkg hooks, Targets config packages family pkg t.uid hooks ∧ Bit hooks i := by
        rw [← (mem_targets.1 ht).2]
        exact bit_targetSet happs hsettings
      refine ⟨hbits, fun i hi => ?_, fun hoff hfamily => ?_⟩
      · obtain ⟨pkg, hooks, ⟨⟨app, -, hhooks⟩, -⟩, hbit⟩ := (hbits i).1 hi
        exact (effectiveHooks_spec hhooks).2.1 i hbit
      · refine Bool.eq_false_iff.2 fun hi => ?_
        obtain ⟨pkg, hooks, ⟨⟨app, -, hhooks⟩, -⟩, hbit⟩ := (hbits _).1 hi
        refine (effectiveHooks_spec hhooks).2.2 hoff ?_ hbit
        obtain rfl | rfl := hfamily <;> rfl

/-- A config with the native role for one app. -/
def nativeConfig : Config.CanonicalConfig :=
  let app : Config.AppConfig := { Config.AppConfig.default with native := ⟨true, none, none⟩ }
  { Config.CanonicalConfig.default
    with apps := (∅ : StrMap Config.AppConfig).insert "org.a".toList app }

/-- Its text. -/
def nativeText : JsonText where
  toString _ := '\x7b' :: (
    "\"apps\":\x7b\"org.a\":\x7b\"appHiding\":false,\"java\":false,\"native\":true,\"ports\":false\x7d\x7d," ++
    "\"debug\":false,\"debugSwitch\":false,\"settings\":\x7b\"autoHiddenPackages\":[]," ++
    "\"autoHideExcludedPackages\":[],\"autoHideVpnName\":false,\"autoHideVpnServices\":true," ++
    "\"optionalFeatures\":[],\"rememberSuperkey\":false\x7d,\"version\":1\x7d").toList
  fromStr _ := .ok (toDisk nativeConfig)

theorem native_projection_exact_one :
    ∃ cfg, parseCanonical nativeText (toJsonString nativeText nativeConfig) = .ok cfg ∧
      ((∃ e, projectNativeWithResolverForFamily cfg
          ((∅ : StrMap (List UInt32)).insert "org.a".toList [1000, 10123]) .zygisk = .error e) ↔
        160 < (projectedUids nativeConfig
          ((∅ : StrMap (List UInt32)).insert "org.a".toList [1000, 10123])
          .zygisk).ncard) := by
  have hnone : ∀ s ∈ (∅ : StrSet), CleanName s := fun s hs => absurd hs Std.ExtTreeSet.not_mem_empty
  have hfaithful : nativeText.Faithful (toDisk nativeConfig) :=
    ⟨Str.trim_ne_nil List.mem_cons_self (by decide), rfl⟩
  have hcanonical : nativeConfig.Canonical := by
    refine ⟨rfl, fun pkg app happ => ?_, hnone, hnone, hnone⟩
    rw [nativeConfig, Std.ExtTreeMap.getElem?_insert] at happ
    split_ifs at happ
    · obtain rfl := Option.some.inj happ
      exact ⟨rfl, by rintro hooks ⟨⟩, ⟨by rintro hooks ⟨⟩, by rintro hooks ⟨⟩⟩, by rintro policy ⟨⟩⟩
    · simp at happ
  -- The length is that of the literals; a computation of it would decode them.
  have hliterals (a b c d : List Char) (ha : a.length ≤ 100) (hb : b.length ≤ 100)
      (hc : c.length ≤ 100)
      (hd : d.length ≤ 100) :
      ('\x7b' :: (String.ofList a ++ String.ofList b ++ String.ofList c ++
        String.ofList d).toList).length ≤ 401 := by
    simp only [List.length_cons, String.toList_append, String.toList_ofList, List.length_append]
    omega
  have hlength : (toJsonString nativeText nativeConfig).length ≤ 401 := by
    apply hliterals
    all_goals decide
  have hvalid : validateCandidate nativeText (fun _ => .ok 300) nativeConfig = .ok () :=
    validateCandidate_eq_ok hfaithful hcanonical
      ((Str.length_toUtf8_le _).trans ((Nat.mul_le_mul_left 4 hlength).trans (by decide))) rfl
      (by decide)
  obtain ⟨cfg, hparse, herror, -⟩ :=
    native_projection_exact nativeText (fun _ => .ok 300) nativeConfig hfaithful hvalid
    ((∅ : StrMap (List UInt32)).insert "org.a".toList [1000, 10123]) .zygisk
  exact ⟨cfg, hparse, herror⟩

end VpnHide.Activator

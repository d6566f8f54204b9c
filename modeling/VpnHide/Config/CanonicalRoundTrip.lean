import VpnHide.Config.Canonical

/-!
# What the disk format keeps

Whatever is read from a JSON value is canonical (`shape_fromDisk`): apps have a role, lists of
hooks stand only with a role that is enabled, names are trimmed. And what is canonical is
written in the right shape and read back as it was (`validateDiskShape_toDisk`,
`fromDisk_toDisk`). So reading normalises, once and for all (`codec_roundtrip`).
-/

namespace VpnHide.Config

open Lib

/-! ## Canonical configs -/

/-- A name that is trimmed, and not blank. -/
def CleanName (s : Str) : Prop := s ≠ [] ∧ Str.trim s = s

/-- The overrides of a native role as a reader gives them. -/
structure NativeRole.Canonical (native : NativeRole) : Prop where
  kernel : ∀ hooks, native.kernel = some hooks → native.enabled = true ∧ ∀ s ∈ hooks, CleanName s
  zygisk : ∀ hooks, native.zygisk = some hooks → native.enabled = true ∧ ∀ s ∈ hooks, CleanName s

/-- The ports of a rule are in order. -/
structure PortRule.Canonical (rule : PortRule) : Prop where
  start : 1 ≤ rule.start.toNat
  order : rule.start.toNat ≤ rule.stop.toNat
  stop : rule.stop.toNat ≤ 65535

/-- The policy has rules, and names that a reader gives. -/
structure PortPolicy.Canonical (policy : PortPolicy) : Prop where
  nonempty : policy.rules ≠ []
  rules : ∀ r ∈ policy.rules, r.Canonical
  preset : ∀ s, policy.preset = some s → CleanName s

/-- The app has a role, and overrides only of roles that it has. -/
structure AppConfig.Canonical (app : AppConfig) : Prop where
  role : app.hasAnyRole = true
  java : ∀ hooks, app.javaHooks = some hooks → app.java = true ∧ hooks ≠ [] ∧
    ∀ s ∈ hooks, CleanName s
  native : app.native.Canonical
  policy : ∀ policy, app.portPolicy = some policy → app.ports = true ∧ policy.Canonical

/-- All that makes a config canonical but its version. -/
structure CanonicalConfig.Shape (config : CanonicalConfig) : Prop where
  apps : ∀ (pkg : Str) (app : AppConfig), config.apps[pkg]? = some app → app.Canonical
  optionalFeatures : ∀ s ∈ config.settings.optionalFeatures, CleanName s
  autoHideExcludedPackages : ∀ s ∈ config.settings.autoHideExcludedPackages, CleanName s
  autoHiddenPackages : ∀ s ∈ config.settings.autoHiddenPackages, CleanName s

/-- The config is one that a reader gives. -/
structure CanonicalConfig.Canonical (config : CanonicalConfig) : Prop where
  version : config.version = 1
  shape : config.Shape

/-! ## Names -/

/-- Names that are read are clean. -/
theorem cleanName_of_mem_names {items : List Json} {s : Str} (h : s ∈ names items) :
    CleanName s := by
  rw [names, List.mem_filter, List.mem_map, decide_eq_true_eq] at h
  obtain ⟨⟨t, -, rfl⟩, hs⟩ := h
  exact ⟨hs, Str.trim_trim t⟩

theorem names_strings {l : List Str} (h : ∀ s ∈ l, CleanName s) : names (l.map .string) = l := by
  have hstr : (l.map Json.string).filterMap Json.asStr = l := by
    rw [List.filterMap_map]
    exact List.filterMap_some
  have htrim : l.map Str.trim = l := (List.map_congr_left fun s hs => (h s hs).2).trans l.map_id
  rw [names, hstr, htrim, List.filter_eq_self]
  intro s hs
  exact decide_eq_true (h s hs).1

/-- Clean names are read back from an array. -/
theorem stringList_strings {l : List Str} (h : ∀ s ∈ l, CleanName s) :
    stringList (some (jsonStrings l)) = some l :=
  congrArg some (names_strings h)

theorem stringList_map {hooks : Option (List Str)}
    (h : ∀ l, hooks = some l → ∀ s ∈ l, CleanName s) :
    stringList (hooks.map jsonStrings) = hooks := by
  cases hooks with
  | none => rfl
  | some l => exact stringList_strings (h l rfl)

theorem cleanName_of_stringList {value : Option Json} {l : List Str}
    (h : stringList value = some l) :
    ∀ s ∈ l, CleanName s := by
  obtain ⟨items, -, rfl⟩ := Option.map_eq_some_iff.1 h
  exact fun s => cleanName_of_mem_names

/-! ## Roles -/

/-- The hooks of a role that is read are clean, and there are some. -/
theorem hookRole_spec (value : Option Json) :
    ∀ hooks, (hookRole value).2 = some hooks → (hookRole value).1 = true ∧ hooks ≠ [] ∧
      ∀ s ∈ hooks, CleanName s := by
  intro hooks h
  rw [hookRole.eq_def] at h ⊢
  split at h
  · cases h
  · next items =>
    split at h
    · next head tail hlist =>
      obtain rfl := Option.some.inj h
      exact ⟨rfl, List.cons_ne_nil head tail, cleanName_of_stringList hlist⟩
    · cases h
  · cases h

/-- A role with hooks is read back. -/
theorem hookRole_hookRoleValue {enabled : Bool} {hooks : Option (List Str)}
    (h : ∀ l, hooks = some l → enabled = true ∧ l ≠ [] ∧ ∀ s ∈ l, CleanName s) :
    hookRole (some (hookRoleValue enabled hooks)) = (enabled, hooks) := by
  cases hooks with
  | none => cases enabled <;> rfl
  | some l =>
    obtain ⟨rfl, hne, hclean⟩ := h l rfl
    obtain ⟨head, tail, rfl⟩ := List.exists_cons_of_ne_nil hne
    have hlist := stringList_strings hclean
    rw [hookRoleValue, jsonStrings, hookRole, ← jsonStrings, hlist]

/-- A native role that is read is as a reader gives it. -/
theorem canonical_nativeRoleFromDisk (value : Option Json) :
    (nativeRoleFromDisk value).Canonical := by
  have hdefault : NativeRole.default.Canonical := by constructor <;> rintro hooks ⟨⟩
  rw [nativeRoleFromDisk.eq_def]
  split
  · split_ifs
    · exact ⟨fun hooks h => ⟨rfl, cleanName_of_stringList h⟩, fun hooks h =>
        ⟨rfl, cleanName_of_stringList h⟩⟩
    · exact hdefault
  · split
    · next hooks hrole =>
      refine ⟨fun l h => ⟨rfl, ?_⟩, fun l h => by cases h⟩
      exact (hookRole_spec value l (by rw [hrole]; exact h)).2.2
    · exact hdefault

/-- What a key gives after it may have been put. -/
theorem lookup_putSome (fields : List (Str × Json)) (name name' : Str) (value : Option Json) :
    Json.lookup (putSome fields name value) name' =
      if name = name' then value.or (Json.lookup fields name') else Json.lookup fields name' := by
  cases value with
  | none =>
    rw [Option.none_or, ite_self]
    rfl
  | some v => exact Json.lookup_put fields name name' v

/-- A native role is read back. -/
theorem nativeRoleFromDisk_value {native : NativeRole} (h : native.Canonical) :
    nativeRoleFromDisk (some (nativeRoleValue native)) = native := by
  obtain ⟨enabled, kernel, zygisk⟩ := native
  obtain ⟨hkernel, hzygisk⟩ := h
  cases enabled with
  | false =>
    have hk : kernel = none :=
      Option.eq_none_iff_forall_ne_some.2 fun l hl => by cases (hkernel l hl).1
    have hz : zygisk = none :=
      Option.eq_none_iff_forall_ne_some.2 fun l hl => by cases (hzygisk l hl).1
    rw [hk, hz]
    rfl
  | true =>
    by_cases hnone : kernel.isNone && zygisk.isNone
    · rw [Bool.and_eq_true, Option.isNone_iff_eq_none, Option.isNone_iff_eq_none] at hnone
      rw [hnone.1, hnone.2]
      rfl
    · have hvalue : nativeRoleValue ⟨true, kernel, zygisk⟩ = .object (putSome (putSome
          (Json.put [] "enabled".toList (.bool true)) "kernel".toList (kernel.map jsonStrings))
          "zygisk".toList (zygisk.map jsonStrings)) := by
        rw [nativeRoleValue, if_neg (by simp), if_neg hnone]
      have hread (o : List (Str × Json)) (he : Json.lookup o "enabled".toList = some (.bool true))
          (hk : Json.lookup o "kernel".toList = kernel.map jsonStrings)
          (hz : Json.lookup o "zygisk".toList = zygisk.map jsonStrings) :
          nativeRoleFromDisk (some (.object o)) = ⟨true, kernel, zygisk⟩ := by
        rw [nativeRoleFromDisk, he, hk, hz, stringList_map fun l hl => (hkernel l hl).2,
          stringList_map fun l hl => (hzygisk l hl).2]
        rfl
      rw [hvalue]
      exact hread _ (by simp [lookup_putSome]) (by simp [lookup_putSome]) (by simp [lookup_putSome])

/-! ## Ports -/

/-- A port that is read is a port. -/
theorem port_eq_some {n : Int} {p : UInt16} (h : port n = some p) :
    1 ≤ p.toNat ∧ p.toNat ≤ 65535 := by
  rw [port] at h
  split_ifs at h with hn
  obtain rfl := Option.some.inj h
  have hmod : (n.toNat.toUInt16).toNat = n.toNat := Nat.mod_eq_of_lt (by omega)
  rw [hmod]
  omega

theorem port_toNat {p : UInt16} (h : 1 ≤ p.toNat) : port p.toNat = some p := by
  have hlt : p.toNat < 2 ^ 16 := p.toNat_lt
  rw [port, if_pos (by omega), Int.toNat_natCast]
  exact congrArg some UInt16.ofNat_toNat

/-- A rule that is read has its ports in order. -/
theorem canonical_rule {protocol : Str} {start stop : Int} {r : PortRule}
    (h : rule protocol start stop = .ok r) :
    r.Canonical := by
  cases hstart : port start with
  | none =>
    rw [rule, hstart] at h
    cases h
  | some a =>
    cases hstop : port stop with
    | none =>
      rw [rule, hstart, hstop] at h
      cases h
    | some b =>
      rw [rule, hstart, hstop] at h
      change (if b < a then _ else _) = _ at h
      by_cases hlt : b < a
      · rw [if_pos hlt] at h
        cases h
      rw [if_neg hlt] at h
      obtain rfl := Except.ok.inj h
      exact ⟨(port_eq_some hstart).1, UInt16.le_iff_toNat_le.1 (UInt16.not_lt.1 hlt),
        (port_eq_some hstop).2⟩

/-- A rule is made again from its parts. -/
theorem rule_protocolName {r : PortRule} (h : r.Canonical) :
    rule (protocolName r.protocol) r.start.toNat r.stop.toNat = .ok r := by
  obtain ⟨protocol, start, stop⟩ := r
  have hlt : ¬ stop < start := UInt16.not_lt.2 (UInt16.le_iff_toNat_le.2 h.order)
  rw [rule, port_toNat h.start, port_toNat (h.start.trans h.order)]
  change (if stop < start then _ else _) = _
  rw [if_neg hlt]
  cases protocol <;> rfl

theorem toI64_port (p : UInt16) : toI64 p.toUInt64 = some (p.toNat : Int) := by
  have hlt : p.toNat < 2 ^ 16 := p.toNat_lt
  have hnat : p.toUInt64.toNat = p.toNat := UInt16.toNat_toUInt64 p
  rw [toI64, hnat, if_pos (by omega)]

/-- A rule that is read has its ports in order. -/
theorem canonical_portRuleFromDisk {obj : List (Str × Json)} {r : PortRule}
    (h : portRuleFromDisk obj = some r) :
    r.Canonical := by
  rw [portRuleFromDisk] at h
  simp only [Option.bind_eq_bind, Option.bind_eq_some_iff] at h
  obtain ⟨start, -, stop, -, a, -, b, -, hrule⟩ := h
  cases hread :
      rule (((Json.lookup obj "protocol".toList).bind Json.asStr).getD "both".toList) a b with
  | error e =>
    rw [hread] at hrule
    cases hrule
  | ok r' =>
    rw [hread] at hrule
    obtain rfl := Option.some.inj hrule
    exact canonical_rule hread

/-- The fields of a rule, whether its end is written or not. -/
theorem portRuleFromDisk_eq {obj : List (Str × Json)} {r : PortRule} (h : r.Canonical)
    (hprotocol : Json.lookup obj "protocol".toList = some (.string (protocolName r.protocol)))
    (hstart : Json.lookup obj "start".toList = some (portValue r.start))
    (hstop : (Json.lookup obj "end".toList).elim (some r.start.toUInt64) Json.asU64 =
      some r.stop.toUInt64) :
    portRuleFromDisk obj = some r := by
  have hasU64 : (some (portValue r.start)).bind Json.asU64 = some r.start.toUInt64 := rfl
  rw [portRuleFromDisk, hprotocol, hstart, hasU64]
  simp only [Option.bind_eq_bind, Option.bind_some, hstop, toI64_port, Json.asStr_string,
    Option.getD_some, rule_protocolName h]
  rfl

/-- A rule is read back. -/
theorem portRuleFromDisk_value {r : PortRule} (h : r.Canonical) :
    ∃ obj, portRuleValue r = .object obj ∧
      Json.lookup obj "protocol".toList = some (.string (protocolName r.protocol)) ∧
      portRuleFromDisk obj = some r := by
  refine ⟨_, rfl, ?_, portRuleFromDisk_eq h ?_ ?_ ?_⟩
  all_goals
    by_cases hstop : r.stop = r.start
    · simp [hstop]
    · simp [hstop, portValue]

section MapM

variable {α β : Type} {f : α → Option β}

/-- Each result comes from some item. -/
theorem exists_of_mapM {l : List α} {l' : List β} (h : l.mapM f = some l') :
    ∀ b ∈ l', ∃ a ∈ l, f a = some b := by
  induction l generalizing l' with
  | nil =>
    obtain rfl := Option.some.inj h
    intro b hb
    cases hb
  | cons a l ih =>
    rw [List.mapM_cons] at h
    simp only [Option.bind_eq_bind, Option.bind_eq_some_iff] at h
    obtain ⟨b', hb', l'', hl'', heq⟩ := h
    obtain rfl := Option.some.inj heq
    intro b hb
    obtain rfl | hb := List.mem_cons.1 hb
    · exact ⟨a, List.mem_cons_self, hb'⟩
    · obtain ⟨a', ha', h'⟩ := ih hl'' b hb
      exact ⟨a', List.mem_cons_of_mem a ha', h'⟩

theorem eq_nil_of_mapM {l : List α} (h : l.mapM f = some []) : l = [] := by
  cases l with
  | nil => rfl
  | cons a l =>
    rw [List.mapM_cons] at h
    simp only [Option.bind_eq_bind, Option.bind_eq_some_iff] at h
    obtain ⟨b, -, l', -, heq⟩ := h
    cases heq

/-- Items that are all read. -/
theorem mapM_eq_some_map {g : α → β} {l : List α} (h : ∀ a ∈ l, f a = some (g a)) :
    l.mapM f = some (l.map g) := by
  induction l with
  | nil => rfl
  | cons a l ih =>
    rw [List.mapM_cons, h a List.mem_cons_self, ih fun b hb => h b (List.mem_cons_of_mem a hb)]
    rfl

theorem mapM_map {g : β → α} {l : List β} (h : ∀ b ∈ l, f (g b) = some b) :
    (l.map g).mapM f = some l := by
  induction l with
  | nil => rfl
  | cons b l ih =>
    rw [List.map_cons, List.mapM_cons, h b List.mem_cons_self, ih fun b' hb' =>
      h b' (List.mem_cons_of_mem b hb')]
    rfl

end MapM

/-- A policy that is read is as a reader gives it. -/
theorem canonical_portPolicyFromDisk {value : Option Json} {policy : PortPolicy}
    (h : portPolicyFromDisk value = some policy) : policy.Canonical := by
  rw [portPolicyFromDisk] at h
  simp only [Option.bind_eq_bind, Option.bind_eq_some_iff] at h
  obtain ⟨v, -, obj, -, rulesValue, -, rulesJson, -, h⟩ := h
  split_ifs at h with hne
  · cases h
  obtain ⟨rules, hrules, heq⟩ := Option.bind_eq_some_iff.1 h
  obtain rfl := Option.some.inj heq
  refine ⟨fun hnil => ?_, fun r hr => ?_, fun s hs => ?_⟩
  · have hnil : rules = [] := hnil
    rw [hnil] at hrules
    exact hne (eq_nil_of_mapM hrules)
  · obtain ⟨value, -, hvalue⟩ := exists_of_mapM hrules r hr
    obtain ⟨obj, -, hobj⟩ := Option.bind_eq_some_iff.1 hvalue
    exact canonical_portRuleFromDisk hobj
  · obtain ⟨hs, hne⟩ := Option.filter_eq_some_iff.1 hs
    obtain ⟨t, -, rfl⟩ := Option.map_eq_some_iff.1 hs
    exact ⟨of_decide_eq_true hne, Str.trim_trim t⟩

/-- A policy is read back from its fields. -/
theorem portPolicyFromDisk_object {obj : List (Str × Json)} {policy : PortPolicy}
    (h : policy.Canonical) (hmode : Json.lookup obj "mode".toList = some (.string policy.mode))
    (hpreset : Json.lookup obj "preset".toList = policy.preset.map .string)
    (hrules : Json.lookup obj "rules".toList = some (.array (policy.rules.map portRuleValue))) :
    portPolicyFromDisk (some (.object obj)) = some policy := by
  obtain ⟨mode, preset, rules⟩ := policy
  have hne : rules.map portRuleValue ≠ [] := fun hnil => h.nonempty (List.map_eq_nil_iff.1 hnil)
  have hread :
      (rules.map portRuleValue).mapM (fun r => r.asObject.bind portRuleFromDisk) = some rules := by
    refine mapM_map fun r hr => ?_
    obtain ⟨obj, hobj, -, hrule⟩ := portRuleFromDisk_value (h.rules r hr)
    rw [hobj]
    exact hrule
  have hname : (((preset.map Json.string).bind Json.asStr).map Str.trim).filter (fun s => s ≠ []) =
      preset := by
    cases preset with
    | none => rfl
    | some s =>
      obtain ⟨hs, htrim⟩ := h.preset s rfl
      simp [htrim, hs]
  simp only [portPolicyFromDisk, Option.bind_eq_bind, Option.bind_some, Json.asObject_object, hmode,
    hpreset, hrules, Json.asArray_array, if_neg hne, hread, hname,
    Json.asStr_string, Option.getD_some]
  rfl

theorem lookup_portPolicyValue {policy : PortPolicy} (h : policy.Canonical) :
    ∃ o, portPolicyValue policy = .object o ∧
      Json.lookup o "mode".toList = some (.string policy.mode) ∧
      Json.lookup o "preset".toList = policy.preset.map .string ∧
      Json.lookup o "rules".toList = some (.array (policy.rules.map portRuleValue)) := by
  have hpreset :
      (policy.preset.filter fun s => s ≠ []).map Json.string = policy.preset.map .string := by
    cases hsome : policy.preset with
    | none => rfl
    | some s => simp [(h.preset s hsome).1]
  rw [portPolicyValue, hpreset]
  exact ⟨_, rfl, by simp [lookup_putSome], by simp [lookup_putSome], by simp⟩

/-- A policy is read back. -/
theorem portPolicyFromDisk_value {policy : PortPolicy} (h : policy.Canonical) :
    portPolicyFromDisk (some (portPolicyValue policy)) = some policy := by
  obtain ⟨o, ho, hmode, hpreset, hrules⟩ := lookup_portPolicyValue h
  rw [ho]
  exact portPolicyFromDisk_object h hmode hpreset hrules

/-! ## Apps -/

/-- An app that is read is as a reader gives it. -/
theorem canonical_appFromDisk {value : Json} (h : (appFromDisk value).hasAnyRole = true) :
    (appFromDisk value).Canonical := by
  refine ⟨h, hookRole_spec _, canonical_nativeRoleFromDisk _, fun policy hpolicy => ?_⟩
  have hports :
      (appFromDisk value).ports = (((value.get "ports".toList).bind Json.asBool).getD false &&
      (!(value.get "portPolicy".toList).any (fun v => !v.isNull) ||
        (appFromDisk value).portPolicy.isSome)) := rfl
  rw [hports, hpolicy]
  change (if _ then _ else _) = some policy at hpolicy
  split_ifs at hpolicy with hrequested
  rw [Bool.and_eq_true] at hrequested
  refine ⟨?_, canonical_portPolicyFromDisk hpolicy⟩
  rw [hrequested.1, Option.isSome_some, Bool.or_true, Bool.and_true]

/-- An app is read back from its fields. -/
theorem appFromDisk_object {obj : List (Str × Json)} {app : AppConfig} (h : app.Canonical)
    (hjava : Json.lookup obj "java".toList = some (hookRoleValue app.java app.javaHooks))
    (hnative : Json.lookup obj "native".toList = some (nativeRoleValue app.native))
    (hhiding : Json.lookup obj "appHiding".toList = some (.bool app.appHiding))
    (hports : Json.lookup obj "ports".toList = some (.bool app.ports))
    (hpolicy : Json.lookup obj "portPolicy".toList = app.portPolicy.map portPolicyValue)
    (hhidden : ((Json.lookup obj "hidden".toList).bind Json.asBool).getD false = app.hidden) :
    appFromDisk (.object obj) = app := by
  obtain ⟨java, javaHooks, native, appHiding, ports, portPolicy, hidden⟩ := app
  have hrole := hookRole_hookRoleValue h.java
  have hread := nativeRoleFromDisk_value h.native
  cases portPolicy with
  | none =>
    simp only [appFromDisk, Json.get_object, hjava, hnative, hhiding, hports, hpolicy, hhidden,
      hrole, hread, Option.map_none, Option.any_none, Option.bind_some, Json.asBool_bool,
      Option.getD_some, Bool.and_false, Bool.false_eq_true, if_false, Bool.not_false,
      Bool.true_or, Bool.and_true]
  | some policy =>
    obtain ⟨hport, hcanonical⟩ := h.policy policy rfl
    change ports = true at hport
    subst hport
    have hpresent : (portPolicyValue policy).isNull = false := rfl
    simp only [appFromDisk, Json.get_object, hjava, hnative, hhiding, hports, hpolicy, hhidden,
      hrole, hread, Option.map_some, Option.any_some, Option.bind_some, Json.asBool_bool,
      Option.getD_some, hpresent, Bool.not_false, Bool.and_true, if_true,
      portPolicyFromDisk_value hcanonical, Option.isSome_some, Bool.or_true]

theorem lookup_appToDisk {app : AppConfig} (h : app.Canonical) :
    ∃ o, appToDisk app = .object o ∧
      Json.lookup o "java".toList = some (hookRoleValue app.java app.javaHooks) ∧
      Json.lookup o "native".toList = some (nativeRoleValue app.native) ∧
      Json.lookup o "appHiding".toList = some (.bool app.appHiding) ∧
      Json.lookup o "ports".toList = some (.bool app.ports) ∧
      Json.lookup o "portPolicy".toList = app.portPolicy.map portPolicyValue ∧
      Json.lookup o "hidden".toList = if app.hidden then some (.bool true) else none := by
  have hpolicy : (if app.ports then app.portPolicy.map portPolicyValue else none) =
      app.portPolicy.map portPolicyValue := by
    cases hsome : app.portPolicy with
    | none => exact ite_self none
    | some policy => rw [(h.policy policy hsome).1, if_pos rfl]
  rw [appToDisk, hpolicy]
  refine ⟨_, rfl, ?_⟩
  cases app.hidden <;>
    simp only [lookup_putSome, Json.lookup_put, Json.lookup_nil, String.toList_inj, String.reduceEq,
      if_true, if_false, Bool.false_eq_true, Option.or_none, and_self]

/-- An app is read back. -/
theorem appFromDisk_value {app : AppConfig} (h : app.Canonical) :
    appFromDisk (appToDisk app) = app := by
  obtain ⟨o, ho, hjava, hnative, hhiding, hports, hpolicy, hhidden⟩ := lookup_appToDisk h
  rw [ho]
  refine appFromDisk_object h hjava hnative hhiding hports hpolicy ?_
  rw [hhidden]
  cases app.hidden <;> rfl

/-- An app is the last one of its name that has a role. -/
theorem getElem?_foldl_apps (fields : List (Str × Json)) (apps : StrMap AppConfig) (pkg : Str) :
    (fields.foldl (fun apps (pkg, value) =>
      let app := appFromDisk value
      if app.hasAnyRole then apps.insert pkg app else apps) apps)[pkg]? =
    ((fields.reverse.find? fun field => field.1 = pkg && (appFromDisk field.2).hasAnyRole).map
      fun field => appFromDisk field.2).or apps[pkg]? := by
  induction fields generalizing apps with
  | nil => rfl
  | cons field fields ih =>
    obtain ⟨name, value⟩ := field
    rw [List.foldl_cons, ih, List.reverse_cons, List.find?_append, Option.map_or, Option.or_assoc]
    congr 1
    by_cases hrole : (appFromDisk value).hasAnyRole = true
    · by_cases hname : name = pkg
      · subst hname
        simp [hrole]
      · simp [hrole, hname, Std.ExtTreeMap.getElem?_insert]
    · simp [hrole]

/-- An app that is read comes from a field. -/
theorem appsFromDisk_eq_some {fields : List (Str × Json)} {pkg : Str} {app : AppConfig}
    (h : (appsFromDisk fields)[pkg]? = some app) :
    ∃ value, (pkg, value) ∈ fields ∧ (appFromDisk value).hasAnyRole = true ∧
      appFromDisk value = app := by
  rw [appsFromDisk, getElem?_foldl_apps, Std.ExtTreeMap.getElem?_empty, Option.or_none,
    Option.map_eq_some_iff] at h
  obtain ⟨⟨name, value⟩, hfind, rfl⟩ := h
  have hmem := List.mem_reverse.1 (List.mem_of_find?_eq_some hfind)
  have hprop := List.find?_some hfind
  rw [Bool.and_eq_true, decide_eq_true_eq] at hprop
  obtain ⟨rfl, hrole⟩ := hprop
  exact ⟨value, hmem, hrole, rfl⟩

/-- The apps are written in their order. -/
theorem appsToDisk_eq (apps : StrMap AppConfig) :
    appsToDisk apps =
      ((apps.toList.filter fun e => e.2.hasAnyRole).map fun e => (e.1, appToDisk e.2)).foldl
        (fun o e => upsert Prod.fst e o) [] := by
  rw [List.foldl_map, List.foldl_filter]
  rfl

/-- The fields of the apps: one for each app with a role. -/
theorem perm_appsToDisk (apps : StrMap AppConfig) :
    (appsToDisk apps).Perm
    ((apps.toList.filter fun e => e.2.hasAnyRole).map fun e => (e.1, appToDisk e.2)) := by
  have hnodup : (apps.toList.map Prod.fst).Nodup := by
    rw [List.nodup_iff_pairwise_ne, List.pairwise_map]
    exact Std.ExtTreeMap.distinct_keys_toList.imp fun hne heq =>
      hne (Std.LawfulEqCmp.compare_eq_iff_eq.2 heq)
  rw [appsToDisk_eq]
  refine (perm_foldl_upsert _ ?_).trans (by rw [List.append_nil])
  rw [List.append_nil, List.map_map]
  exact (List.filter_sublist.map Prod.fst).nodup hnodup

theorem sorted_appsToDisk (apps : StrMap AppConfig) : SortedBy Prod.fst (appsToDisk apps) := by
  rw [appsToDisk_eq]
  exact sorted_foldl_upsert _ List.Pairwise.nil

/-- The fields are those of the apps with a role. -/
theorem mem_appsToDisk {apps : StrMap AppConfig} {pkg : Str} {value : Json} :
    (pkg, value) ∈ appsToDisk apps ↔
      ∃ app, apps[pkg]? = some app ∧ app.hasAnyRole = true ∧ appToDisk app = value := by
  rw [(perm_appsToDisk apps).mem_iff, List.mem_map]
  constructor
  · rintro ⟨⟨name, app⟩, hmem, heq⟩
    obtain ⟨rfl, rfl⟩ := Prod.mk.inj heq
    obtain ⟨hmem, hrole⟩ := List.mem_filter.1 hmem
    exact ⟨app, Std.ExtTreeMap.mem_toList_iff_getElem?_eq_some.1 hmem, hrole, rfl⟩
  · rintro ⟨app, hget, hrole, rfl⟩
    exact ⟨(pkg, app),
      List.mem_filter.2 ⟨Std.ExtTreeMap.mem_toList_iff_getElem?_eq_some.2 hget, hrole⟩, rfl⟩

/-- Apps are read back, as names occur once. -/
theorem appsFromDisk_appsToDisk {apps : StrMap AppConfig}
    (h : ∀ (pkg : Str) (app : AppConfig), apps[pkg]? = some app → app.Canonical) :
    appsFromDisk (appsToDisk apps) = apps := by
  refine Std.ExtTreeMap.ext_getElem? fun pkg => Option.ext fun app =>
    ⟨fun hget => ?_, fun hget => ?_⟩
  · obtain ⟨value, hmem, -, rfl⟩ := appsFromDisk_eq_some hget
    obtain ⟨app, happ, -, rfl⟩ := mem_appsToDisk.1 hmem
    rw [appFromDisk_value (h pkg app happ)]
    exact happ
  · have happ := h pkg app hget
    have hmem : (pkg, appToDisk app) ∈ appsToDisk apps :=
      mem_appsToDisk.2 ⟨app, hget, happ.role, rfl⟩
    cases hread : (appsFromDisk (appsToDisk apps))[pkg]? with
    | some app' =>
      obtain ⟨value, hvalue, -, rfl⟩ := appsFromDisk_eq_some hread
      obtain ⟨app', happ', -, rfl⟩ := mem_appsToDisk.1 hvalue
      obtain rfl := Option.some.inj (hget.symm.trans happ')
      rw [appFromDisk_value happ]
    | none =>
      rw [appsFromDisk, getElem?_foldl_apps, Std.ExtTreeMap.getElem?_empty, Option.or_none,
        Option.map_eq_none_iff, List.find?_eq_none] at hread
      refine absurd ?_ (hread _ (List.mem_reverse.2 hmem))
      simp [appFromDisk_value happ, happ.role]

/-! ## Settings -/

/-- Names of a set that is read are clean. -/
theorem cleanName_of_stringSetAt {v : Option Json} {key s : Str} (h : s ∈ stringSetAt v key) :
    CleanName s := by
  rw [stringSetAt] at h
  cases hitems : (v.bind (·.get key)).bind Json.asArray with
  | none => simp [hitems] at h
  | some items =>
    rw [hitems, Option.map_some, Option.getD_some, Std.ExtTreeSet.mem_ofList, List.contains_iff_mem]
      at h
    exact cleanName_of_mem_names h

/-- A set is read back. -/
theorem stringSetAt_sortedArray {set : StrSet} (h : ∀ s ∈ set, CleanName s) {v : Json} {key : Str}
    (hv : v.get key = some (sortedArray set)) : stringSetAt (some v) key = set := by
  have hclean : ∀ s ∈ set.toList, CleanName s := fun s hs => h s (Std.ExtTreeSet.mem_toList.1 hs)
  refine Std.ExtTreeSet.ext_mem fun s => ?_
  rw [stringSetAt, Option.bind_some, hv, Option.bind_some, sortedArray, jsonStrings,
    Json.asArray_array, Option.map_some, Option.getD_some, names_strings hclean,
    Std.ExtTreeSet.mem_ofList, List.contains_iff_mem, Std.ExtTreeSet.mem_toList]

/-- The fields that the settings are written to. -/
theorem get_settingsToDisk (settings : Settings) :
    let v := settingsToDisk settings
    v.get "rememberSuperkey".toList = some (.bool settings.rememberSuperkey) ∧
      v.get "optionalFeatures".toList = some (sortedArray settings.optionalFeatures) ∧
      v.get "autoHideVpnServices".toList = some (.bool settings.autoHideVpnServices) ∧
      v.get "autoHideVpnName".toList = some (.bool settings.autoHideVpnName) ∧
      v.get "autoHideExcludedPackages".toList =
        some (sortedArray settings.autoHideExcludedPackages) ∧
      v.get "autoHiddenPackages".toList = some (sortedArray settings.autoHiddenPackages) := by
  simp only [settingsToDisk, Json.get_object, Json.lookup_put, String.toList_inj, String.reduceEq,
    if_true, if_false, and_self]

theorem getD_optBoolAt {v : Json} {key : Str} {b : Bool} (h : v.get key = some (.bool b))
    (default : Bool) :
    (optBoolAt (some v) key).getD default = b := by
  rw [optBoolAt, Option.bind_some, h]
  rfl

/-- The settings are read back. -/
theorem settingsFromDisk_settingsToDisk {settings : Settings}
    (hfeatures : ∀ s ∈ settings.optionalFeatures, CleanName s)
    (hexcluded : ∀ s ∈ settings.autoHideExcludedPackages, CleanName s)
    (hhidden : ∀ s ∈ settings.autoHiddenPackages, CleanName s) :
    settingsFromDisk (some (settingsToDisk settings)) = settings := by
  obtain ⟨h₁, h₂, h₃, h₄, h₅, h₆⟩ := get_settingsToDisk settings
  rw [settingsFromDisk, getD_optBoolAt h₁, stringSetAt_sortedArray hfeatures h₂, getD_optBoolAt h₃,
    getD_optBoolAt h₄, stringSetAt_sortedArray hexcluded h₅, stringSetAt_sortedArray hhidden h₆]

/-! ## The config -/

/-- A config that is read is one that a reader gives. -/
theorem shape_fromDisk {root : Json} {config : CanonicalConfig} (h : fromDisk root = some config) :
    config.Shape ∧ config.version ≤ 1 := by
  rw [fromDisk] at h
  split_ifs at h with hversion
  obtain rfl := Option.some.inj h
  refine ⟨⟨fun pkg app happ => ?_, ?_, ?_, ?_⟩, UInt32.not_lt.1 hversion⟩
  · obtain ⟨value, -, hrole, rfl⟩ := appsFromDisk_eq_some happ
    exact canonical_appFromDisk hrole
  all_goals exact fun s hs => cleanName_of_stringSetAt hs

/-- The fields that a config is written to. -/
theorem get_toDisk (config : CanonicalConfig) :
    (toDisk config).get "version".toList = some (.number (.posInt config.version.toUInt64)) ∧
      (toDisk config).get "debug".toList = some (.bool config.debug) ∧
      (toDisk config).get "debugSwitch".toList = some (.bool config.debugSwitch) ∧
      (toDisk config).get "apps".toList = some (.object (appsToDisk config.apps)) ∧
      (toDisk config).get "settings".toList = some (settingsToDisk config.settings) := by
  simp only [toDisk, Json.get_object, Json.lookup_put, String.toList_inj, String.reduceEq,
    if_true, if_false, and_self]

/-- A config is read back from its value. -/
theorem fromDisk_toDisk {config : CanonicalConfig} (h : config.Shape)
    (hversion : config.version ≤ 1) :
    fromDisk (toDisk config) = some config := by
  obtain ⟨hv, hdebug, hswitch, happs, hsettings⟩ := get_toDisk config
  obtain ⟨version, debug, debugSwitch, apps, settings⟩ := config
  have hread :=
    settingsFromDisk_settingsToDisk h.optionalFeatures h.autoHideExcludedPackages
      h.autoHiddenPackages
  have hcast : version.toUInt64.toUInt32 = version := UInt32.toUInt32_toUInt64 version
  simp only [fromDisk, boolAt, hv, hdebug, hswitch, happs, hsettings, Option.bind_some,
    Json.asU64_posInt, Json.asBool_bool, Json.asObject_object, Option.getD_some, hcast,
    if_neg (UInt32.not_lt.2 hversion), hread, appsFromDisk_appsToDisk h.apps]

/-! ## The shape of what is written -/

/-- A check that accepts what is there. -/
theorem check_eq_ok {v : Json} {keys : List Str} {accepts : Json → Bool}
    (h : ∀ key ∈ keys, ∀ value, v.get key = some value → accepts value = true) :
    check v keys accepts = .ok () := by
  induction keys with
  | nil => rfl
  | cons key keys ih =>
    have hkey : ((v.get key).any fun value => !accepts value) = false := by
      cases hget : v.get key with
      | none => rfl
      | some value => simp [h key List.mem_cons_self value hget]
    change ((if _ then _ else _) >>= fun _ => check v keys accepts) = _
    rw [hkey, ih fun key' hkey' => h key' (List.mem_cons_of_mem key hkey')]
    rfl

theorem accepts_of_get {v value : Json} {key : Str} {accepts : Json → Bool}
    (h : v.get key = some value) (haccepts : accepts value = true) :
    ∀ value', v.get key = some value' → accepts value' = true := by
  intro value' hvalue'
  rw [← Option.some.inj (h.symm.trans hvalue')]
  exact haccepts

theorem isStrings_jsonStrings (l : List Str) : isStrings (jsonStrings l) = true := by
  simp [isStrings, jsonStrings, Json.isString]

theorem isRole_hookRoleValue (enabled : Bool) (hooks : Option (List Str)) :
    isRole (hookRoleValue enabled hooks) = true := by
  cases enabled with
  | false => rfl
  | true =>
    cases hooks with
    | none => rfl
    | some l => exact Bool.or_eq_true_iff.2 (.inr (isStrings_jsonStrings l))

theorem isStrings_of_map {hooks : Option (List Str)} {value : Json}
    (h : hooks.map jsonStrings = some value) :
    (value.isNull || isStrings value) = true := by
  obtain ⟨l, -, rfl⟩ := Option.map_eq_some_iff.1 h
  exact Bool.or_eq_true_iff.2 (.inr (isStrings_jsonStrings l))

/-- A native role that is written passes its check. -/
theorem checkNative_object {o : List (Str × Json)} {kernel zygisk : Option (List Str)}
    (henabled : Json.lookup o "enabled".toList = some (.bool true))
    (hkernel : Json.lookup o "kernel".toList = kernel.map jsonStrings)
    (hzygisk : Json.lookup o "zygisk".toList = zygisk.map jsonStrings) :
    checkNative (.object o) = .ok () := by
  have hbool : check (.object o) ["enabled".toList] Json.isBoolean = .ok () :=
    check_eq_ok (List.forall_mem_singleton.2 (accepts_of_get henabled rfl))
  have hstrings :
      check (.object o) ["kernel".toList, "zygisk".toList] (fun v => v.isNull || isStrings v) =
        .ok () :=
    check_eq_ok (List.forall_mem_cons.2
      ⟨fun value hvalue => isStrings_of_map (hkernel.symm.trans hvalue),
      List.forall_mem_singleton.2 fun value hvalue => isStrings_of_map (hzygisk.symm.trans hvalue)⟩)
  have hobject : (Json.object o).isObject = true := rfl
  rw [checkNative, if_pos hobject, hbool]
  exact hstrings

theorem checkNative_value (native : NativeRole) :
    checkNative (nativeRoleValue native) = .ok () := by
  rw [nativeRoleValue]
  split_ifs
  · rfl
  · rfl
  · exact checkNative_object (by simp [lookup_putSome]) (by simp [lookup_putSome]; rfl)
      (by simp [lookup_putSome]; rfl)

theorem isProtocol_protocolName (protocol : PortProtocol) :
    isProtocol (.string (protocolName protocol)) = true := by
  cases protocol <;> decide

/-- A policy that is written passes its check. -/
theorem checkPolicy_object {o : List (Str × Json)} {policy : PortPolicy} (h : policy.Canonical)
    (hmode : Json.lookup o "mode".toList = some (.string policy.mode))
    (hpreset : Json.lookup o "preset".toList = policy.preset.map .string)
    (hrules : Json.lookup o "rules".toList = some (.array (policy.rules.map portRuleValue))) :
    checkPolicy (.object o) = .ok () := by
  have hread : (portPolicyFromDisk (some (.object o))).isNone = false := by
    rw [portPolicyFromDisk_object h hmode hpreset hrules]
    rfl
  have hmode' : check (.object o) ["mode".toList] Json.isString = .ok () :=
    check_eq_ok (List.forall_mem_singleton.2 (accepts_of_get hmode rfl))
  have hpreset' :
      check (.object o) ["preset".toList] (fun v => v.isNull || v.isString) = .ok () := by
    refine check_eq_ok (List.forall_mem_singleton.2 fun value hvalue => ?_)
    obtain ⟨s, -, rfl⟩ := Option.map_eq_some_iff.1 (hpreset.symm.trans hvalue)
    rfl
  have hrules' :
      (policy.rules.map portRuleValue).forM (fun r => check r ["protocol".toList] isProtocol) =
        .ok () := by
    refine forM_eq_ok fun value hvalue => ?_
    obtain ⟨r, hr, rfl⟩ := List.mem_map.1 hvalue
    obtain ⟨obj, hobj, hprotocol, -⟩ := portRuleFromDisk_value (h.rules r hr)
    rw [hobj]
    exact check_eq_ok
      (List.forall_mem_singleton.2 (accepts_of_get hprotocol (isProtocol_protocolName r.protocol)))
  rw [checkPolicy, hread, hmode', hpreset', Json.get_object, hrules]
  exact hrules'

/-- An app that is written passes its check. -/
theorem checkApp_value {app : AppConfig} (h : app.Canonical) :
    checkApp (appToDisk app) = .ok () := by
  obtain ⟨o, ho, hjava, hnative, hhiding, hports, hpolicy, hhidden⟩ := lookup_appToDisk h
  have hrole : check (.object o) ["java".toList] isRole = .ok () :=
    check_eq_ok (List.forall_mem_singleton.2
      (accepts_of_get hjava (isRole_hookRoleValue app.java app.javaHooks)))
  have hbool :
      check (.object o) ["appHiding".toList, "ports".toList, "hidden".toList] Json.isBoolean =
        .ok () := by
    refine check_eq_ok (List.forall_mem_cons.2 ⟨accepts_of_get hhiding rfl, List.forall_mem_cons.2
      ⟨accepts_of_get hports rfl, List.forall_mem_singleton.2 fun value hvalue => ?_⟩⟩)
    rw [Json.get_object, hhidden] at hvalue
    split_ifs at hvalue
    obtain rfl := Option.some.inj hvalue
    rfl
  have hpolicies :
      ((app.portPolicy.map portPolicyValue).filter fun p => !p.isNull).forM checkPolicy =
        .ok () := by
    cases hsome : app.portPolicy with
    | none => rfl
    | some policy =>
      have hcanonical := (h.policy policy hsome).2
      obtain ⟨o, ho, hmode, hpreset, hrules⟩ := lookup_portPolicyValue hcanonical
      rw [Option.map_some, ho]
      exact checkPolicy_object hcanonical hmode hpreset hrules
  have hobject : (!(Json.object o).isObject) = false := rfl
  rw [ho, checkApp, hobject, hrole, hbool, Json.get_object, hnative, Json.get_object, hpolicy]
  change (checkNative (nativeRoleValue app.native) >>= fun _ => _) = _
  rw [checkNative_value]
  exact hpolicies

/-- Settings that are written pass their check. -/
theorem checkSettings_value (settings : Settings) :
    checkSettings (settingsToDisk settings) = .ok () := by
  obtain ⟨h₁, h₂, h₃, h₄, h₅, h₆⟩ := get_settingsToDisk settings
  have hbool : check (settingsToDisk settings)
      ["rememberSuperkey".toList, "autoHideVpnServices".toList, "autoHideVpnName".toList]
        Json.isBoolean = .ok () :=
    check_eq_ok (List.forall_mem_cons.2 ⟨accepts_of_get h₁ rfl, List.forall_mem_cons.2
      ⟨accepts_of_get h₃ rfl, List.forall_mem_singleton.2 (accepts_of_get h₄ rfl)⟩⟩)
  have hstrings :
      check (settingsToDisk settings) ["optionalFeatures".toList, "autoHideExcludedPackages".toList,
      "autoHiddenPackages".toList] isStrings = .ok () :=
    check_eq_ok (List.forall_mem_cons.2 ⟨accepts_of_get h₂ (isStrings_jsonStrings _),
      List.forall_mem_cons.2
      ⟨accepts_of_get h₅ (isStrings_jsonStrings _),
        List.forall_mem_singleton.2 (accepts_of_get h₆ (isStrings_jsonStrings _))⟩⟩)
  rw [checkSettings, hbool]
  exact hstrings

/-- What it takes for a value to have the right shape. -/
theorem validateDiskShape_eq_ok {root settings : Json} {apps : List (Str × Json)} {version : UInt32}
    (hobject : root.isObject = true) (hschema : schemaVersion root = .ok version)
    (hversion : version ≤ 1)
    (hbool : check root ["debug".toList, "debugSwitch".toList] Json.isBoolean = .ok ())
    (hobjects : check root ["apps".toList, "settings".toList] Json.isObject = .ok ())
    (hsettings : root.get "settings".toList = some settings)
    (hcheck : checkSettings settings = .ok ())
    (happs : root.get "apps".toList = some (.object apps))
    (hvalues : apps.forM (fun (_, app) => checkApp app) = .ok ()) :
    validateDiskShape root = .ok version := by
  rw [validateDiskShape, hobject, hschema]
  change (if 1 < version then _ else _) = _
  rw [if_neg (UInt32.not_lt.2 hversion), hbool, hobjects, hsettings, happs]
  change (checkSettings settings >>= fun _ => _) = _
  rw [hcheck]
  change (apps.forM (fun (_, app) => checkApp app) >>= fun _ => _) = _
  rw [hvalues]
  rfl

/-- A config that is written has the right shape. -/
theorem validateDiskShape_toDisk {config : CanonicalConfig} (h : config.Shape)
    (hversion : config.version ≤ 1) :
    validateDiskShape (toDisk config) = .ok config.version := by
  obtain ⟨hv, hdebug, hswitch, happs, hsettings⟩ := get_toDisk config
  have hschema : schemaVersion (toDisk config) = .ok config.version := by
    have hlt : config.version.toUInt64.toNat < 2 ^ 32 := by
      rw [UInt32.toNat_toUInt64]
      exact config.version.toNat_lt
    rw [schemaVersion, hv]
    dsimp only [Json.asU64_posInt]
    rw [if_pos hlt, UInt32.toUInt32_toUInt64]
  have hbool :
      check (toDisk config) ["debug".toList, "debugSwitch".toList] Json.isBoolean = .ok () :=
    check_eq_ok (List.forall_mem_cons.2
      ⟨accepts_of_get hdebug rfl, List.forall_mem_singleton.2 (accepts_of_get hswitch rfl)⟩)
  have hobjects : check (toDisk config) ["apps".toList, "settings".toList] Json.isObject = .ok () :=
    check_eq_ok (List.forall_mem_cons.2
      ⟨accepts_of_get happs rfl, List.forall_mem_singleton.2 (accepts_of_get hsettings rfl)⟩)
  have hvalues : (appsToDisk config.apps).forM (fun (_, app) => checkApp app) = .ok () := by
    refine forM_eq_ok fun field hfield => ?_
    obtain ⟨app, happ, -, hvalue⟩ := mem_appsToDisk.1 hfield
    dsimp only
    rw [← hvalue]
    exact checkApp_value (h.apps _ app happ)
  exact validateDiskShape_eq_ok rfl hschema hversion hbool hobjects hsettings
    (checkSettings_value config.settings)
    happs hvalues

/-! ## Texts -/

section Text

variable {text : JsonText} {config : CanonicalConfig}

/-- A config that a text gives is read from a value. -/
theorem fromDisk_of_parseStatus {raw : Str} (h : parseStatus text raw = .ok (.present config)) :
    ∃ root, fromDisk root = some config := by
  rw [parseStatus] at h
  split_ifs at h
  · cases h
  cases hroot : text.fromStr raw with
  | error e =>
    rw [hroot] at h
    cases h
  | ok root =>
    rw [hroot] at h
    change (validateDiskShape root >>= fun version => _) = _ at h
    cases hversion : validateDiskShape root with
    | error e =>
      rw [hversion] at h
      cases h
    | ok version =>
      rw [hversion] at h
      change (if 1 < version then _ else _) = _ at h
      split_ifs at h
      · cases h
      refine ⟨root, ?_⟩
      cases hread : fromDisk root with
      | none =>
        rw [hread] at h
        cases h
      | some c =>
        rw [hread] at h
        cases h
        rfl

/-- The text of a config gives the config again. -/
theorem parseStatus_toJsonString (hfaithful : text.Faithful (toDisk config)) (h : config.Shape)
    (hversion : config.version ≤ 1) :
    parseStatus text (toJsonString text config) = .ok (.present config) := by
  rw [toJsonString, parseStatus, if_neg hfaithful.nonblank, hfaithful.readBack]
  change (validateDiskShape (toDisk config) >>= fun version => _) = _
  rw [validateDiskShape_toDisk h hversion]
  change (if 1 < config.version then _ else _) = _
  rw [if_neg (UInt32.not_lt.2 hversion), fromDisk_toDisk h hversion]
  rfl

/-- What passes the check of an edited config is canonical. -/
theorem canonical_of_validateCandidate {toVec : CanonicalConfig → Except Str ℕ}
    (h : validateCandidate text toVec config = .ok ()) : config.Canonical := by
  rw [validateCandidate] at h
  split_ifs at h with hversion
  · cases h
  have hparsed : parseStatus text (toJsonString text config) = .ok (.present config) := by
    dsimp only at h
    split_ifs at h
    · cases h
    cases hsize : toVec config with
    | error e =>
      rw [hsize] at h
      cases h
    | ok size =>
      rw [hsize] at h
      change (if maxConfigBytes < size then _ else _) = _ at h
      split_ifs at h
      · cases h
      cases hstatus : parseStatus text (toJsonString text config) with
      | error e =>
        rw [hstatus] at h
        cases h
      | ok load =>
        rw [hstatus] at h
        cases load with
        | present parsed =>
          change (if parsed = config then _ else _) = _ at h
          split_ifs at h with heq
          rw [heq]
        | absent => cases h
        | unsupportedVersion version => cases h
  obtain ⟨root, hroot⟩ := fromDisk_of_parseStatus hparsed
  exact ⟨not_not.1 hversion, (shape_fromDisk hroot).1⟩

/-- What is canonical passes it, if it is not too large. -/
theorem validateCandidate_eq_ok {toVec : CanonicalConfig → Except Str ℕ}
    (hfaithful : text.Faithful (toDisk config)) (h : config.Canonical)
    (hjson : (Str.toUtf8 (toJsonString text config)).length ≤ maxConfigBytes) {size : ℕ}
    (hvec : toVec config = .ok size) (hsize : size ≤ maxConfigBytes) :
    validateCandidate text toVec config = .ok () := by
  have hparse := parseStatus_toJsonString hfaithful h.shape (UInt32.le_of_eq h.version)
  rw [validateCandidate, if_neg (not_not.2 h.version)]
  dsimp only
  rw [if_neg (not_lt.2 hjson), hvec]
  change (if maxConfigBytes < size then _ else _) = _
  rw [if_neg (not_lt.2 hsize), hparse]
  exact if_pos rfl

end Text

/-- The round trip of the disk format, as far as the conversion of JSON values to text is
    faithful: a canonical config is read back from its text, only a canonical one passes the check
    of edited configs, and a config that was read from any text is read back from its own. -/
theorem codec_roundtrip (text : JsonText) (toVec : CanonicalConfig → Except Str ℕ)
    (config : CanonicalConfig) (hfaithful : text.Faithful (toDisk config)) :
    (config.Canonical → parseStatus text (toJsonString text config) = .ok (.present config)) ∧
    (¬ config.Canonical → ∃ e, validateCandidate text toVec config = .error e) ∧
    ∀ raw, parseStatus text raw = .ok (.present config) →
      parseStatus text (toJsonString text config) = .ok (.present config) := by
  refine ⟨fun h => ?_, fun h => ?_, fun raw h => ?_⟩
  · exact parseStatus_toJsonString hfaithful h.shape (UInt32.le_of_eq h.version)
  · -- A candidate that is accepted is canonical, so that another one is refused with an error.
    cases hvalid : validateCandidate text toVec config with
    | error e => exact ⟨e, rfl⟩
    | ok u => exact absurd (canonical_of_validateCandidate hvalid) h
  · -- What was read has the shape of the reader, whichever text it came from.
    obtain ⟨root, hroot⟩ := fromDisk_of_parseStatus h
    obtain ⟨hshape, hversion⟩ := shape_fromDisk hroot
    exact parseStatus_toJsonString hfaithful hshape hversion

/-- A config with one app, for a Java hook and some ports. -/
def portsConfig : CanonicalConfig :=
  let app : AppConfig := { AppConfig.default with
    java := true
    javaHooks := some ["lsposed_network".toList]
    ports := true
    portPolicy := some ⟨"custom".toList, none, [⟨.tcp, 80, 443⟩]⟩ }
  { CanonicalConfig.default with apps := (∅ : StrMap AppConfig).insert "org.a".toList app }

/-- Its text. -/
def portsText : JsonText where
  toString _ := '\x7b' :: (
    "\"apps\":\x7b\"org.a\":\x7b\"appHiding\":false,\"java\":[\"lsposed_network\"],\"native\":false," ++
    "\"portPolicy\":\x7b\"mode\":\"custom\",\"rules\":[\x7b\"end\":443,\"protocol\":\"tcp\",\"start\":80\x7d]\x7d," ++
    "\"ports\":true\x7d\x7d,\"debug\":false,\"debugSwitch\":false,\"settings\":\x7b\"autoHiddenPackages\":[]," ++
    "\"autoHideExcludedPackages\":[],\"autoHideVpnName\":false,\"autoHideVpnServices\":true," ++
    "\"optionalFeatures\":[],\"rememberSuperkey\":false\x7d,\"version\":1\x7d").toList
  fromStr _ := .ok (toDisk portsConfig)

/-- A config with ports is read back. -/
theorem codec_roundtrip_ports :
    parseStatus portsText (toJsonString portsText portsConfig) = .ok (.present portsConfig) := by
  have hnone : ∀ s ∈ (∅ : StrSet), CleanName s := fun s hs => absurd hs Std.ExtTreeSet.not_mem_empty
  have hfaithful : portsText.Faithful (toDisk portsConfig) :=
    ⟨Str.trim_ne_nil List.mem_cons_self (by decide), rfl⟩
  refine (codec_roundtrip portsText (fun _ => .ok 0) portsConfig hfaithful).1
    ⟨rfl, ?_, hnone, hnone, hnone⟩
  intro pkg app happ
  rw [portsConfig, Std.ExtTreeMap.getElem?_insert] at happ
  split_ifs at happ
  · obtain rfl := Option.some.inj happ
    refine ⟨rfl, ?_, ⟨by rintro hooks ⟨⟩, by rintro hooks ⟨⟩⟩, ?_⟩
    · rintro hooks ⟨⟩
      exact ⟨rfl, List.cons_ne_nil _ _, List.forall_mem_singleton.2 ⟨by decide, by decide⟩⟩
    · rintro policy ⟨⟩
      exact ⟨rfl, List.cons_ne_nil _ _,
        List.forall_mem_singleton.2 ⟨by decide, by decide, by decide⟩, by rintro s ⟨⟩⟩
  · simp at happ

end VpnHide.Config

import VpnHide.Config.Model
import VpnHide.Lib.Json

/-!
# The disk format of the config

The JSON in which the config is stored and exchanged (`core-rpc/src/canonical.rs`). A role is
a Boolean, a list of hooks or an object; missing fields have defaults, and names are trimmed
when they are read. `parseStatus` checks the shape of a text before it reads it.

An edited config is accepted by Core when its text fits and is read back as that config
(`validateCandidate`).
-/

namespace VpnHide.Config

open Lib

/-- The most bytes of a config, as text and in messages. -/
def maxConfigBytes : ℕ := 512 * 1024

/-- The config that was loaded, if there is one that this version reads. -/
inductive ConfigLoad
  | absent
  | present (config : CanonicalConfig)
  | unsupportedVersion (version : UInt32)
  deriving DecidableEq

/-! ## Reading -/

/-- A boolean, or the default if there is none. -/
def boolAt (v : Json) (key : Str) (default : Bool) : Bool :=
  ((v.get key).bind Json.asBool).getD default

/-- A boolean that may be missing. -/
def optBoolAt (v : Option Json) (key : Str) : Option Bool := (v.bind (·.get key)).bind Json.asBool

/-- The names in an array: strings, trimmed, unless they are blank. -/
def names (items : List Json) : List Str :=
  ((items.filterMap Json.asStr).map Str.trim).filter (· ≠ [])

/-- An array of names, if it is one. -/
def stringList (value : Option Json) : Option (List Str) := (value.bind Json.asArray).map names

/-- A set of names, empty if it is no array. -/
def stringSetAt (v : Option Json) (key : Str) : StrSet :=
  (((v.bind (·.get key)).bind Json.asArray).map fun items =>
    Std.ExtTreeSet.ofList (names items)).getD ∅

/-- A role that is a Boolean, or a list of hooks; an empty one disables it. -/
def hookRole : Option Json → Bool × Option (List Str)
  | some (.bool b) => (b, none)
  | some (.array items) =>
    match stringList (some (.array items)) with
    | some (h :: hs) => (true, some (h :: hs))
    | _ => (false, none)
  | _ => (false, none)

/-- `native_role_from_disk`: an object, a list of hooks or a boolean. -/
def nativeRoleFromDisk : Option Json → NativeRole
  | some (.object o) =>
    -- a disabled object drops its overrides
    if ((Json.lookup o "enabled".toList).bind Json.asBool).getD true then
      ⟨true, stringList (Json.lookup o "kernel".toList), stringList (Json.lookup o "zygisk".toList)⟩
    else .default
  | value =>
    match hookRole value with
    | (true, hooks) => ⟨true, hooks, none⟩
    | (false, _) => .default

/-- `u16::try_from`, without zero. -/
def port (n : Int) : Option UInt16 := if 0 < n ∧ n < 2 ^ 16 then some n.toNat.toUInt16 else none

/-- `port_policy::rule`. -/
def rule (protocol : Str) (start stop : Int) : Except Str PortRule := do
  let start ← (port start).elim (.error "Port start must be 1..65535".toList) .ok
  let stop ← (port stop).elim (.error "Port end must be 1..65535".toList) .ok
  if stop < start then .error "Port start must not be greater than end".toList
  else
    let protocol :=
      if protocol = "tcp".toList then .tcp else if protocol = "udp".toList then .udp else .both
    .ok { protocol, start, stop }

/-- `i64::try_from`. -/
def toI64 (n : UInt64) : Option Int := if n.toNat < 2 ^ 63 then some n.toNat else none

/-- `port_rule_from_disk`: a rule whose numbers are ports in order. -/
def portRuleFromDisk (obj : List (Str × Json)) : Option PortRule := do
  let start ← (Json.lookup obj "start".toList).bind Json.asU64
  let stop ← (Json.lookup obj "end".toList).elim (some start) Json.asU64
  let protocol := ((Json.lookup obj "protocol".toList).bind Json.asStr).getD "both".toList
  (rule protocol (← toI64 start) (← toI64 stop)).toOption

/-- `port_policy_from_disk`: a policy with at least one rule that can be read. -/
def portPolicyFromDisk (value : Option Json) : Option PortPolicy := do
  let obj ← (← value).asObject
  let rulesJson ← (← Json.lookup obj "rules".toList).asArray
  if rulesJson = [] then none
  -- one malformed rule drops the whole policy
  let rules ← rulesJson.mapM fun r => do portRuleFromDisk (← r.asObject)
  let mode := ((Json.lookup obj "mode".toList).bind Json.asStr).getD "custom".toList
  let preset := (((Json.lookup obj "preset".toList).bind Json.asStr).map Str.trim).filter (· ≠ [])
  return ⟨mode, preset, rules⟩

/-- `app_from_disk`: the roles of an app; ports are off where its policy cannot be read. -/
def appFromDisk (value : Json) : AppConfig :=
  let (java, javaHooks) := hookRole (value.get "java".toList)
  let portsRequested := ((value.get "ports".toList).bind Json.asBool).getD false
  let policyPresent := (value.get "portPolicy".toList).any fun v => !v.isNull
  let portPolicy :=
    if portsRequested && policyPresent then portPolicyFromDisk (value.get "portPolicy".toList)
      else none
  { java, javaHooks, portPolicy
    native := nativeRoleFromDisk (value.get "native".toList)
    appHiding := ((value.get "appHiding".toList).bind Json.asBool).getD false
    -- no policy means all ports, but a malformed one does not
    ports := portsRequested && (!policyPresent || portPolicy.isSome)
    hidden := ((value.get "hidden".toList).bind Json.asBool).getD false }

/-- The apps that have a role. -/
def appsFromDisk (fields : List (Str × Json)) : StrMap AppConfig :=
  fields.foldl (fun apps (pkg, value) =>
    let app := appFromDisk value
    if app.hasAnyRole then apps.insert pkg app else apps) ∅

/-- The settings, with their defaults. -/
def settingsFromDisk (s : Option Json) : Settings where
  rememberSuperkey := (optBoolAt s "rememberSuperkey".toList).getD Settings.default.rememberSuperkey
  optionalFeatures := stringSetAt s "optionalFeatures".toList
  autoHideVpnServices :=
    (optBoolAt s "autoHideVpnServices".toList).getD Settings.default.autoHideVpnServices
  autoHideVpnName := (optBoolAt s "autoHideVpnName".toList).getD Settings.default.autoHideVpnName
  autoHideExcludedPackages := stringSetAt s "autoHideExcludedPackages".toList
  autoHiddenPackages := stringSetAt s "autoHiddenPackages".toList

/-- `from_disk`: the config of a value whose version is known. -/
def fromDisk (root : Json) : Option CanonicalConfig :=
  let version := (((root.get "version".toList).bind Json.asU64).getD 1).toUInt32
  if 1 < version then none
  else
    let debug := boolAt root "debug".toList false
    some {
      version, debug
      debugSwitch := boolAt root "debugSwitch".toList debug
      apps := appsFromDisk (((root.get "apps".toList).bind Json.asObject).getD [])
      settings := settingsFromDisk (root.get "settings".toList) }

/-! ## The shape -/

/-- The error that names a field. -/
def invalid (field : Str) : Str := "invalid canonical field: ".toList ++ field

/-- The fields that are there are accepted. -/
def check (v : Json) (keys : List Str) (accepts : Json → Bool) : Except Str Unit :=
  keys.forM fun key => if (v.get key).any fun value => !accepts value then .error (invalid key)
    else .ok ()

/-- An array of strings. -/
def isStrings (v : Json) : Bool := v.asArray.any (·.all Json.isString)

/-- What a role is written as: a boolean or a list of hooks. -/
def isRole (v : Json) : Bool := v.isBoolean || isStrings v

/-- The version of the schema, if it is a number. -/
def schemaVersion (root : Json) : Except Str UInt32 :=
  match root.get "version".toList with
  | none => .ok 1
  | some v =>
    match v.asU64 with
    | some n => if n.toNat < 2 ^ 32 then .ok n.toUInt32 else .error (invalid "version".toList)
    | none => .error (invalid "version".toList)

/-- The fields of the settings have the right types. -/
def checkSettings (settings : Json) : Except Str Unit := do
  check settings ["rememberSuperkey".toList, "autoHideVpnServices".toList, "autoHideVpnName".toList]
    Json.isBoolean
  check settings ["optionalFeatures".toList, "autoHideExcludedPackages".toList,
    "autoHiddenPackages".toList] isStrings

/-- The fields of the native role have the right types. -/
def checkNative (native : Json) : Except Str Unit :=
  if native.isObject then do
    check native ["enabled".toList] Json.isBoolean
    check native ["kernel".toList, "zygisk".toList] fun v => v.isNull || isStrings v
  else if isRole native then .ok ()
  else .error (invalid "native".toList)

/-- The name of a protocol. -/
def isProtocol (v : Json) : Bool :=
  v.asStr.any fun s => s = "tcp".toList || s = "udp".toList || s = "both".toList

/-- The policy can be read, and nothing in it is passed over. -/
def checkPolicy (policy : Json) : Except Str Unit := do
  if (portPolicyFromDisk (some policy)).isNone then .error (invalid "portPolicy".toList)
  check policy ["mode".toList] Json.isString
  check policy ["preset".toList] fun v => v.isNull || v.isString
  (((policy.get "rules".toList).bind Json.asArray).getD []).forM fun r =>
    check r ["protocol".toList] isProtocol

/-- The fields of an app have the right types. -/
def checkApp (app : Json) : Except Str Unit := do
  if !app.isObject then .error (invalid "app".toList)
  check app ["java".toList] isRole
  check app ["appHiding".toList, "ports".toList, "hidden".toList] Json.isBoolean
  (app.get "native".toList).forM checkNative
  ((app.get "portPolicy".toList).filter fun p => !p.isNull).forM checkPolicy

/-- Fields that are there have their type: a damaged policy does not become an empty one. -/
def validateDiskShape (root : Json) : Except Str UInt32 := do
  if !root.isObject then .error (invalid "root".toList)
  let version ← schemaVersion root
  -- the fields of a future schema are not looked at
  if 1 < version then return version
  check root ["debug".toList, "debugSwitch".toList] Json.isBoolean
  check root ["apps".toList, "settings".toList] Json.isObject
  (root.get "settings".toList).forM checkSettings
  (((root.get "apps".toList).bind Json.asObject).getD []).forM fun (_, app) => checkApp app
  return version

/-! ## Writing -/

/-- An array of the strings. -/
def jsonStrings (l : List Str) : Json := .array (l.map .string)

/-- The names of a set in their order. -/
def sortedArray (set : StrSet) : Json := jsonStrings set.toList

/-- How a role with hooks is written. -/
def hookRoleValue : Bool → Option (List Str) → Json
  | false, _ => .bool false
  | true, none => .bool true
  | true, some hooks => jsonStrings hooks

/-- A field that is written when there is a value for it. -/
def putSome (fields : List (Str × Json)) (name : Str) (value : Option Json) : List (Str × Json) :=
  value.elim fields (Json.put fields name)

/-- How the native role is written: as short as it can be. -/
def nativeRoleValue (native : NativeRole) : Json :=
  if !native.enabled then .bool false
  else if native.kernel.isNone && native.zygisk.isNone then .bool true
  else
    let o := Json.put [] "enabled".toList (.bool true)
    let o := putSome o "kernel".toList (native.kernel.map jsonStrings)
    .object (putSome o "zygisk".toList (native.zygisk.map jsonStrings))

/-- The name of a protocol. -/
def protocolName : PortProtocol → Str
  | .both => "both".toList
  | .tcp => "tcp".toList
  | .udp => "udp".toList

/-- A port, as a number. -/
def portValue (p : UInt16) : Json := .number (.posInt p.toUInt64)

/-- How a rule is written; the end only where it differs. -/
def portRuleValue (rule : PortRule) : Json :=
  let o := Json.put [] "protocol".toList (.string (protocolName rule.protocol))
  let o := Json.put o "start".toList (portValue rule.start)
  .object (if rule.stop ≠ rule.start then Json.put o "end".toList (portValue rule.stop) else o)

/-- How a policy is written. -/
def portPolicyValue (policy : PortPolicy) : Json :=
  let o := Json.put [] "mode".toList (.string policy.mode)
  let o := putSome o "preset".toList ((policy.preset.filter (· ≠ [])).map .string)
  .object (Json.put o "rules".toList (.array (policy.rules.map portRuleValue)))

/-- `app_to_disk`: the roles of an app, as its file has them. -/
def appToDisk (app : AppConfig) : Json :=
  let o := Json.put [] "java".toList (hookRoleValue app.java app.javaHooks)
  let o := Json.put o "native".toList (nativeRoleValue app.native)
  let o := Json.put o "appHiding".toList (.bool app.appHiding)
  let o := Json.put o "ports".toList (.bool app.ports)
  let o := putSome o "portPolicy".toList (if app.ports then app.portPolicy.map portPolicyValue
    else none)
  .object (if app.hidden then Json.put o "hidden".toList (.bool true) else o)

/-- The apps that have a role. -/
def appsToDisk (apps : StrMap AppConfig) : List (Str × Json) :=
  apps.toList.foldl (fun o (pkg, app) => if app.hasAnyRole then Json.put o pkg (appToDisk app)
    else o) []

/-- How the settings are written. -/
def settingsToDisk (settings : Settings) : Json :=
  let o := Json.put [] "rememberSuperkey".toList (.bool settings.rememberSuperkey)
  let o := Json.put o "optionalFeatures".toList (sortedArray settings.optionalFeatures)
  let o := Json.put o "autoHideVpnServices".toList (.bool settings.autoHideVpnServices)
  let o := Json.put o "autoHideVpnName".toList (.bool settings.autoHideVpnName)
  let o := Json.put o "autoHideExcludedPackages".toList
    (sortedArray settings.autoHideExcludedPackages)
  .object (Json.put o "autoHiddenPackages".toList (sortedArray settings.autoHiddenPackages))

/-- `to_disk`: the config as a value. -/
def toDisk (config : CanonicalConfig) : Json :=
  let o := Json.put [] "version".toList (.number (.posInt config.version.toUInt64))
  let o := Json.put o "debug".toList (.bool config.debug)
  let o := Json.put o "debugSwitch".toList (.bool config.debugSwitch)
  let o := Json.put o "apps".toList (.object (appsToDisk config.apps))
  .object (Json.put o "settings".toList (settingsToDisk config.settings))

/-! ## Texts -/

section Text

variable (text : JsonText)

/-- `parse_status`: what a text is to the reader of configs. -/
def parseStatus (raw : Str) : Except Str ConfigLoad := do
  if Str.trim raw = [] then return .absent
  let root ← (text.fromStr raw).mapError ("config parse: ".toList ++ ·)
  let version ← validateDiskShape root
  if 1 < version then return .unsupportedVersion version
  return (fromDisk root).elim (.unsupportedVersion version) .present

/-- `to_json_string`: the text of a config. -/
def toJsonString (config : CanonicalConfig) : Str := text.toString (toDisk config)

/-- The check of an edited config, with the size of its encoding in messages. -/
def validateCandidate (toVec : CanonicalConfig → Except Str ℕ) (candidate : CanonicalConfig) :
    Except Str Unit := do
  if candidate.version ≠ 1 then .error "unsupported canonical config version".toList
  let json := toJsonString text candidate
  if maxConfigBytes < (Str.toUtf8 json).length then .error "canonical config exceeds 512 KiB".toList
  if maxConfigBytes < (← toVec candidate) then .error "canonical RPC config exceeds 512 KiB".toList
  match parseStatus text json with
  | .ok (.present parsed) =>
    if parsed = candidate then .ok ()
      else .error "config does not round-trip through the canonical codec".toList
  | _ => .error "config does not round-trip through the canonical codec".toList

end Text

end VpnHide.Config

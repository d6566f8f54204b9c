import VpnHide.Lib.Str

/-!
# The canonical config

The policy that Core owns (`crates/core-rpc/src/config.rs`), and the edits of it that a
client may submit (`crates/core-rpc/src/edit.rs`).
-/

namespace VpnHide.Config

open Lib

/-- `BTreeMap<String, V>`. -/
abbrev StrMap (V : Type) := Std.ExtTreeMap Str V

/-- `BTreeSet<String>`. -/
abbrev StrSet := Std.ExtTreeSet Str

/-- Writing at another key. -/
theorem getElem?_insert_of_ne {κ V : Type} [Ord κ] [Std.TransOrd κ] [Std.LawfulEqOrd κ]
    {m : Std.ExtTreeMap κ V} {k k' : κ} (h : k ≠ k') (v : V) : (m.insert k v)[k']? = m[k']? := by
  rw [Std.ExtTreeMap.getElem?_insert, if_neg]
  rwa [Std.LawfulEqCmp.compare_eq_iff_eq]

/-- The native role, and the hooks of either family that it is restricted to. -/
structure NativeRole where
  enabled : Bool
  kernel : Option (List Str)
  zygisk : Option (List Str)
  deriving DecidableEq

/-- The protocols that a rule of ports is for. -/
inductive PortProtocol
  | both
  | tcp
  | udp
  deriving DecidableEq

/-- A range of ports to keep an app from. -/
structure PortRule where
  protocol : PortProtocol
  start : UInt16
  stop : UInt16
  deriving DecidableEq

/-- The ports to keep an app from, chosen one by one or as a preset. -/
structure PortPolicy where
  mode : Str
  preset : Option Str
  rules : List PortRule
  deriving DecidableEq

/-- The roles of an app. -/
structure AppConfig where
  java : Bool
  javaHooks : Option (List Str)
  native : NativeRole
  appHiding : Bool
  ports : Bool
  portPolicy : Option PortPolicy
  hidden : Bool
  deriving DecidableEq

/-- The settings of all apps together. -/
structure Settings where
  rememberSuperkey : Bool
  optionalFeatures : StrSet
  autoHideVpnServices : Bool
  autoHideVpnName : Bool
  autoHideExcludedPackages : StrSet
  autoHiddenPackages : StrSet
  deriving DecidableEq

/-- The config, as Core has it. -/
structure CanonicalConfig where
  version : UInt32
  debug : Bool
  /-- What the user has chosen for `debug`, from which it differs during a capture. -/
  debugSwitch : Bool
  apps : StrMap AppConfig
  settings : Settings
  deriving DecidableEq

/-- The native role that nothing is chosen for. -/
def NativeRole.default : NativeRole := ⟨false, none, none⟩

/-- An app without roles. -/
def AppConfig.default : AppConfig := ⟨false, none, NativeRole.default, false, false, none, false⟩

/-- The settings that nothing is chosen for. -/
def Settings.default : Settings := ⟨false, ∅, true, false, ∅, ∅⟩

/-- The config that nothing is chosen for. -/
def CanonicalConfig.default : CanonicalConfig := ⟨1, false, false, ∅, Settings.default⟩

/-- The app has some role; without one it is not written. -/
def AppConfig.hasAnyRole (app : AppConfig) : Bool :=
  app.java || app.native.enabled || app.appHiding || app.ports || app.hidden

/-! ## Edits -/

/-- The switches of the config. -/
inductive ConfigToggle
  | filesystem
  | debug
  | debugSwitch
  | rememberSuperkey
  | autoHideServices
  | autoHideName
  deriving DecidableEq

/-- The sets of the settings. -/
inductive ConfigSetField
  | optionalFeatures
  | autoHideExcludedPackages
  | autoHiddenPackages
  deriving DecidableEq

/-- The roles of an app. -/
inductive ConfigAppField
  | java
  | native
  | appHiding
  | ports
  | hidden
  deriving DecidableEq

/-- What can be changed in a config. -/
inductive ConfigEdit
  | batch (edits : List ConfigEdit)
  | toggle (field : ConfigToggle) (enabled : Bool)
  | settingSet (field : ConfigSetField) (values : StrSet)
  | app (pkg : Str) (field : ConfigAppField) (value : AppConfig)
  | removeApp (pkg : Str)
  | replace (config : CanonicalConfig)
  | repairActivation

mutual

/-- `==` of edits. -/
def ConfigEdit.beq : ConfigEdit → ConfigEdit → Bool
  | .batch edits, .batch edits' => ConfigEdit.beqList edits edits'
  | .toggle field enabled, .toggle field' enabled' => field = field' && enabled = enabled'
  | .settingSet field values, .settingSet field' values' => field = field' && values = values'
  | .app pkg field value, .app pkg' field' value' => pkg = pkg' && field = field' && value = value'
  | .removeApp pkg, .removeApp pkg' => pkg = pkg'
  | .replace config, .replace config' => config = config'
  | .repairActivation, .repairActivation => true
  | _, _ => false

/-- Lists of edits are compared one by one. -/
def ConfigEdit.beqList : List ConfigEdit → List ConfigEdit → Bool
  | [], [] => true
  | edit :: edits, edit' :: edits' => ConfigEdit.beq edit edit' && ConfigEdit.beqList edits edits'
  | _, _ => false

end

instance : BEq ConfigEdit := ⟨ConfigEdit.beq⟩

end VpnHide.Config

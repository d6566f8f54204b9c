import Mathlib.Data.Finset.Basic
import Mathlib.Data.Finset.Lattice.Basic
import Mathlib.Data.List.Sort
import VpnHide.Checks.Measurement

/-!
# Assessing a diagnostic run

`DiagnosticRun::assessment` of `diagnostic-model/src/assessment.rs` merges what seven sources of
evidence say into three lists: the required checks that are proven, those that leak, and those
that are not verified. Native proof counts only with a qualified sample of what the app itself
could see; a leak counts in any case.

`mem_leaked` and `mem_proven` say which checks get into the lists, and the rest follows from
these: the lists part the required checks, nothing is proven without its evidence, no leak is
masked, and evidence that is taken away proves nothing new.
-/

namespace VpnHide.Checks

open Lib

/-! ## Checks and plans -/

/-- The checks that a plan may ask for. -/
inductive RequiredCheck
  | ioctlFlags
  | ioctlMtu
  | getifaddrs
  | netlinkLinks
  | ioctlAddresses
  | bindToDevice
  | netlinkAddresses
  | netlinkRoutes
  | netlinkRules
  | procRoutes
  | procInterfaces
  | sysInterfaces
  | frameworkNetworks
  | frameworkDefaultNetwork
  | frameworkCapabilities
  | frameworkLinkProperties
  | frameworkLegacyInfo
  | frameworkCallbacks
  | frameworkPendingIntent
  | packageVisibility
  | ports
  | filesystem
  deriving DecidableEq

namespace RequiredCheck

/-- In the order of the checks. -/
def all : List RequiredCheck :=
  [ioctlFlags, ioctlMtu, getifaddrs, netlinkLinks, ioctlAddresses, bindToDevice, netlinkAddresses,
    netlinkRoutes, netlinkRules, procRoutes, procInterfaces, sysInterfaces, frameworkNetworks,
    frameworkDefaultNetwork, frameworkCapabilities, frameworkLinkProperties, frameworkLegacyInfo,
    frameworkCallbacks, frameworkPendingIntent, packageVisibility, ports, filesystem]

theorem mem_all (c : RequiredCheck) : c ∈ all := by cases c <;> decide

theorem nodup_all : all.Nodup := by decide

instance : LE RequiredCheck := ⟨fun a b => all.idxOf a ≤ all.idxOf b⟩

instance : DecidableLE RequiredCheck := fun _ _ => inferInstanceAs (Decidable (_ ≤ _))

/-- The members of a set, in order. -/
def sorted (s : Finset RequiredCheck) : List RequiredCheck := all.filter (· ∈ s)

/-- Sorting loses no check. -/
theorem mem_sorted {s : Finset RequiredCheck} {c : RequiredCheck} : c ∈ sorted s ↔ c ∈ s := by
  simp [sorted, mem_all]

theorem nodup_sorted (s : Finset RequiredCheck) : (sorted s).Nodup := nodup_all.filter _

end RequiredCheck

/-- The number of the present contract. -/
def diagnosticContract : ℕ := 9

/-- What a run has to prove, under which contract. -/
structure DiagnosticPlan where
  contract : ℕ
  required : List RequiredCheck
  deriving DecidableEq

/-- What is always required, as it is written down. -/
def baseChecks : List RequiredCheck :=
  [.ioctlFlags, .ioctlMtu, .getifaddrs, .netlinkLinks, .ioctlAddresses, .bindToDevice,
    .netlinkAddresses, .netlinkRoutes, .netlinkRules, .procRoutes, .procInterfaces,
    .frameworkNetworks, .frameworkDefaultNetwork, .frameworkCapabilities, .frameworkLinkProperties,
    .frameworkLegacyInfo, .frameworkCallbacks, .frameworkPendingIntent]

/-- What the enabled features add. -/
def featureChecks (filesystem packages ports : Bool) : List RequiredCheck :=
  (if filesystem then [.sysInterfaces, .filesystem] else []) ++
    (if packages then [.packageVisibility] else []) ++ if ports then [.ports] else []

/-- `DiagnosticPlan::supported`: the checks that there are, with the features that are turned on. -/
def DiagnosticPlan.supported (filesystem packages ports : Bool) : DiagnosticPlan where
  contract := diagnosticContract
  required := (baseChecks ++ featureChecks filesystem packages ports).insertionSort (· ≤ ·)

/-! ## Evidence -/

/-- The result of a family of checks on one surface. -/
structure Scoped (κ : Type*) where
  proven : List κ
  leaked : List κ
  controls : List ControlFailure
  deriving DecidableEq

/-- Nothing is missing, nothing leaks and no control failed. -/
def Scoped.complete {κ : Type*} [DecidableEq κ] (required : List κ) (s : Scoped κ) : Bool :=
  s.controls.isEmpty && s.leaked.isEmpty && required.all (· ∈ s.proven)

/-- The checks of the interface fixture. -/
inductive NativeCheck
  | ioctlFlags
  | ioctlMtu
  | getifaddrs
  | netlinkGetlink
  deriving DecidableEq

/-- What the interface fixture showed. -/
inductive ScopedNativeResult
  | proven (checks : List NativeCheck)
  | leaked (checks : List NativeCheck) (incomplete : List ControlFailure)
  | unverified (reason : ControlFailure) (observedLeaks : List NativeCheck)
  deriving DecidableEq

/-- The ways by which an address can be read. -/
inductive AddressVector
  | ioctlAddress
  | ioctlNetmask
  | ioctlBroadcast
  | ioctlDestination
  | ifconfData
  | ifconfSize
  | getifaddrsIpv4
  | getifaddrsIpv6
  | netlinkIpv4
  | netlinkIpv6
  deriving DecidableEq

/-- All ways, in the order of the source. -/
def AddressVector.all : List AddressVector :=
  [ioctlAddress, ioctlNetmask, ioctlBroadcast, ioctlDestination, ifconfData, ifconfSize,
    getifaddrsIpv4, getifaddrsIpv6, netlinkIpv4, netlinkIpv6]

/-- A way to read an address, and by what calls. -/
structure AddressCheck where
  actor : NativeReadActor
  vector : AddressVector
  deriving DecidableEq

/-- `getifaddrs` has no system call of its own. -/
def AddressCheck.required : List AddressCheck :=
  NativeReadActor.all.flatMap fun actor =>
    (AddressVector.all.filter fun v => actor = .libc ||
      !(v = .getifaddrsIpv4 || v = .getifaddrsIpv6)).map
      fun vector => ⟨actor, vector⟩

/-- The files of interfaces under `/proc/net`. -/
inductive ProcInterfaceSurface
  | deviceStats
  | ipv6Addresses
  deriving DecidableEq

/-- All of them, in the order of the source. -/
def ProcInterfaceSurface.all : List ProcInterfaceSurface := [deviceStats, ipv6Addresses]

/-- A file of interfaces, and by what calls it is read. -/
structure ProcInterfaceCheck where
  actor : NativeReadActor
  surface : ProcInterfaceSurface
  deriving DecidableEq

/-- Both files by both kinds of calls. -/
def ProcInterfaceCheck.required : List ProcInterfaceCheck :=
  NativeReadActor.all.flatMap fun actor => ProcInterfaceSurface.all.map fun surface =>
    ⟨actor, surface⟩

/-- By what calls a socket is bound. -/
inductive BindActor
  | libc
  | syscall
  deriving DecidableEq

/-- Both, in the order of the source. -/
def BindActor.all : List BindActor := [libc, syscall]

/-- The checks of the framework of Android. -/
inductive FrameworkCheck
  | networks
  | capabilities
  | linkProperties
  | legacyTypeVpn
  | legacyEnumeration
  deriving DecidableEq

/-- Why the controls of the framework do not hold. -/
inductive FrameworkControlFailure
  | invalidEnvelope
  | identityChanged
  | missingNegativeControl
  | missingPositiveControl
  | sourceChanged
  | productionPathNotObserved
  | ordinaryObjectsChanged
  | probeUnavailable
  | cleanupUnconfirmed
  deriving DecidableEq

/-- What was found of the framework. -/
structure ScopedFrameworkResult where
  proven : List FrameworkCheck
  leaked : List FrameworkCheck
  controls : List FrameworkControlFailure
  deriving DecidableEq

/-! ## The app's own sample -/

/-- The thread that was measured; start times tell it from later ones of the same number. -/
structure DiagnosticThreadIdentity where
  uid : UInt32
  pid : UInt32
  processStartTicks : UInt64
  tid : UInt32
  threadStartTicks : UInt64
  deriving DecidableEq

/-- The steps of a raw measurement. -/
inductive NativeRawStage
  | arm
  | registration
  | activation
  | measurement
  | revocation
  deriving DecidableEq

/-- What became of the raw measurement, and of which thread it was. -/
inductive NativeRawReceipt
  | unsupportedBackend (identity : DiagnosticThreadIdentity)
  | capabilityAbsent (identity : DiagnosticThreadIdentity)
  | failed (identity : DiagnosticThreadIdentity) (stage : NativeRawStage)
      (sample : Option NativeMeasurement)
  | paired (identity : DiagnosticThreadIdentity) (sample : NativeMeasurement)
  deriving DecidableEq

/-- A sample that a thread of an app took within its grant. -/
def NativeRawReceipt.qualifiedSample : NativeRawReceipt → Option NativeMeasurement
  | .paired identity sample =>
    if 10000 ≤ identity.uid && 0 < identity.pid && 0 < identity.tid &&
      0 < identity.processStartTicks && 0 < identity.threadStartTicks && sample.bounded then
        some sample else none
  | _ => none

/-! ## Runs -/

/-- What a run depends on, as digests. -/
structure DiagnosticFingerprint where
  bootId : Str
  coreEpoch : UInt64
  policySha256 : Str
  runtimeSha256 : Str
  platformSha256 : Option Str
  loadedGenerationsSha256 : Option Str
  loadedGenerationsComplete : Bool
  deriving DecidableEq

/-- `char::is_ascii_hexdigit`. -/
def isAsciiHexdigit (c : Char) : Bool :=
  ('0' ≤ c && c ≤ '9') || ('a' ≤ c && c ≤ 'f') || ('A' ≤ c && c ≤ 'F')

/-- `digest`; only characters of one byte are hexadecimal digits. -/
def isDigest (s : Str) : Bool := s.length = 64 && s.all isAsciiHexdigit

/-- `reusable`: everything in the fingerprint is known and well formed. -/
def DiagnosticFingerprint.reusable (f : DiagnosticFingerprint) : Bool :=
  !f.bootId.isEmpty && f.coreEpoch ≠ 0 && isDigest f.policySha256 && isDigest f.runtimeSha256 &&
    f.loadedGenerationsComplete && f.platformSha256.any isDigest &&
      f.loadedGenerationsSha256.any isDigest

/-- How a run ends, if it has. -/
inductive DiagnosticOutcome
  | running
  | incomplete (native : ScopedNativeResult) (missing : List RequiredCheck)
  | infrastructure (detail : Str) (native : Option ScopedNativeResult)
      (cleanupConfirmed : Option Bool)
  deriving DecidableEq

/-- A run with all its results. -/
structure DiagnosticRun where
  filesystem : Option (Scoped FilesystemCheck)
  sysInterfaces : Option (Scoped SysInterfaceCheck)
  nativeRaw : Option NativeRawReceipt
  procInterfaces : Option (Scoped ProcInterfaceCheck)
  addresses : Option (Scoped AddressCheck)
  binding : Option (Scoped BindActor)
  fingerprint : DiagnosticFingerprint
  plan : DiagnosticPlan
  outcome : DiagnosticOutcome
  framework : Option ScopedFrameworkResult
  stale : Bool
  deriving DecidableEq

/-! ## The assessment -/

/-- How far an assessed run got. -/
inductive AssessmentPhase
  | running
  | incomplete
  | infrastructure
  deriving DecidableEq

/-- Why a result cannot be used again. -/
inductive ReuseBlocker
  | conditionsChanged
  | loadedGenerationsIncomplete
  | platformUnknown
  | loadedGenerationsUnknown
  | invalidFingerprint
  | unsupportedPlan
  deriving DecidableEq

/-- What a run amounts to: each required check is proven, leaked or unverified. -/
structure DiagnosticAssessment where
  phase : AssessmentPhase
  required : List RequiredCheck
  proven : List RequiredCheck
  leaked : List RequiredCheck
  unverified : List RequiredCheck
  nativeControls : List ControlFailure
  frameworkControls : List FrameworkControlFailure
  reuseBlockers : List ReuseBlocker
  infrastructureDetail : Option Str
  cleanupConfirmed : Option Bool
  deriving DecidableEq

/-- The required check that a check of the interface fixture counts for. -/
def native : NativeCheck → RequiredCheck
  | .ioctlFlags => .ioctlFlags
  | .ioctlMtu => .ioctlMtu
  | .getifaddrs => .getifaddrs
  | .netlinkGetlink => .netlinkLinks

/-- The required check that a way to read an address counts for. -/
def address (check : AddressCheck) : RequiredCheck :=
  match check.vector with
  | .getifaddrsIpv4 | .getifaddrsIpv6 => .getifaddrs
  | .netlinkIpv4 | .netlinkIpv6 => .netlinkAddresses
  | _ => .ioctlAddresses

/-- The two legacy checks feed one required check; a proof needs both of them. -/
def frameworkChecks (checks : List FrameworkCheck) (requireBothLegacy : Bool) :
    Finset RequiredCheck :=
  (checks.filterMap fun
    | .networks => some .frameworkNetworks
    | .capabilities => some .frameworkCapabilities
    | .linkProperties => some .frameworkLinkProperties
    | .legacyTypeVpn | .legacyEnumeration =>
      if !requireBothLegacy ||
        [FrameworkCheck.legacyTypeVpn, .legacyEnumeration].all (· ∈ checks) then
        some .frameworkLegacyInfo
      else none).toFinset

/-- What has been found so far. -/
structure Tally where
  proven : Finset RequiredCheck
  leaked : Finset RequiredCheck
  nativeControls : List ControlFailure

/-- Each failure is named once. -/
def pushNew (controls more : List ControlFailure) : List ControlFailure :=
  more.foldl (fun l c => if c ∈ l then l else l ++ [c]) controls

namespace Tally

/-- The interface result; `getifaddrs` also needs its addresses. -/
def native : Option ScopedNativeResult → Tally
  | some (.proven checks) => ⟨((checks.filter (· ≠ .getifaddrs)).map Checks.native).toFinset, ∅, []⟩
  | some (.leaked checks incomplete) => ⟨∅, (checks.map Checks.native).toFinset, incomplete⟩
  | some (.unverified reason observedLeaks) =>
    ⟨∅, (observedLeaks.map Checks.native).toFinset, [reason]⟩
  | none => ⟨∅, ∅, []⟩

/-- The addresses are added, if they were measured. -/
def addresses (t : Tally) (interfaceGetifaddrs : Bool) : Option (Scoped AddressCheck) → Tally
  | none => t
  | some r =>
    { proven := t.proven ∪
      (([.ioctlAddresses, .netlinkAddresses, .getifaddrs] : List RequiredCheck).filter fun group =>
        (group ≠ .getifaddrs || interfaceGetifaddrs) &&
          (AddressCheck.required.filter fun c => address c = group).all (· ∈ r.proven)).toFinset
      leaked := t.leaked ∪ (r.leaked.map address).toFinset
      nativeControls := pushNew t.nativeControls r.controls }

/-- A surface with one required check. -/
def surface {κ : Type*} [DecidableEq κ] (t : Tally) (check : RequiredCheck) (required : List κ) :
    Option (Scoped κ) → Tally
  | none => t
  | some r =>
    { proven := if r.complete required then insert check t.proven else t.proven
      leaked := if r.leaked.isEmpty then t.leaked else insert check t.leaked
      nativeControls := pushNew t.nativeControls r.controls }

/-- The files of interfaces are added. -/
def procInterfaces (t : Tally) : Option (Scoped ProcInterfaceCheck) → Tally :=
  t.surface .procInterfaces ProcInterfaceCheck.required

/-- The files are only looked at when the plan asks for them. -/
def filesystem (t : Tally) (plan : DiagnosticPlan) (r : Option (Scoped FilesystemCheck)) : Tally :=
  if .filesystem ∈ plan.required then t.surface .filesystem FilesystemCheck.required r else t

/-- The directories of interfaces are added, if the plan asks for them. -/
def sysInterfaces (t : Tally) (plan : DiagnosticPlan) (r : Option (Scoped SysInterfaceCheck)) :
    Tally :=
  if .sysInterfaces ∈ plan.required then t.surface .sysInterfaces SysInterfaceCheck.required r
    else t

/-- The binding of sockets is added. -/
def binding (t : Tally) : Option (Scoped BindActor) → Tally := t.surface .bindToDevice BindActor.all

/-- Without a qualified sample there is no native proof; the leaks stay. -/
def requireRaw (t : Tally) (phase : AssessmentPhase) (sample : Option NativeMeasurement) : Tally :=
  if sample.isSome then t
  else
    { t with
      proven := ∅
      nativeControls :=
        if phase ≠ .running && .missingPositiveControl ∉ t.nativeControls then
          t.nativeControls ++ [.missingPositiveControl]
        else t.nativeControls }

/-- The framework is added, if it was measured. -/
def framework (t : Tally) : Option ScopedFrameworkResult → Tally
  | none => t
  | some r =>
    { t with
      proven := t.proven ∪ frameworkChecks r.proven true
      leaked := t.leaked ∪ frameworkChecks r.leaked false }

end Tally

namespace DiagnosticRun

/-- `reuse_blockers`: all reasons not to use a result again. -/
def reuseBlockers (r : DiagnosticRun) (required : List RequiredCheck) : List ReuseBlocker :=
  let blockers := (if r.stale then [.conditionsChanged] else []) ++
    (if !r.fingerprint.loadedGenerationsComplete then [.loadedGenerationsIncomplete] else []) ++
    (if r.fingerprint.platformSha256.isNone then [.platformUnknown] else []) ++
    if r.fingerprint.loadedGenerationsSha256.isNone then
      [ReuseBlocker.loadedGenerationsUnknown] else []
  let blockers :=
    if !r.fingerprint.reusable && blockers.isEmpty then blockers ++ [.invalidFingerprint]
      else blockers
  if r.plan.contract ≠ diagnosticContract || r.plan.required ≠ required then
    blockers ++ [.unsupportedPlan]
  else blockers

/-- How far a run got. -/
def phase (r : DiagnosticRun) : AssessmentPhase :=
  match r.outcome with
  | .running => .running
  | .incomplete .. => .incomplete
  | .infrastructure .. => .infrastructure

/-- The interface result of a run that has one. -/
def result (r : DiagnosticRun) : Option ScopedNativeResult :=
  match r.outcome with
  | .running => none
  | .incomplete native _ => some native
  | .infrastructure _ native _ => native

/-- `getifaddrs` is proven by the interface fixture. -/
def interfaceGetifaddrs (r : DiagnosticRun) : Bool :=
  match r.result with
  | some (.proven checks) => NativeCheck.getifaddrs ∈ checks
  | _ => false

/-- What the native sources say. -/
def nativeTally (r : DiagnosticRun) : Tally :=
  (((((Tally.native r.result).addresses r.interfaceGetifaddrs r.addresses).procInterfaces
    r.procInterfaces).filesystem
    r.plan r.filesystem).sysInterfaces r.plan r.sysInterfaces).binding r.binding

/-- All results of a run together. -/
def tally (r : DiagnosticRun) : Tally :=
  (r.nativeTally.requireRaw r.phase (r.nativeRaw.bind (·.qualifiedSample))).framework r.framework

/-- `assessment`: what a run amounts to. -/
def assessment (r : DiagnosticRun) : DiagnosticAssessment :=
  let required := (DiagnosticPlan.supported (.filesystem ∈ r.plan.required)
    (.packageVisibility ∈ r.plan.required) (.ports ∈ r.plan.required)).required
  let t := r.tally
  let proven := t.proven.filter (· ∉ t.leaked)
  { phase := r.phase
    required
    proven := RequiredCheck.sorted proven
    leaked := RequiredCheck.sorted t.leaked
    unverified := required.filter fun c => c ∉ proven && c ∉ t.leaked
    nativeControls := t.nativeControls
    frameworkControls := (r.framework.map (·.controls)).getD []
    reuseBlockers := r.reuseBlockers required
    infrastructureDetail :=
      match r.outcome with
      | .infrastructure detail _ _ => some detail
      | _ => none
    cleanupConfirmed :=
      match r.outcome with
      | .infrastructure _ _ cleanupConfirmed => cleanupConfirmed
      | _ => none }

end DiagnosticRun

/-! ## What counts -/

/-- The required check that a framework check belongs to. -/
def frameworkCheck : FrameworkCheck → RequiredCheck
  | .networks => .frameworkNetworks
  | .capabilities => .frameworkCapabilities
  | .linkProperties => .frameworkLinkProperties
  | .legacyTypeVpn | .legacyEnumeration => .frameworkLegacyInfo

/-- The leaks that an interface result names. -/
def ScopedNativeResult.leaks : ScopedNativeResult → List NativeCheck
  | .proven _ => []
  | .leaked checks _ => checks
  | .unverified _ observedLeaks => observedLeaks

/-- A scoped result names a leak of the check. -/
inductive Leak (r : DiagnosticRun) : RequiredCheck → Prop
  | native {s : ScopedNativeResult} {k : NativeCheck} : r.result = some s →
      k ∈ s.leaks → Leak r (native k)
  | addresses {s : Scoped AddressCheck} {k : AddressCheck} : r.addresses = some s →
      k ∈ s.leaked → Leak r (address k)
  | procInterfaces {s : Scoped ProcInterfaceCheck} : r.procInterfaces = some s → s.leaked ≠ [] →
      Leak r .procInterfaces
  | filesystem {s : Scoped FilesystemCheck} : r.filesystem = some s →
      s.leaked ≠ [] → Leak r .filesystem
  | sysInterfaces {s : Scoped SysInterfaceCheck} : r.sysInterfaces = some s → s.leaked ≠ [] →
      Leak r .sysInterfaces
  | binding {s : Scoped BindActor} : r.binding = some s → s.leaked ≠ [] → Leak r .bindToDevice
  | framework {s : ScopedFrameworkResult} {k : FrameworkCheck} :
    r.framework = some s → k ∈ s.leaked → Leak r (frameworkCheck k)

/-- The proof of a surface: all of its checks are proven, none leaks and no control failed. -/
def SurfaceProof {κ : Type*} (required : List κ) (o : Option (Scoped κ)) : Prop :=
  ∃ s, o = some s ∧ (∀ c ∈ required, c ∈ s.proven) ∧ s.leaked = [] ∧ s.controls = []

/-- The address checks of a group are proven. -/
def AddressProof (r : DiagnosticRun) (group : RequiredCheck) : Prop :=
  ∃ s, r.addresses = some s ∧ ∀ c ∈ AddressCheck.required, address c = group → c ∈ s.proven

/-- The interface fixture proves a check. -/
def InterfaceProof (r : DiagnosticRun) (k : NativeCheck) : Prop :=
  ∃ checks, r.result = some (.proven checks) ∧ k ∈ checks

/-- The native evidence for a check, by its sources. -/
def NativeProof (r : DiagnosticRun) : RequiredCheck → Prop
  | .ioctlFlags => InterfaceProof r .ioctlFlags
  | .ioctlMtu => InterfaceProof r .ioctlMtu
  | .netlinkLinks => InterfaceProof r .netlinkGetlink
  | .getifaddrs => InterfaceProof r .getifaddrs ∧ AddressProof r .getifaddrs
  | .ioctlAddresses => AddressProof r .ioctlAddresses
  | .netlinkAddresses => AddressProof r .netlinkAddresses
  | .procInterfaces => SurfaceProof ProcInterfaceCheck.required r.procInterfaces
  | .bindToDevice => SurfaceProof BindActor.all r.binding
  | .sysInterfaces =>
    .sysInterfaces ∈ r.plan.required ∧ SurfaceProof SysInterfaceCheck.required r.sysInterfaces
  | .filesystem =>
    .filesystem ∈ r.plan.required ∧ SurfaceProof FilesystemCheck.required r.filesystem
  | _ => False

/-- The framework evidence for a check. -/
def FrameworkProof (r : DiagnosticRun) (c : RequiredCheck) : Prop :=
  ∃ s, r.framework = some s ∧ c ∈ frameworkChecks s.proven true

/-! ## The lists -/

section Lists

variable {r : DiagnosticRun} {c : RequiredCheck} {t : Tally}

theorem Scoped.complete_iff {κ : Type*} [DecidableEq κ] {required : List κ} {s : Scoped κ} :
    s.complete required = true ↔ (∀ c ∈ required, c ∈ s.proven) ∧ s.leaked = [] ∧
      s.controls = [] := by
  simp only [complete, Bool.and_eq_true, List.isEmpty_iff, List.all_eq_true, decide_eq_true_eq]
  tauto

/-- What a surface adds to what is proven. -/
theorem mem_surface_proven {κ : Type*} [DecidableEq κ] {check : RequiredCheck} {required : List κ}
    {o : Option (Scoped κ)} :
    c ∈ (t.surface check required o).proven ↔
      c ∈ t.proven ∨ c = check ∧ SurfaceProof required o := by
  cases o with
  | none => simp [Tally.surface, SurfaceProof]
  | some s =>
    simp only [Tally.surface, SurfaceProof, Option.some.injEq, exists_eq_left',
      ← Scoped.complete_iff]
    split_ifs with h
    · simp [h, or_comm]
    · simp [h]

/-- What a surface adds to what leaks. -/
theorem mem_surface_leaked {κ : Type*} [DecidableEq κ] {check : RequiredCheck} {required : List κ}
    {o : Option (Scoped κ)} :
    c ∈ (t.surface check required o).leaked ↔
      c ∈ t.leaked ∨ c = check ∧ ∃ s, o = some s ∧ s.leaked ≠ [] := by
  cases o with
  | none => simp [Tally.surface]
  | some s =>
    simp only [Tally.surface, Option.some.injEq, exists_eq_left', List.isEmpty_iff]
    split_ifs with h
    · simp [h]
    · simp [h, or_comm]

/-- A surface that the plan has to ask for. -/
theorem mem_planned_proven {κ : Type*} [DecidableEq κ] {check : RequiredCheck} {required : List κ}
    {o : Option (Scoped κ)} {plan : DiagnosticPlan} :
    c ∈ (if check ∈ plan.required then t.surface check required o else t).proven ↔
      c ∈ t.proven ∨ c = check ∧ check ∈ plan.required ∧ SurfaceProof required o := by
  split_ifs with h
  · simp [mem_surface_proven, h]
  · simp [h]

/-- A surface leaks only if the plan asks for it. -/
theorem mem_planned_leaked {κ : Type*} [DecidableEq κ] {check : RequiredCheck} {required : List κ}
    {o : Option (Scoped κ)} {plan : DiagnosticPlan} :
    c ∈ (if check ∈ plan.required then t.surface check required o else t).leaked ↔
      c ∈ t.leaked ∨ c = check ∧ check ∈ plan.required ∧ ∃ s, o = some s ∧ s.leaked ≠ [] := by
  split_ifs with h
  · simp [mem_surface_leaked, h]
  · simp [h]

/-- What the interface fixture proves. -/
theorem mem_native_proven :
    c ∈ (Tally.native r.result).proven ↔ ∃ k, k ≠ .getifaddrs ∧ native k = c ∧
      InterfaceProof r k := by
  unfold InterfaceProof
  cases r.result with
  | none => simp [Tally.native]
  | some s =>
    cases s with
    | proven checks =>
      simp only [Tally.native, List.mem_toFinset, List.mem_map, List.mem_filter, decide_eq_true_eq,
        Option.some.injEq, ScopedNativeResult.proven.injEq, exists_eq_left']
      exact exists_congr fun k => by tauto
    | leaked checks incomplete => simp [Tally.native]
    | unverified reason observedLeaks => simp [Tally.native]

/-- What the interface fixture shows to leak. -/
theorem mem_native_leaked :
    c ∈ (Tally.native r.result).leaked ↔ ∃ s k, r.result = some s ∧ k ∈ s.leaks ∧ native k = c := by
  cases r.result with
  | none => simp [Tally.native]
  | some s => cases s <;> simp [Tally.native, ScopedNativeResult.leaks]

/-- When `getifaddrs` is proven. -/
theorem interfaceGetifaddrs_iff : r.interfaceGetifaddrs = true ↔ InterfaceProof r .getifaddrs := by
  unfold DiagnosticRun.interfaceGetifaddrs InterfaceProof
  cases r.result with
  | none => simp
  | some s => cases s <;> simp

/-- What the addresses add to what is proven. -/
theorem mem_addresses_proven {b : Bool} :
    c ∈ (t.addresses b r.addresses).proven ↔
      c ∈ t.proven ∨ ((c = .ioctlAddresses ∨ c = .netlinkAddresses) ∨ c = .getifaddrs ∧ b = true) ∧
        AddressProof r c := by
  unfold AddressProof
  cases r.addresses with
  | none => simp [Tally.addresses]
  | some s =>
    simp only [Tally.addresses, Finset.mem_union, List.mem_toFinset, List.mem_filter, List.mem_cons,
      List.not_mem_nil, or_false, Bool.and_eq_true, Bool.or_eq_true, decide_eq_true_eq,
      List.all_eq_true, Option.some.injEq, exists_eq_left', and_imp]
    refine or_congr_right ?_
    by_cases hc : c = .getifaddrs
    · simp [hc]
    · simp [hc]

/-- What the addresses add to what leaks. -/
theorem mem_addresses_leaked {b : Bool} :
    c ∈ (t.addresses b r.addresses).leaked ↔
      c ∈ t.leaked ∨ ∃ s k, r.addresses = some s ∧ k ∈ s.leaked ∧ address k = c := by
  cases r.addresses with
  | none => simp [Tally.addresses]
  | some s => simp [Tally.addresses]

theorem exists_native_ne_getifaddrs {P : NativeCheck → Prop} :
    (∃ k, k ≠ .getifaddrs ∧ native k = c ∧ P k) ↔
      c = .ioctlFlags ∧ P .ioctlFlags ∨ c = .ioctlMtu ∧ P .ioctlMtu ∨
        c = .netlinkLinks ∧ P .netlinkGetlink := by
  constructor
  · rintro ⟨k, hk, rfl, hP⟩
    cases k with
    | ioctlFlags => exact .inl ⟨rfl, hP⟩
    | ioctlMtu => exact .inr (.inl ⟨rfl, hP⟩)
    | getifaddrs => exact absurd rfl hk
    | netlinkGetlink => exact .inr (.inr ⟨rfl, hP⟩)
  · rintro (⟨rfl, hP⟩ | ⟨rfl, hP⟩ | ⟨rfl, hP⟩)
    · exact ⟨.ioctlFlags, by decide, rfl, hP⟩
    · exact ⟨.ioctlMtu, by decide, rfl, hP⟩
    · exact ⟨.netlinkGetlink, by decide, rfl, hP⟩

/-- The native sources prove what each of them has evidence for. -/
theorem mem_nativeTally_proven : c ∈ r.nativeTally.proven ↔ NativeProof r c := by
  unfold DiagnosticRun.nativeTally Tally.binding Tally.sysInterfaces Tally.filesystem
    Tally.procInterfaces
  rw [mem_surface_proven, mem_planned_proven, mem_planned_proven, mem_surface_proven,
    mem_addresses_proven, mem_native_proven, exists_native_ne_getifaddrs, interfaceGetifaddrs_iff]
  cases c <;> simp [NativeProof]

/-- A leak counts unless it is one of the files, which the plan has to ask for. -/
theorem mem_tally_leaked :
    c ∈ r.tally.leaked ↔ Leak r c ∧
      (c = .filesystem ∨ c = .sysInterfaces → c ∈ r.plan.required) := by
  have hraw : ∀ (t : Tally) phase sample, (t.requireRaw phase sample).leaked = t.leaked := by
    intro t phase sample
    unfold Tally.requireRaw
    split_ifs <;> rfl
  have hframework : ∀ t : Tally, c ∈ (t.framework r.framework).leaked ↔ c ∈ t.leaked ∨
      ∃ s k, r.framework = some s ∧ k ∈ s.leaked ∧ frameworkCheck k = c := by
    intro t
    cases r.framework with
    | none => simp [Tally.framework]
    | some s =>
      simp only [Tally.framework, frameworkChecks, Finset.mem_union, List.mem_toFinset,
        List.mem_filterMap, Option.some.injEq, exists_and_left, exists_eq_left']
      refine or_congr_right (exists_congr fun k => and_congr_right fun _ => ?_)
      cases k <;> simp [frameworkCheck]
  unfold DiagnosticRun.tally DiagnosticRun.nativeTally Tally.binding Tally.sysInterfaces
    Tally.filesystem Tally.procInterfaces
  rw [hframework, hraw, mem_surface_leaked, mem_planned_leaked, mem_planned_leaked,
    mem_surface_leaked, mem_addresses_leaked, mem_native_leaked]
  constructor
  · rintro ((((((⟨s, k, hs, hk, rfl⟩ | ⟨s, k, hs, hk, rfl⟩) | ⟨rfl, s, hs, hne⟩) |
      ⟨rfl, hplan, s, hs, hne⟩) |
      ⟨rfl, hplan, s, hs, hne⟩) | ⟨rfl, s, hs, hne⟩) | ⟨s, k, hs, hk, rfl⟩)
    · exact ⟨.native hs hk, by cases k <;> simp [native]⟩
    · exact ⟨.addresses hs hk, by unfold address; split <;> simp⟩
    · exact ⟨.procInterfaces hs hne, by simp⟩
    · exact ⟨.filesystem hs hne, fun _ => hplan⟩
    · exact ⟨.sysInterfaces hs hne, fun _ => hplan⟩
    · exact ⟨.binding hs hne, by simp⟩
    · exact ⟨.framework hs hk, by cases k <;> simp [frameworkCheck]⟩
  · rintro ⟨h, hplan⟩
    cases h with
    | native hs hk => exact .inl (.inl (.inl (.inl (.inl (.inl ⟨_, _, hs, hk, rfl⟩)))))
    | addresses hs hk => exact .inl (.inl (.inl (.inl (.inl (.inr ⟨_, _, hs, hk, rfl⟩)))))
    | procInterfaces hs hne => exact .inl (.inl (.inl (.inl (.inr ⟨rfl, _, hs, hne⟩))))
    | filesystem hs hne => exact .inl (.inl (.inl (.inr ⟨rfl, hplan (.inl rfl), _, hs, hne⟩)))
    | sysInterfaces hs hne => exact .inl (.inl (.inr ⟨rfl, hplan (.inr rfl), _, hs, hne⟩))
    | binding hs hne => exact .inl (.inr ⟨rfl, _, hs, hne⟩)
    | framework hs hk => exact .inr ⟨_, _, hs, hk, rfl⟩

/-- Native proof needs the app's own sample, that of the framework does not. -/
theorem mem_tally_proven :
    c ∈ r.tally.proven ↔
      (∃ sample, r.nativeRaw.bind (·.qualifiedSample) = some sample) ∧ NativeProof r c ∨
        FrameworkProof r c := by
  have hframework : ∀ t : Tally, c ∈ (t.framework r.framework).proven ↔
      c ∈ t.proven ∨ FrameworkProof r c := by
    intro t
    unfold FrameworkProof
    cases r.framework <;> simp [Tally.framework]
  unfold DiagnosticRun.tally
  rw [hframework, ← mem_nativeTally_proven]
  refine or_congr_left ?_
  unfold Tally.requireRaw
  cases r.nativeRaw.bind (·.qualifiedSample) <;> simp

/-- What leaks: there is a leak, and the plan asks for the check. -/
theorem mem_leaked :
    c ∈ r.assessment.leaked ↔ Leak r c ∧
      (c = .filesystem ∨ c = .sysInterfaces → c ∈ r.plan.required) :=
  RequiredCheck.mem_sorted.trans mem_tally_leaked

/-- What is proven: there is a proof, and no leak. -/
theorem mem_proven :
    c ∈ r.assessment.proven ↔
      ((∃ sample, r.nativeRaw.bind (·.qualifiedSample) = some sample) ∧ NativeProof r c ∨
        FrameworkProof r c) ∧
        c ∉ r.assessment.leaked := by
  rw [← mem_tally_proven]
  refine RequiredCheck.mem_sorted.trans
    (Finset.mem_filter.trans (and_congr_right fun _ => not_congr ?_))
  exact RequiredCheck.mem_sorted.symm

/-- What is unverified is the rest. -/
theorem unverified_eq :
    r.assessment.unverified = r.assessment.required.filter fun c =>
      c ∉ r.tally.proven.filter (· ∉ r.tally.leaked) && c ∉ r.tally.leaked := by
  dsimp only [DiagnosticRun.assessment]

/-- A required check is unverified unless it is proven or leaks. -/
theorem mem_unverified :
    c ∈ r.assessment.unverified ↔
      c ∈ r.assessment.required ∧ c ∉ r.assessment.proven ∧ c ∉ r.assessment.leaked := by
  have hproven : c ∈ r.assessment.proven ↔ c ∈ r.tally.proven.filter (· ∉ r.tally.leaked) :=
    RequiredCheck.mem_sorted
  have hleaked : c ∈ r.assessment.leaked ↔ c ∈ r.tally.leaked := RequiredCheck.mem_sorted
  rw [hproven, hleaked, unverified_eq]
  simp only [List.mem_filter, Bool.and_eq_true, decide_eq_true_eq]

end Lists

/-! ## Plans -/

section Plans

variable {r : DiagnosticRun} {c : RequiredCheck}

/-- The checks of a plan. -/
theorem supported_perm (filesystem packages ports : Bool) :
    (DiagnosticPlan.supported filesystem packages ports).required.Perm
      (baseChecks ++ featureChecks filesystem packages ports) := by
  dsimp only [DiagnosticPlan.supported]
  exact List.perm_insertionSort _ _

theorem mem_supported {filesystem packages ports : Bool} :
    c ∈ (DiagnosticPlan.supported filesystem packages ports).required ↔
      c ∈ baseChecks ++ featureChecks filesystem packages ports :=
  (supported_perm filesystem packages ports).mem_iff

/-- A plan has each check once. -/
theorem nodup_supported (filesystem packages ports : Bool) :
    (DiagnosticPlan.supported filesystem packages ports).required.Nodup := by
  rw [(supported_perm filesystem packages ports).nodup_iff]
  cases filesystem <;> cases packages <;> cases ports <;> decide

/-- The checks that are required. -/
theorem required_eq :
    r.assessment.required = (DiagnosticPlan.supported (.filesystem ∈ r.plan.required)
      (.packageVisibility ∈ r.plan.required) (.ports ∈ r.plan.required)).required := by
  dsimp only [DiagnosticRun.assessment]

/-- A supported plan is what its own features require. -/
theorem required_of_supported {filesystem packages ports : Bool}
    (h : r.plan = .supported filesystem packages ports) :
    r.assessment.required = r.plan.required := by
  have hfilesystem : decide (.filesystem ∈ r.plan.required) = filesystem := by
    rw [h, Bool.decide_congr mem_supported]
    cases filesystem <;> cases packages <;> cases ports <;> decide
  have hpackages : decide (.packageVisibility ∈ r.plan.required) = packages := by
    rw [h, Bool.decide_congr mem_supported]
    cases filesystem <;> cases packages <;> cases ports <;> decide
  have hports : decide (.ports ∈ r.plan.required) = ports := by
    rw [h, Bool.decide_congr mem_supported]
    cases filesystem <;> cases packages <;> cases ports <;> decide
  rw [required_eq, hfilesystem, hpackages, hports, h]

theorem mem_required_of_base (hc : c ∈ baseChecks) : c ∈ r.assessment.required := by
  rw [required_eq, mem_supported]
  exact List.mem_append_left _ hc

/-- A leak is one of a check that there is. -/
theorem Leak.base (h : Leak r c) : c ∈ baseChecks ∨ c = .filesystem ∨ c = .sysInterfaces := by
  cases h with
  | @native s k hs hk => cases k <;> decide
  | @addresses s k hs hk =>
    unfold address
    split <;> decide
  | @framework s k hs hk => cases k <;> decide
  | _ => decide

/-- A proof is one of a check that is required. -/
theorem NativeProof.base (h : NativeProof r c) :
    c ∈ baseChecks ∨ (c = .filesystem ∨ c = .sysInterfaces) ∧ c ∈ r.plan.required := by
  cases c <;> first | exact .inl (by decide) | exact .inr ⟨by decide, h.1⟩ | exact h.elim

/-- So is one of the framework. -/
theorem FrameworkProof.base (h : FrameworkProof r c) : c ∈ baseChecks := by
  obtain ⟨s, -, hc⟩ := h
  simp only [frameworkChecks, List.mem_toFinset, List.mem_filterMap] at hc
  obtain ⟨k, -, hk⟩ := hc
  cases k <;> simp only [Option.ite_none_right_eq_some, Option.some.injEq] at hk <;>
    first | (subst hk; decide) | (obtain ⟨-, rfl⟩ := hk; decide)

/-- With a supported plan, what is proven or leaks is required. -/
theorem mem_required {filesystem packages ports : Bool}
    (h : r.plan = .supported filesystem packages ports)
    (hc : c ∈ r.assessment.proven ∨ c ∈ r.assessment.leaked) : c ∈ r.assessment.required := by
  rw [mem_proven, mem_leaked] at hc
  obtain ⟨⟨-, hproof⟩ | hproof, -⟩ | ⟨hleak, hplan⟩ := hc
  · obtain hbase | ⟨-, hreq⟩ := hproof.base
    · exact mem_required_of_base hbase
    · rwa [required_of_supported h]
  · exact mem_required_of_base hproof.base
  · obtain hbase | hfile := hleak.base
    · exact mem_required_of_base hbase
    · rw [required_of_supported h]
      exact hplan hfile

/-- The three lists are a partition of what a supported plan requires. -/
theorem lists_perm_required {filesystem packages ports : Bool}
    (h : r.plan = .supported filesystem packages ports) :
    (r.assessment.proven ++ r.assessment.leaked ++ r.assessment.unverified).Perm
      r.assessment.required := by
  have hrequired : r.assessment.required.Nodup := by
    rw [required_of_supported h, h]
    exact nodup_supported filesystem packages ports
  have hunverified : r.assessment.unverified.Nodup := by
    rw [unverified_eq]
    exact hrequired.filter _
  have hproven : r.assessment.proven.Nodup := RequiredCheck.nodup_sorted _
  have hleaked : r.assessment.leaked.Nodup := RequiredCheck.nodup_sorted _
  have hdisjoint : List.Disjoint r.assessment.proven r.assessment.leaked :=
    fun c hp => (mem_proven.1 hp).2
  have hrest :
      List.Disjoint (r.assessment.proven ++ r.assessment.leaked) r.assessment.unverified := by
    intro c hc hu
    obtain ⟨-, hp, hl⟩ := mem_unverified.1 hu
    exact (List.mem_append.1 hc).elim hp hl
  have hnodup := (hproven.append hleaked hdisjoint).append hunverified hrest
  refine (List.perm_ext_iff_of_nodup hnodup hrequired).2 fun c => ?_
  rw [List.mem_append, List.mem_append, mem_unverified]
  constructor
  · rintro (hc | hc)
    · exact mem_required h hc
    · exact hc.1
  · intro hc
    by_cases hp : c ∈ r.assessment.proven
    · exact .inl (.inl hp)
    · by_cases hl : c ∈ r.assessment.leaked
      · exact .inl (.inr hl)
      · exact .inr ⟨hc, hp, hl⟩

end Plans

/-! ## Less evidence -/

/-- A result that is gone, or has fewer proofs. -/
def Scoped.Less {κ : Type*} (s' s : Option (Scoped κ)) : Prop :=
  s' = none ∨ ∃ a b, s' = some a ∧ s = some b ∧ a.proven ⊆ b.proven ∧ a.leaked = b.leaked ∧
    a.controls = b.controls

/-- An interface result that is gone, or has fewer proofs. -/
def ScopedNativeResult.Less (s' s : Option ScopedNativeResult) : Prop :=
  s' = none ∨ s' = s ∨ ∃ cs' cs, s' = some (.proven cs') ∧ s = some (.proven cs) ∧ cs' ⊆ cs

/-- A result of the framework that proves less and leaks the same. -/
def ScopedFrameworkResult.Less (s' s : Option ScopedFrameworkResult) : Prop :=
  s' = none ∨ ∃ a b, s' = some a ∧ s = some b ∧ a.proven ⊆ b.proven ∧ a.leaked = b.leaked ∧
    a.controls = b.controls

/-- Evidence has been taken away from a run. -/
structure LessEvidence (r' r : DiagnosticRun) : Prop where
  plan : r'.plan = r.plan
  native : ScopedNativeResult.Less r'.result r.result
  addresses : Scoped.Less r'.addresses r.addresses
  procInterfaces : Scoped.Less r'.procInterfaces r.procInterfaces
  filesystem : Scoped.Less r'.filesystem r.filesystem
  sysInterfaces : Scoped.Less r'.sysInterfaces r.sysInterfaces
  binding : Scoped.Less r'.binding r.binding
  framework : ScopedFrameworkResult.Less r'.framework r.framework
  nativeRaw : r'.nativeRaw = none ∨ r'.nativeRaw = r.nativeRaw

section Less

variable {r r' : DiagnosticRun} {c : RequiredCheck}

/-- What less evidence proves of a surface, more proves too. -/
theorem SurfaceProof.of_less {κ : Type*} {required : List κ} {s' s : Option (Scoped κ)}
    (hless : Scoped.Less s' s) (h : SurfaceProof required s') :
    SurfaceProof required s ∧ ∀ b, s = some b → b.leaked = [] := by
  obtain ⟨a, rfl, hproven, hleaked, hcontrols⟩ := h
  obtain hnone | ⟨a', b, ha, rfl, hsub, hleaked', hcontrols'⟩ := hless
  · cases hnone
  · obtain rfl := Option.some.inj ha
    refine ⟨⟨b, rfl, fun c hc => hsub (hproven c hc), hleaked' ▸ hleaked, hcontrols' ▸ hcontrols⟩,
      ?_⟩
    rintro b' hb
    obtain rfl := Option.some.inj hb
    exact hleaked' ▸ hleaked

/-- What less evidence proves by the interface fixture, more proves too. -/
theorem InterfaceProof.of_less {k : NativeCheck}
    (hless : ScopedNativeResult.Less r'.result r.result) (h : InterfaceProof r' k) :
    InterfaceProof r k := by
  obtain ⟨checks, hresult, hk⟩ := h
  obtain hnone | hsame | ⟨cs', cs, h', hr, hsub⟩ := hless
  · rw [hnone] at hresult
    cases hresult
  · exact ⟨checks, hsame ▸ hresult, hk⟩
  · rw [h'] at hresult
    cases hresult
    exact ⟨cs, hr, hsub hk⟩

/-- What less evidence proves of addresses, more proves too. -/
theorem AddressProof.of_less (hless : Scoped.Less r'.addresses r.addresses)
    (h : AddressProof r' c) :
    AddressProof r c := by
  obtain ⟨a, ha, hproven⟩ := h
  obtain hnone | ⟨a', b, ha', hb, hsub, -⟩ := hless
  · rw [hnone] at ha
    cases ha
  · rw [ha'] at ha
    cases ha
    exact ⟨b, hb, fun k hk hgroup => hsub (hproven k hk hgroup)⟩

/-- What less evidence proves, more proves too. -/
theorem NativeProof.of_less (hless : LessEvidence r' r) (h : NativeProof r' c) :
    NativeProof r c := by
  cases c with
  | ioctlFlags => exact InterfaceProof.of_less hless.native h
  | ioctlMtu => exact InterfaceProof.of_less hless.native h
  | netlinkLinks => exact InterfaceProof.of_less hless.native h
  | getifaddrs =>
    exact ⟨InterfaceProof.of_less hless.native h.1, AddressProof.of_less hless.addresses h.2⟩
  | ioctlAddresses => exact AddressProof.of_less hless.addresses h
  | netlinkAddresses => exact AddressProof.of_less hless.addresses h
  | procInterfaces => exact (SurfaceProof.of_less hless.procInterfaces h).1
  | bindToDevice => exact (SurfaceProof.of_less hless.binding h).1
  | sysInterfaces => exact ⟨hless.plan ▸ h.1, (SurfaceProof.of_less hless.sysInterfaces h.2).1⟩
  | filesystem => exact ⟨hless.plan ▸ h.1, (SurfaceProof.of_less hless.filesystem h.2).1⟩
  | _ => exact h.elim

theorem frameworkChecks_mono {l l' : List FrameworkCheck} (h : l' ⊆ l) {b : Bool} :
    frameworkChecks l' b ⊆ frameworkChecks l b := by
  intro c hc
  simp only [frameworkChecks, List.mem_toFinset, List.mem_filterMap] at hc ⊢
  obtain ⟨k, hk, hc⟩ := hc
  refine ⟨k, h hk, ?_⟩
  cases k with
  | legacyTypeVpn | legacyEnumeration =>
    simp only [Option.ite_none_right_eq_some, Bool.or_eq_true, List.all_eq_true, decide_eq_true_eq]
      at hc ⊢
    exact ⟨hc.1.imp_right fun hall x hx => h (hall x hx), hc.2⟩
  | _ => exact hc

/-- What less evidence proves of the framework, more proves too. -/
theorem FrameworkProof.of_less (hless : LessEvidence r' r) (h : FrameworkProof r' c) :
    FrameworkProof r c := by
  obtain ⟨a, ha, hc⟩ := h
  obtain hnone | ⟨a', b, ha', hb, hsub, -⟩ := hless.framework
  · rw [hnone] at ha
    cases ha
  · rw [ha'] at ha
    cases ha
    exact ⟨b, hb, frameworkChecks_mono hsub hc⟩

theorem FrameworkProof.exists_check (h : FrameworkProof r c) : ∃ k, c = frameworkCheck k := by
  obtain ⟨s, -, hc⟩ := h
  simp only [frameworkChecks, List.mem_toFinset, List.mem_filterMap] at hc
  obtain ⟨k, -, hk⟩ := hc
  refine ⟨k, ?_⟩
  cases k with
  | legacyTypeVpn | legacyEnumeration =>
    simp only [Option.ite_none_right_eq_some, Option.some.injEq] at hk
    exact hk.2.symm
  | _ => exact (Option.some.inj hk).symm

theorem nativeProof_of_ne (h : NativeProof r c ∨ FrameworkProof r c)
    (hne : ∀ k, c ≠ frameworkCheck k) :
    NativeProof r c := by
  refine h.resolve_right fun hframework => ?_
  obtain ⟨k, hk⟩ := hframework.exists_check
  exact hne k hk

/-- The source of a proof still names its leaks. -/
theorem Leak.of_less (hless : LessEvidence r' r) (hproof : NativeProof r' c ∨ FrameworkProof r' c)
    (h : Leak r c) :
    Leak r' c := by
  cases h with
  | @native s k hs hk =>
    -- an interface result with proofs has no leaks
    have hinterface : InterfaceProof r' k := by
      have hnative := nativeProof_of_ne hproof fun f hf => by cases k <;> cases f <;> cases hf
      cases k with
      | getifaddrs => exact hnative.1
      | _ => exact hnative
    obtain ⟨checks, hchecks, -⟩ := hinterface.of_less hless.native
    rw [hs] at hchecks
    cases hchecks
    cases hk
  | @addresses s k hs hk =>
    obtain ⟨a, ha⟩ : ∃ a, r'.addresses = some a := by
      obtain ⟨actor, vector⟩ := k
      have hnative := nativeProof_of_ne hproof fun f hf => by cases vector <;> cases f <;> cases hf
      have haddress : AddressProof r' (address ⟨actor, vector⟩) := by
        cases vector with
        | getifaddrsIpv4 | getifaddrsIpv6 => exact hnative.2
        | _ => exact hnative
      exact ⟨_, haddress.choose_spec.1⟩
    obtain hnone | ⟨a', b, ha', hb, -, hleaked, -⟩ := hless.addresses
    · rw [hnone] at ha
      cases ha
    · rw [hs] at hb
      cases hb
      exact .addresses ha' (hleaked ▸ hk)
  | procInterfaces hs hne =>
    have hnative := nativeProof_of_ne hproof fun f hf => by cases f <;> cases hf
    exact absurd ((SurfaceProof.of_less hless.procInterfaces hnative).2 _ hs) hne
  | filesystem hs hne =>
    have hnative := nativeProof_of_ne hproof fun f hf => by cases f <;> cases hf
    exact absurd ((SurfaceProof.of_less hless.filesystem hnative.2).2 _ hs) hne
  | sysInterfaces hs hne =>
    have hnative := nativeProof_of_ne hproof fun f hf => by cases f <;> cases hf
    exact absurd ((SurfaceProof.of_less hless.sysInterfaces hnative.2).2 _ hs) hne
  | binding hs hne =>
    have hnative := nativeProof_of_ne hproof fun f hf => by cases f <;> cases hf
    exact absurd ((SurfaceProof.of_less hless.binding hnative).2 _ hs) hne
  | @framework s k hs hk =>
    obtain ⟨a, ha, -⟩ : FrameworkProof r' (frameworkCheck k) := by
      refine hproof.resolve_left fun hnative => ?_
      cases k <;> exact hnative
    obtain hnone | ⟨a', b, ha', hb, -, hleaked, -⟩ := hless.framework
    · rw [hnone] at ha
      cases ha
    · rw [hs] at hb
      cases hb
      exact .framework ha' (hleaked ▸ hk)

/-- Taking evidence away proves nothing new. -/
theorem proven_of_less (hless : LessEvidence r' r) (h : c ∈ r'.assessment.proven) :
    c ∈ r.assessment.proven := by
  rw [mem_proven] at h ⊢
  obtain ⟨hproof, hleaked⟩ := h
  refine ⟨?_, fun hleak => hleaked ?_⟩
  · refine hproof.imp ?_ fun hframework => hframework.of_less hless
    rintro ⟨⟨sample, hsample⟩, hnative⟩
    refine ⟨⟨sample, ?_⟩, hnative.of_less hless⟩
    obtain hnone | hsame := hless.nativeRaw
    · rw [hnone] at hsample
      cases hsample
    · rwa [← hsame]
  · rw [mem_leaked] at hleak ⊢
    refine ⟨hleak.1.of_less hless (hproof.imp_left And.right), ?_⟩
    rw [hless.plan]
    exact hleak.2

/-! ## Soundness -/

/-- A check of the native surfaces. -/
def RequiredCheck.isNative : RequiredCheck → Bool
  | .frameworkNetworks | .frameworkDefaultNetwork | .frameworkCapabilities
  | .frameworkLinkProperties
  | .frameworkLegacyInfo | .frameworkCallbacks | .frameworkPendingIntent | .packageVisibility
  | .ports => false
  | _ => true

/-- A native check is proven by its own evidence, beside which no source names a leak. -/
theorem proven_native (hc : c ∈ r.assessment.proven) (hnative : c.isNative = true) :
    (∃ sample, r.nativeRaw.bind (·.qualifiedSample) = some sample) ∧
      NativeProof r c ∧ ¬Leak r c := by
  obtain ⟨⟨hsample, hproof⟩ | hproof, hleaked⟩ := mem_proven.1 hc
  · refine ⟨hsample, hproof, fun hleak => hleaked (mem_leaked.2 ⟨hleak, ?_⟩)⟩
    rintro (rfl | rfl)
    · exact hproof.1
    · exact hproof.1
  · obtain ⟨k, rfl⟩ := hproof.exists_check
    cases k <;> cases hnative

/-- The lists are disjoint and cover what is required; with a supported plan they are a
    partition of it. A native check is only proven with the app's sample and with its whole
    group, every leak that the plan asks for is listed, and nothing new is proven by less
    evidence. -/
theorem assessment_sound (r : DiagnosticRun) :
    let a := r.assessment
    (∀ c, ¬(c ∈ a.proven ∧ c ∈ a.leaked) ∧ ¬(c ∈ a.proven ∧ c ∈ a.unverified) ∧
        ¬(c ∈ a.leaked ∧ c ∈ a.unverified)) ∧
      (∀ c ∈ a.required, c ∈ a.proven ∨ c ∈ a.leaked ∨ c ∈ a.unverified) ∧
      (∀ filesystem packages ports, r.plan = .supported filesystem packages ports →
        (a.proven ++ a.leaked ++ a.unverified).Perm a.required) ∧
      (∀ c ∈ a.proven, c.isNative = true →
        (∃ sample, r.nativeRaw.bind (·.qualifiedSample) = some sample) ∧
          NativeProof r c ∧ ¬Leak r c) ∧
      (∀ c, Leak r c → c ∈ r.plan.required → c ∈ a.leaked) ∧
      ∀ r', LessEvidence r' r → ∀ c ∈ r'.assessment.proven, c ∈ a.proven := by
  intro a
  refine ⟨fun c => ⟨?_, ?_, ?_⟩, ?_, fun _ _ _ => lists_perm_required,
    fun c => proven_native, ?_, ?_⟩
  · exact fun ⟨hp, hl⟩ => (mem_proven.1 hp).2 hl
  · exact fun ⟨hp, hu⟩ => (mem_unverified.1 hu).2.1 hp
  · exact fun ⟨hl, hu⟩ => (mem_unverified.1 hu).2.2 hl
  · -- What is required and neither proved nor leaked is unverified.
    intro c hc
    by_cases hp : c ∈ a.proven
    · exact .inl hp
    · by_cases hl : c ∈ a.leaked
      · exact .inr (.inl hl)
      · exact .inr (.inr (mem_unverified.2 ⟨hc, hp, hl⟩))
  · exact fun c hleak hplan => mem_leaked.2 ⟨hleak, fun _ => hplan⟩
  · exact fun r' hless c => proven_of_less hless

end Less

end VpnHide.Checks
